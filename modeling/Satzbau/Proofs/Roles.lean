import Satzbau.Proofs.Lexing
import Satzbau.Proofs.Occurrence
import Satzbau.Signature

namespace Satzbau

/-- What a header and a call have in common: a verb and its roles, without names or values. -/
structure Roles where
  verb : Token
  object : ObjectRole NounPhrase
  groups : List (PrepositionGroup NounPhrase)
  suffix : Option Token

namespace Roles

/-- The phrases of all roles in the order of the text. -/
def phrases (r : Roles) : List NounPhrase :=
  r.object.toList ++ r.groups.flatMap PrepositionGroup.items

def signature (annotations : Annotations) (r : Roles) : Except Diagnostic Signature :=
  Signature.ofRoles annotations r.verb r.object r.groups r.suffix

end Roles

def FunctionHeader.roles (h : FunctionHeader) : Roles :=
  ⟨h.verb, h.object.map Parameter.phrase, h.groups.map (.map Parameter.phrase), h.suffix⟩

def Call.roles (c : Call) : Roles :=
  ⟨c.verb, c.object.map Argument.phrase, c.groups.map (.map Argument.phrase), c.suffix⟩

theorem FunctionHeader.signature_eq (annotations : Annotations) (h : FunctionHeader) :
    h.signature annotations = h.roles.signature annotations := rfl

theorem Call.signature_eq (annotations : Annotations) (c : Call) :
    c.signature annotations = c.roles.signature annotations := rfl

/-- The functions and methods of a definition. -/
def Definition.functions : Definition → List FunctionDefinition
  | .function f => [f]
  | .implementation i => i.methods
  | .noun _ | .declension _ => []

/-- The headers of all functions and methods of a program. -/
def Program.headers (p : Program) : List FunctionHeader :=
  (p.definitions.flatMap Definition.functions).map FunctionDefinition.header

/-- The roles of all functions, methods and calls of a program. -/
def Program.roles (p : Program) : List Roles :=
  p.headers.map FunctionHeader.roles ++ p.calls.map Call.roles

/-- A phrase as it is read: a noun behind an optional determiner, with a fact that holds of both. -/
def NounPhrase.Written (fact : Token → Prop) (p : NounPhrase) : Prop :=
  (p.noun.kind = .noun ∧ fact p.noun) ∧ ∀ token ∈ p.determiner, token.determiner?.isSome ∧ fact token

/-- A phrase as it is read where a determiner has to stand. -/
def NounPhrase.IsRole (fact : Token → Prop) (p : NounPhrase) : Prop :=
  p.determiner.isSome ∧ p.Written fact

/-- The kinds of tokens that can introduce a preposition group. -/
def TokenKind.introducesGroup (kind : TokenKind) : Prop :=
  kind = .word ∨ kind = .keyword .along ∨ kind = .keyword .forEach

theorem TokenKind.introducesGroup.isPlainWord {kind : TokenKind} (introduces : kind.introducesGroup) :
    kind.isPlainWord = true := by
  obtain rfl | rfl | rfl := introduces
  · rfl
  · rfl
  · rfl

/-- Roles as they are read, with a fact that holds of all their tokens. -/
structure Roles.Written (fact : Token → Prop) (r : Roles) : Prop where
  verb : r.verb.kind = .word ∧ fact r.verb
  object : ∀ p ∈ r.object.toList, p.IsRole fact
  groups : ∀ g ∈ r.groups, (g.preposition.kind.introducesGroup ∧ fact g.preposition) ∧
    g.items ≠ [] ∧ ∀ p ∈ g.items, p.IsRole fact
  suffix : ∀ token ∈ r.suffix, token.kind = .word ∧ fact token

/-- Roles with the phrases of some things are as they are read if the phrase of each thing is. -/
theorem Roles.Written.map {α : Type} {fact : Token → Prop} {phrase : α → NounPhrase} {verb : Token} {object : ObjectRole α}
    {groups : List (PrepositionGroup α)} {suffix : Option Token} (isVerb : verb.kind = .word ∧ fact verb)
    (atObject : ∀ x ∈ object.toList, (phrase x).IsRole fact)
    (atGroups : ∀ g ∈ groups, (g.preposition.kind.introducesGroup ∧ fact g.preposition) ∧
      g.items ≠ [] ∧ ∀ x ∈ g.items, (phrase x).IsRole fact)
    (atSuffix : ∀ token ∈ suffix, token.kind = .word ∧ fact token) :
    Roles.Written fact ⟨verb, object.map phrase, groups.map (.map phrase), suffix⟩ where
  verb := isVerb
  object := by
    rw [ObjectRole.toList_map]
    intro p inside
    obtain ⟨x, member, rfl⟩ := List.mem_map.mp inside
    exact atObject x member
  groups := by
    intro g inside
    obtain ⟨g, member, rfl⟩ := List.mem_map.mp inside
    obtain ⟨introduced, nonempty, written⟩ := atGroups g member
    refine ⟨introduced, by simpa [PrepositionGroup.map] using nonempty, fun p inItems => ?_⟩
    obtain ⟨x, among, rfl⟩ := List.mem_map.mp inItems
    exact written x among
  suffix := atSuffix

def Occurrence.Written (fact : Token → Prop) : Occurrence → Prop
  | .phrase p => p.Written fact
  | .call c => c.roles.Written fact

end Satzbau

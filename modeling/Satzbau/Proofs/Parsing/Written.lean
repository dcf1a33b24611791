import Satzbau.Proofs.Parsing.Delivery

namespace Satzbau

namespace Parser

variable {α : Type} {fact front : Token → Prop}

/-- What holds of all that carries an id. -/
def AllWritten (fact : Token → Prop) (occurrences : List Occurrence) : Prop :=
  ∀ o ∈ occurrences, o.Written fact

@[simp] theorem allWritten_nil : AllWritten fact [] := by
  simp [AllWritten]

@[simp] theorem allWritten_cons {o : Occurrence} {later : List Occurrence} :
    AllWritten fact (o :: later) ↔ o.Written fact ∧ AllWritten fact later := by
  simp [AllWritten]

@[simp] theorem allWritten_append {first later : List Occurrence} :
    AllWritten fact (first ++ later) ↔ AllWritten fact first ∧ AllWritten fact later := by
  simp [AllWritten, or_imp, forall_and]

@[simp] theorem allWritten_flatMap {occurrences : α → List Occurrence} {xs : List α} :
    AllWritten fact (xs.flatMap occurrences) ↔ ∀ x ∈ xs, AllWritten fact (occurrences x) := by
  induction xs with
  | nil => simp
  | cons x later ih => simp [ih]

theorem Delivers.eat (kind : TokenKind) : Delivers fact front [] (eat kind) (fun _ => []) fun _ => True := by
  unfold Parser.eat
  refine .look (.at? kind) fun found => ?_
  split
  · exact .bind .advance fun _ _ => .pure (.refl _) trivial
  · exact .pure (.refl _) trivial

theorem Delivers.unexpected (expected : String) {ids : α → List NodeId} {good : α → Prop}
    {given : List NodeId} : Delivers fact front given (unexpected expected) ids good :=
  .look .peek fun _ => .throw _

theorem Delivers.expect (kind : TokenKind) (expected : String) :
    Delivers fact front [] (expect kind expected) (fun _ => []) fun token => token.kind = kind ∧ fact token := by
  unfold Parser.expect
  refine .look (.at? kind) fun found => ?_
  split
  · rename_i there
    exact .weaken .advance (fun _ => .refl _) fun token known => ⟨known.1.2 there, known.2⟩
  · exact .unexpected expected

theorem Delivers.expectNoun : Delivers fact front [] expectNoun (fun _ => [])
    fun token => token.kind = .noun ∧ fact token :=
  .expect .noun _

theorem Delivers.expectDeterminer : Delivers fact front [] expectDeterminer (fun _ => [])
    fun found => found.1.determiner? = some found.2 ∧ fact found.1 := by
  unfold Parser.expectDeterminer
  refine .look .peek fun token => ?_
  split
  · rename_i kind isDeterminer
    exact .bind .advance fun found known => .pure (.refl _) ⟨known.1.2 ▸ isDeterminer, known.2⟩
  · exact .throw _

theorem Delivers.skipLineEnds : Delivers fact front [] skipLineEnds (fun _ => []) fun _ => True := by
  intro scope s a t _ _ run
  obtain ⟨_, middle, modified, rest⟩ := bind_eq_ok run
  obtain ⟨token, last, seen, returned⟩ := bind_eq_ok rest
  obtain ⟨rfl, _⟩ := peek_eq_ok seen
  cases returned
  cases modified
  refine ⟨fun item inside => ?_, Nat.le_refl _, by simp, trivial⟩
  exact (List.dropWhile_suffix _).subset inside

theorem Delivers.nounPhrase {determiner : Option Token} {noun : Token}
    (isNoun : noun.kind = .noun ∧ fact noun)
    (isDeterminer : ∀ token ∈ determiner, token.determiner?.isSome ∧ fact token) :
    Delivers fact front [] (nounPhrase determiner noun) (fun p => [p.id])
      fun p => p.determiner = determiner ∧ p.Written fact :=
  .bind .freshId fun _ _ => .pure (.refl _) ⟨rfl, isNoun, isDeterminer⟩

/-- An expression as it is read: a property with which it begins has a determiner. -/
def ExpressionWritten (fact : Token → Prop) (e : Expression) : Prop :=
  AllWritten fact e.occurrences ∧ ∀ p ∈ e.leadingProperty?, p.determiner.isSome

def ArgumentWritten (fact : Token → Prop) (a : Argument) : Prop :=
  AllWritten fact a.occurrences ∧ a.phrase.IsRole fact

def ArgumentsWritten (fact : Token → Prop) (arguments : List Argument) : Prop :=
  arguments ≠ [] ∧ ∀ a ∈ arguments, ArgumentWritten fact a

def GroupsWritten (fact : Token → Prop) (groups : List (PrepositionGroup Argument)) : Prop :=
  ∀ g ∈ groups, (g.preposition.kind.introducesGroup ∧ fact g.preposition) ∧ ArgumentsWritten fact g.items

def ParametersWritten (fact : Token → Prop) (parameters : List Parameter) : Prop :=
  parameters ≠ [] ∧ ∀ p ∈ parameters, p.phrase.IsRole fact

def HeaderGroupsWritten (fact : Token → Prop) (groups : List (PrepositionGroup Parameter)) : Prop :=
  ∀ g ∈ groups, (g.preposition.kind.introducesGroup ∧ fact g.preposition) ∧ ParametersWritten fact g.items

def FunctionWritten (fact : Token → Prop) (f : FunctionDefinition) : Prop :=
  AllWritten fact f.occurrences ∧ f.header.roles.Written fact

def ProgramWritten (fact : Token → Prop) (p : Program) : Prop :=
  AllWritten fact p.occurrences ∧ ∀ h ∈ p.headers, h.roles.Written fact

/-- What the parsers for the inside of a construct deliver. -/
structure Inner.Delivers (fact : Token → Prop) (inner : Inner) : Prop where
  expression : ∀ least, Parser.Delivers fact (fun _ => True) [] (inner.expression least)
    (fun e => idsOf e.occurrences) (ExpressionWritten fact)
  operators : ∀ least left, ExpressionWritten fact left →
    Parser.Delivers fact (fun _ => True) (idsOf left.occurrences) (inner.operators least left)
      (fun e => idsOf e.occurrences) (ExpressionWritten fact)
  conversions : ∀ value, ExpressionWritten fact value →
    Parser.Delivers fact (fun _ => True) (idsOf value.occurrences) (inner.conversions value)
      (fun e => idsOf e.occurrences) (ExpressionWritten fact)
  phrase : ∀ determiner kind noun, determiner.determiner? = some kind ∧ fact determiner →
    noun.kind = .noun ∧ fact noun →
    Parser.Delivers fact (fun _ => True) [] (inner.phrase determiner kind noun)
      (fun e => idsOf e.occurrences) (ExpressionWritten fact)
  items : Parser.Delivers fact (fun _ => True) [] inner.items
    (fun items => idsOf (itemOccurrences items)) fun items => AllWritten fact (itemOccurrences items)
  arguments : Parser.Delivers fact (fun _ => True) [] inner.arguments
    (fun arguments => idsOf (argumentOccurrences arguments)) (ArgumentsWritten fact)
  groups : Parser.Delivers fact (fun _ => True) [] inner.groups
    (fun groups => idsOf (groupOccurrences groups)) (GroupsWritten fact)
  statements : ∀ close expected, Parser.Delivers fact (fun _ => True) [] (inner.statements close expected)
    (fun block => idsOf (blockOccurrences block)) fun block => AllWritten fact (blockOccurrences block)
  alternatives : Parser.Delivers fact (fun _ => True) [] inner.alternatives
    (fun found => idsOf (branchOccurrences found.1 ++ otherwiseOccurrences found.2))
    fun found => AllWritten fact (branchOccurrences found.1 ++ otherwiseOccurrences found.2)
  parameters : Parser.Delivers fact (fun _ => True) [] inner.parameters
    (fun parameters => idsOf (parameters.flatMap Parameter.occurrences)) (ParametersWritten fact)
  headerGroups : Parser.Delivers fact (fun _ => True) [] inner.headerGroups
    (fun groups => idsOf ((groups.flatMap PrepositionGroup.items).flatMap Parameter.occurrences))
    (HeaderGroupsWritten fact)
  members : Parser.Delivers fact (fun _ => True) [] inner.members
    (fun found => idsOf (found.1.flatMap FunctionDefinition.occurrences ++
      found.2.flatMap ConversionDefinition.occurrences))
    fun found => (∀ f ∈ found.1, FunctionWritten fact f) ∧
      AllWritten fact (found.2.flatMap ConversionDefinition.occurrences)
  program : Parser.Delivers fact (fun _ => True) [] inner.program
    (fun p => idsOf p.occurrences) (ProgramWritten fact)

namespace Inner.Delivers

variable {inner : Inner}

theorem ofNone : Inner.none.Delivers fact where
  expression _ := .unexpected _
  operators _ _ _ := .unexpected _
  conversions _ _ := .unexpected _
  phrase _ _ _ _ _ := .unexpected _
  items := .unexpected _
  arguments := .unexpected _
  groups := .unexpected _
  statements _ _ := .unexpected _
  alternatives := .unexpected _
  parameters := .unexpected _
  headerGroups := .unexpected _
  members := .unexpected _
  program := .unexpected _

end Inner.Delivers

end Parser

end Satzbau

import Satzbau.Proofs.Occurrence
import Satzbau.Proofs.Parsing.Extension

namespace Satzbau

/-- A phrase under a later id. -/
def NounPhrase.shifted (k : Nat) (p : NounPhrase) : NounPhrase :=
  { p with id := p.id + k }

mutual

/-- An expression with all of its ids moved on. -/
def Expression.shifted (k : Nat) : Expression → Expression
  | .literal token => .literal token
  | .noun phrase => .noun (phrase.shifted k)
  | .list phrase items => .list (phrase.shifted k) (shiftedItems k items)
  | .element phrase index => .element (phrase.shifted k) (index.shifted k)
  | .call c => .call (c.shifted k)
  | .binary operator token left right => .binary operator token (left.shifted k) (right.shifted k)
  | .minus token operand => .minus token (operand.shifted k)
  | .conversion token value target => .conversion token (value.shifted k) (target.shifted k)
  | .instantiation phrase fields => .instantiation (phrase.shifted k) (shiftedArguments k fields)
  | .property phrase owner => .property (phrase.shifted k) (owner.shifted k)
  | .ownProperty phrase => .ownProperty (phrase.shifted k)
  | .subjectProperty phrase => .subjectProperty (phrase.shifted k)
  | .self token => .self token
  | .you token => .you token

def shiftedItems (k : Nat) : List Expression → List Expression
  | [] => []
  | item :: later => item.shifted k :: shiftedItems k later

def shiftedValue (k : Nat) : Option Expression → Option Expression
  | none => none
  | some value => some (value.shifted k)

def Argument.shifted (k : Nat) : Argument → Argument
  | ⟨phrase, value⟩ => ⟨phrase.shifted k, shiftedValue k value⟩

def shiftedArguments (k : Nat) : List Argument → List Argument
  | [] => []
  | argument :: later => argument.shifted k :: shiftedArguments k later

def shiftedObject (k : Nat) : ObjectRole Argument → ObjectRole Argument
  | .absent => .absent
  | .thing argument => .thing (argument.shifted k)
  | .reflexive token => .reflexive token

def shiftedGroups (k : Nat) : List (PrepositionGroup Argument) → List (PrepositionGroup Argument)
  | [] => []
  | ⟨preposition, items⟩ :: later => ⟨preposition, shiftedArguments k items⟩ :: shiftedGroups k later

def Call.shifted (k : Nat) : Call → Call
  | ⟨id, verb, object, groups, suffix⟩ => ⟨id + k, verb, shiftedObject k object, shiftedGroups k groups, suffix⟩

end

mutual

/-- A statement with all of its ids moved on. -/
def Statement.shifted (k : Nat) : Statement → Statement
  | .declaration target owner verb value =>
    .declaration (target.shifted k) (shiftedValue k owner) verb (value.shifted k)
  | .conditional token branches otherwise =>
    .conditional token (shiftedBranches k branches) (shiftedOtherwise k otherwise)
  | .whileLoop token condition body => .whileLoop token (condition.shifted k) (shiftedBlock k body)
  | .forEach token binder source body =>
    .forEach token (binder.shifted k) (shiftedValue k source) (shiftedBlock k body)
  | .give token value => .give token (shiftedValue k value)
  | .loopControl control token => .loopControl control token
  | .methodBlock subject body => .methodBlock (subject.shifted k) (shiftedBlock k body)
  | .call c => .call (c.shifted k)
  | .builtin token => .builtin token

def shiftedBlock (k : Nat) : List Statement → List Statement
  | [] => []
  | s :: later => s.shifted k :: shiftedBlock k later

def Branch.shifted (k : Nat) : Branch → Branch
  | ⟨condition, body⟩ => ⟨condition.shifted k, shiftedBlock k body⟩

def shiftedBranches (k : Nat) : List Branch → List Branch
  | [] => []
  | b :: later => b.shifted k :: shiftedBranches k later

def shiftedOtherwise (k : Nat) : Option (List Statement) → Option (List Statement)
  | none => none
  | some body => some (shiftedBlock k body)

end

def Parameter.shifted (k : Nat) (p : Parameter) : Parameter :=
  { p with phrase := p.phrase.shifted k }

def FunctionHeader.shifted (k : Nat) (h : FunctionHeader) : FunctionHeader :=
  { h with
    result := h.result.map (NounPhrase.shifted k)
    object := h.object.map (Parameter.shifted k)
    groups := h.groups.map (.map (Parameter.shifted k)) }

def FunctionDefinition.shifted (k : Nat) (f : FunctionDefinition) : FunctionDefinition :=
  ⟨f.header.shifted k, shiftedBlock k f.body⟩

def ConversionDefinition.shifted (k : Nat) (c : ConversionDefinition) : ConversionDefinition :=
  ⟨c.token, c.target.shifted k, shiftedBlock k c.body⟩

/-- A definition with all of its ids moved on. -/
def Definition.shifted (k : Nat) : Definition → Definition
  | .function f => .function (f.shifted k)
  | .noun c => .noun ⟨c.token, c.name.shifted k, c.fields.map (Parameter.shifted k), shiftedBlock k c.body⟩
  | .implementation i =>
    .implementation ⟨i.token, i.owner.shifted k, i.methods.map (FunctionDefinition.shifted k),
      i.conversions.map (ConversionDefinition.shifted k)⟩
  | .declension d => .declension d

/-- A program with all of its ids moved on. -/
def Program.shifted (k : Nat) (p : Program) : Program :=
  ⟨p.definitions.map (Definition.shifted k), shiftedBlock k p.statements⟩

theorem Expression.firstOperand_shifted (k : Nat) (e : Expression) :
    (e.shifted k).firstOperand = e.firstOperand.shifted k := by
  match e with
  | .binary operator token left right => exact firstOperand_shifted k left
  | .conversion token value target => exact firstOperand_shifted k value
  | .literal _ | .noun _ | .list _ _ | .element _ _ | .call _ | .minus _ _ | .instantiation _ _ | .property _ _
  | .ownProperty _ | .subjectProperty _ | .self _ | .you _ => rfl

namespace Parser

variable {α β γ : Type} {k : Nat}

/-- A state with a later next id. -/
def State.moved (k : Nat) (s : State) : State :=
  { s with nextId := s.nextId + k }

/-- What `p` reads, `q` reads where the next id is a later one, with its ids moved on. -/
def Moves (k : Nat) (p : Parser α) (q : Parser β) (shift : α → β) : Prop :=
  ∀ scope s a t, p scope s = .ok (a, t) → q scope (s.moved k) = .ok (shift a, t.moved k)

/-- A parser that reads the same whatever the next id is. -/
abbrev Stays (k : Nat) (p : Parser α) : Prop :=
  Moves k p p fun a => a

namespace Moves

variable {shift : α → β}

theorem pure {a : α} {b : β} (same : b = shift a) : Moves k (Pure.pure a) (Pure.pure b) shift := by
  rintro scope s _ t ⟨⟩
  rw [same]
  rfl

theorem throw {q : Parser β} (fault : Diagnostic) : Moves k (throw fault) q shift := by
  intro scope s a t run
  contradiction

theorem fail {f : γ → Parser α} {q : Parser β} (fault : Diagnostic) :
    Moves k (MonadExcept.throw fault >>= f) q shift := by
  intro scope s a t run
  contradiction

theorem bind {δ : Type} {p : Parser γ} {q : Parser δ} {f : γ → Parser α} {g : δ → Parser β} {shift' : γ → δ}
    (first : Moves k p q shift') (next : ∀ c, Moves k (f c) (g (shift' c)) shift) :
    Moves k (p >>= f) (q >>= g) shift := by
  intro scope s a t run
  obtain ⟨c, middle, runFirst, rest⟩ := bind_eq_ok run
  rw [bind_ok (first scope s c middle runFirst)]
  exact next c scope middle a t rest

theorem read {f : Scope → Parser α} {g : Scope → Parser β} (next : ∀ scope, Moves k (f scope) (g scope) shift) :
    Moves k (MonadReaderOf.read >>= f) (MonadReaderOf.read >>= g) shift := by
  intro scope s a t run
  obtain ⟨_, _, here, rest⟩ := bind_eq_ok run
  cases here
  exact next scope scope s a t rest

theorem within {p : Parser α} {q : Parser β} (construct : Construct) (moves : Moves k p q shift) :
    Moves k (Parser.within construct p) (Parser.within construct q) shift :=
  fun scope s a t run => moves { scope with around := construct :: scope.around } s a t run

theorem map {p : Parser γ} {q : Parser γ} {f : γ → α} {g : γ → β} {shift' : γ → γ} (moves : Moves k p q shift')
    (same : ∀ c, g (shift' c) = shift (f c)) : Moves k (f <$> p) (g <$> q) shift := by
  rw [map_eq_pure_bind, map_eq_pure_bind]
  exact bind moves fun c => pure (same c)

theorem freshId : Moves k freshId freshId (· + k) := by
  rintro scope s id t ⟨⟩
  simp only [State.moved, Nat.add_right_comm s.nextId 1 k]
  rfl

theorem nounPhrase (determiner : Option Token) (noun : Token) :
    Moves k (nounPhrase determiner noun) (nounPhrase determiner noun) (NounPhrase.shifted k) :=
  bind freshId fun _ => pure rfl

theorem peek : Stays k peek := by
  intro scope s token t run
  obtain ⟨rfl, _⟩ := peek_eq_ok run
  exact peek_of_items run rfl

theorem peekSecond : Stays k peekSecond := by
  intro scope s token t run
  unfold Parser.peekSecond at run ⊢
  simp only [State.moved]
  split at run
  · cases run; rfl
  · cases run; rfl
  · contradiction
  · contradiction
  · cases run; rfl

theorem advance : Stays k advance := by
  intro scope s token t run
  obtain ⟨seen, rfl⟩ := advance_eq_ok run
  exact advance_ok (peek scope s token s seen)

theorem require (token : Token) (constructs : List Construct) (required : String) :
    Stays k (require token constructs required) := by
  refine read fun scope => ?_
  split
  · exact throw _
  · exact pure rfl

theorem requireOwner (token : Token) (kind : Determiner) : Stays k (requireOwner token kind) := by
  unfold Parser.requireOwner
  split
  · exact require _ _ _
  · exact require _ _ _
  · exact pure rfl

theorem at? (kind : TokenKind) : Stays k (at? kind) :=
  bind peek fun _ => pure rfl

theorem eat (kind : TokenKind) : Stays k (eat kind) := by
  refine bind (at? kind) fun found => ?_
  split
  · exact bind advance fun _ => pure rfl
  · exact pure rfl

theorem expect (kind : TokenKind) (expected : String) : Stays k (expect kind expected) := by
  refine bind (at? kind) fun found => ?_
  split
  · exact advance
  · exact bind peek fun _ => throw _

theorem expectNoun : Stays k expectNoun :=
  expect _ _

theorem expectDeterminer : Stays k expectDeterminer := by
  refine bind peek fun token => ?_
  split
  · exact bind advance fun _ => pure rfl
  · exact throw _

theorem optionalWord : Stays k optionalWord := by
  refine bind (at? _) fun found => ?_
  split
  · exact bind advance fun _ => pure rfl
  · exact pure rfl

theorem atPreposition : Stays k atPreposition := by
  refine bind peek fun token => ?_
  split
  · exact bind peekSecond fun _ => pure rfl
  · exact bind peekSecond fun _ => pure rfl
  · exact bind peekSecond fun _ => pure rfl
  · exact pure rfl

theorem atOwner : Stays k atOwner :=
  bind peek fun _ => pure rfl

theorem skipLineEnds : Stays k skipLineEnds := by
  intro scope s _ t run
  obtain ⟨rfl, token, seen⟩ := skipLineEnds_eq_ok run
  exact skipLineEnds_ok (peek scope s.skipped token _ seen)

theorem endStatement (close : TokenKind) : Stays k (endStatement close) := by
  refine bind peek fun token => ?_
  split
  · exact bind advance fun _ => pure rfl
  · split
    · exact throw _
    · exact pure rfl

theorem unexpected (expected : String) : Moves k (unexpected expected : Parser α) (Parser.unexpected expected) shift :=
  bind peek fun _ => throw _

end Moves

/-- How the parsers for the inside of a construct read where the next id is a later one. -/
structure Inner.Moves (k : Nat) (inner : Inner) : Prop where
  expression : ∀ least, Parser.Moves k (inner.expression least) (inner.expression least) (Expression.shifted k)
  operators : ∀ least left, Parser.Moves k (inner.operators least left) (inner.operators least (left.shifted k))
    (Expression.shifted k)
  conversions : ∀ value, Parser.Moves k (inner.conversions value) (inner.conversions (value.shifted k))
    (Expression.shifted k)
  phrase : ∀ determiner kind noun, Parser.Moves k (inner.phrase determiner kind noun)
    (inner.phrase determiner kind noun) (Expression.shifted k)
  items : Parser.Moves k inner.items inner.items (shiftedItems k)
  arguments : Parser.Moves k inner.arguments inner.arguments (shiftedArguments k)
  groups : Parser.Moves k inner.groups inner.groups (shiftedGroups k)
  statements : ∀ close expected, Parser.Moves k (inner.statements close expected) (inner.statements close expected)
    (shiftedBlock k)
  alternatives : Parser.Moves k inner.alternatives inner.alternatives
    fun found => (shiftedBranches k found.1, shiftedOtherwise k found.2)
  parameters : Parser.Moves k inner.parameters inner.parameters (List.map (Parameter.shifted k))
  headerGroups : Parser.Moves k inner.headerGroups inner.headerGroups (List.map (.map (Parameter.shifted k)))
  members : Parser.Moves k inner.members inner.members
    fun found => (found.1.map (FunctionDefinition.shifted k), found.2.map (ConversionDefinition.shifted k))
  program : Parser.Moves k inner.program inner.program (Program.shifted k)

end Parser

end Satzbau

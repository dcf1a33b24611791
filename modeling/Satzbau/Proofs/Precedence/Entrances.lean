import Satzbau.Proofs.Precedence.Depth
import Satzbau.Proofs.Progress.Layers

namespace Satzbau.Parser

variable {α β : Type}

/-- A parser that reads the same however many operators are around it, and the same directly within one. -/
def Overlooks (p : Parser α) : Prop :=
  ∀ a b, Scope.Like a b → ∀ s, p a s = p b s

namespace Overlooks

/-- A parser that does not look at the constructs around it at all. -/
theorem of_unseen {p : Parser α} (same : ∀ around other fileEnd s, p ⟨around, fileEnd⟩ s = p ⟨other, fileEnd⟩ s) :
    Overlooks p := by
  rintro ⟨around, fileEnd⟩ ⟨other, fileEnd'⟩ like s
  obtain rfl : fileEnd = fileEnd' := like.fileEnd
  exact same around other fileEnd s

theorem pure (a : α) : Overlooks (Pure.pure a : Parser α) :=
  fun _ _ _ _ => rfl

theorem throw (fault : Diagnostic) : Overlooks (throw fault : Parser α) :=
  fun _ _ _ _ => rfl

theorem bind {p : Parser β} {f : β → Parser α} (first : Overlooks p) (next : ∀ b, Overlooks (f b)) :
    Overlooks (p >>= f) := by
  intro a b like s
  show (p a s >>= fun step => f step.1 a step.2) = (p b s >>= fun step => f step.1 b step.2)
  rw [first a b like s]
  congr 1
  funext step
  exact next step.1 a b like step.2

theorem require {token : Token} {constructs : List Construct} {required : String} (without : .binary ∉ constructs) :
    Overlooks (require token constructs required) := by
  intro a b like s
  show (if !a.around.any constructs.contains then MonadExcept.throw _ else Pure.pure () : Parser Unit) a s =
    (if !b.around.any constructs.contains then MonadExcept.throw _ else Pure.pure () : Parser Unit) b s
  rw [like.around constructs without]
  split <;> rfl

theorem advance : Overlooks advance := of_unseen fun _ _ _ _ => rfl

theorem at? (kind : TokenKind) : Overlooks (at? kind) := of_unseen fun _ _ _ _ => rfl

theorem eat (kind : TokenKind) : Overlooks (eat kind) := by
  refine bind (at? kind) fun found => ?_
  split
  · exact bind advance fun _ => pure _
  · exact pure _

theorem expect (kind : TokenKind) (expected : String) : Overlooks (expect kind expected) := by
  refine bind (at? kind) fun found => ?_
  split
  · exact advance
  · exact bind (of_unseen fun _ _ _ _ => rfl) fun _ => throw _

theorem expectDeterminer : Overlooks expectDeterminer := by
  refine bind (of_unseen fun _ _ _ _ => rfl) fun token => ?_
  split
  · exact bind advance fun _ => pure _
  · exact throw _

theorem nounPhrase (determiner : Option Token) (noun : Token) : Overlooks (nounPhrase determiner noun) :=
  of_unseen fun _ _ _ _ => rfl

/-- A whole expression is read within an operator, wherever it stands. -/
theorem expression (size least : Nat) : Overlooks (Parser.binary (inner size) least) :=
  fun _ _ like s => binary_of_like like size least s

end Overlooks

/-- The parsers for the parts of a phrase do not see whether the phrase is an operand. -/
structure Inner.Overlooks (inner : Inner) : Prop where
  expression : ∀ least, Parser.Overlooks (inner.expression least)
  conversions : ∀ value, Parser.Overlooks (inner.conversions value)
  phrase : ∀ determiner kind noun, Parser.Overlooks (inner.phrase determiner kind noun)
  items : Parser.Overlooks inner.items
  arguments : Parser.Overlooks inner.arguments

namespace Inner.Overlooks

variable {inner : Inner}

theorem ofConversions (h : inner.Overlooks) (value : Expression) : Parser.Overlooks (Parser.conversions inner value) := by
  unfold Parser.conversions
  refine .bind (.at? _) fun more => ?_
  split
  · exact .bind .advance fun _ => .bind (.expect _ _) fun _ => .bind (.nounPhrase _ _) fun _ => h.conversions _
  · exact .pure _

theorem ofItems (h : inner.Overlooks) {expression : Parser Expression} (first : Parser.Overlooks expression) :
    Parser.Overlooks (Parser.items inner expression) := by
  unfold Parser.items
  refine .bind first fun item => .bind (.eat _) fun more => ?_
  split
  · exact .bind h.items fun _ => .pure _
  · exact .bind (.expect _ _) fun _ => .pure _

theorem ofArguments (h : inner.Overlooks) (blind : inner.IsBlind) : Parser.Overlooks (Parser.arguments inner) := by
  unfold Parser.arguments
  refine .bind (fun _ _ like => blind.argument_of_like like) fun first => .bind (.eat _) fun more => ?_
  split
  · exact .bind h.arguments fun _ => .pure _
  · exact .pure _

theorem ofDefinitePhrase (h : inner.Overlooks) (p : NounPhrase) : Parser.Overlooks (Parser.definitePhrase inner p) := by
  unfold Parser.definitePhrase
  refine .bind (.eat _) fun bracket => ?_
  split
  · exact .bind (h.expression 0) fun _ => .bind (.expect _ _) fun _ => .pure _
  · refine .bind (.of_unseen fun _ _ _ _ => rfl) fun owned => ?_
    split
    · exact .bind .expectDeterminer fun _ => .bind (.expect _ _) fun _ => .bind (h.phrase _ _ _) fun _ => .pure _
    · exact .pure _

theorem ofIndefinitePhrase (h : inner.Overlooks) (p : NounPhrase) :
    Parser.Overlooks (Parser.indefinitePhrase inner p) := by
  unfold Parser.indefinitePhrase
  refine .bind (.eat _) fun bracket => ?_
  split
  · refine .bind (.eat _) fun closed => ?_
    split
    · exact .pure _
    · exact .bind h.items fun _ => .pure _
  · refine .bind (.at? _) fun along => ?_
    split
    · refine .bind (.of_unseen fun _ _ _ _ => rfl) fun token => ?_
      split
      · exact .bind .advance fun _ => .bind h.arguments fun _ => .pure _
      · exact .pure _
    · exact .pure _

theorem ofPhrase (h : inner.Overlooks) (determiner : Token) (kind : Determiner) (noun : Token) :
    Parser.Overlooks (Parser.phrase inner determiner kind noun) := by
  unfold Parser.phrase
  split
  · exact .bind (.nounPhrase _ _) fun p => h.ofDefinitePhrase p
  · exact .bind (.nounPhrase _ _) fun p => h.ofIndefinitePhrase p
  · exact .throw _
  · exact .bind (.require (by decide)) fun _ => .bind (.nounPhrase _ _) fun _ => .pure _
  · exact .bind (.require (by decide)) fun _ => .bind (.nounPhrase _ _) fun _ => .pure _

end Inner.Overlooks

theorem inner_overlooks (size : Nat) : (inner size).Overlooks := by
  induction size with
  | zero =>
    have nothing {α : Type} (expected : String) : Overlooks (unexpected expected : Parser α) :=
      .bind (.of_unseen fun _ _ _ _ => rfl) fun _ => .throw _
    exact ⟨fun _ => nothing _, fun _ => nothing _, fun _ _ _ => nothing _, nothing _, nothing _⟩
  | succ size h =>
    exact {
      expression := .expression size
      conversions := h.ofConversions
      phrase := h.ofPhrase
      items := h.ofItems (.expression size 0)
      arguments := h.ofArguments (inner_isBlind size) }

section

variable {scope : Scope} {size : Nat}

/-- Whether no conversion stands at the front. -/
def NoConversion (scope : Scope) (s : State) : Prop :=
  atKeyword .convert scope s = .ok (false, s)

theorem conversions_of_noConversion {s : State} (none : NoConversion scope s) (inner : Inner) (value : Expression) :
    conversions inner value scope s = .ok (value, s) :=
  bind_ok none

theorem NoConversion.ofConversions {inner : Inner} {value converted : Expression} {s t : State}
    (later : ∀ {value converted s t}, inner.conversions value scope s = .ok (converted, t) → NoConversion scope t)
    (read : conversions inner value scope s = .ok (converted, t)) : NoConversion scope t := by
  obtain ⟨more, middle, looked, rest⟩ := bind_eq_ok read
  cases more with
  | true =>
    obtain ⟨_, _, _, rest⟩ := bind_eq_ok rest
    obtain ⟨_, _, _, rest⟩ := bind_eq_ok rest
    obtain ⟨_, _, _, rest⟩ := bind_eq_ok rest
    exact later rest
  | false =>
    obtain ⟨rfl, _⟩ := Looks.at? _ _ _ _ _ looked
    cases rest
    exact looked

/-- Conversions are read until none is left. -/
theorem noConversion_behind {value converted : Expression} {s t : State}
    (read : conversions (inner size) value scope s = .ok (converted, t)) : NoConversion scope t := by
  induction size generalizing value converted s t with
  | zero =>
    refine .ofConversions (fun impossible => ?_) read
    obtain ⟨_, _, _, thrown⟩ := bind_eq_ok impossible
    contradiction
  | succ size ih => exact .ofConversions ih read

variable {determiner noun : Token} {kind : Determiner} {items : List (Except Diagnostic Token)} {id : NodeId}

/-- What a phrase and the conversions behind it are read as. -/
def convertedPhrase (inner : Inner) (determiner : Token) (kind : Determiner) (noun : Token) : Parser Expression := do
  conversions inner (← phrase inner determiner kind noun)

theorem convertedPhrase_overlooks (size : Nat) (determiner : Token) (kind : Determiner) (noun : Token) :
    Overlooks (convertedPhrase (inner size) determiner kind noun) :=
  .bind ((inner_overlooks size).ofPhrase determiner kind noun) (inner_overlooks size).ofConversions

/-- What becomes of a phrase and its conversions: an operand, or the beginning of an expression. -/
def promoted (inner : Inner) (value : Expression) : Parser Expression := do
  if (← read).around.head? = some .binary then return value
  if (← peek).operator?.isSome then within .binary (operators inner 0 value) else return value

theorem nounExpression_eq (inner : Inner) (determiner : Token) (kind : Determiner) (noun : Token) :
    nounExpression inner determiner kind noun = convertedPhrase inner determiner kind noun >>= promoted inner := by
  unfold convertedPhrase
  rw [bind_assoc]
  rfl

/-- Directly within an operator, the operators behind a phrase are left to the one around it. -/
theorem promoted_inside (inside : scope.around.head? = some .binary) (inner : Inner) (value : Expression) (s : State) :
    promoted inner value scope s = .ok (value, s) := by
  show (if scope.around.head? = some .binary then (return value : Parser Expression) else do
    if (← peek).operator?.isSome then within .binary (operators inner 0 value) else return value) scope s = _
  rw [if_pos inside]
  rfl

/-- Elsewhere a phrase is an operand of the operators behind it, if there are any. -/
theorem promoted_outside (outside : scope.around.head? ≠ some .binary) (inner : Inner) (value : Expression) (s : State) :
    promoted inner value scope s = within .binary (operators inner 0 value) scope s := by
  show (if scope.around.head? = some .binary then (return value : Parser Expression) else do
    if (← peek).operator?.isSome then within .binary (operators inner 0 value) else return value) scope s = _
  rw [if_neg outside]
  cases looked : peek scope s with
  | error fault =>
    have failed : within .binary (operators inner 0 value) scope s = .error fault := bind_error looked
    rw [bind_error looked, failed]
  | ok step =>
    obtain ⟨token, t⟩ := step
    obtain ⟨rfl, _⟩ := Looks.peek _ _ _ _ looked
    rw [bind_ok looked]
    cases operator : token.operator? with
    | some o => rw [Option.isSome_some, if_pos rfl]
    | none =>
      have looked' : peek { scope with around := .binary :: scope.around } t = .ok (token, t) := looked
      rw [Option.isSome_none, if_neg Bool.false_ne_true]
      unfold operators
      rw [within_run, bind_ok looked', operator]
      rfl

/-- An operand that begins with a determiner and a noun is a phrase with the conversions behind it. -/
theorem operand_of_phrase (isDeterminer : determiner.kind = .determiner kind) (isNoun : noun.kind = .noun)
    (inside : scope.around.head? = some .binary) :
    operand (inner size) scope ⟨.ok determiner :: .ok noun :: items, id⟩ =
      convertedPhrase (inner size) determiner kind noun scope ⟨items, id⟩ := by
  have seen : peek scope ⟨.ok determiner :: .ok noun :: items, id⟩ = .ok (determiner, _) := rfl
  have taken : advance scope ⟨.ok determiner :: .ok noun :: items, id⟩ = .ok (determiner, ⟨.ok noun :: items, id⟩) :=
    advance_ok seen
  have noSign : ¬determiner.operator? = some .minus := by
    simp [Token.operator?, TokenKind.operator?, isDeterminer]
  have first : primary (inner size) scope ⟨.ok determiner :: .ok noun :: items, id⟩ =
      nounExpression (inner size) determiner kind noun scope ⟨items, id⟩ := by
    unfold primary
    rw [bind_ok seen, isDeterminer]
    dsimp only
    rw [bind_ok taken, expectNoun, bind_ok (expect_cons isNoun "a noun")]
  unfold operand
  rw [bind_ok seen, if_neg noSign]
  cases outcome : convertedPhrase (inner size) determiner kind noun scope ⟨items, id⟩ with
  | error fault =>
    rw [nounExpression_eq, bind_error outcome] at first
    exact bind_error first
  | ok step =>
    obtain ⟨value, t⟩ := step
    rw [nounExpression_eq, bind_ok outcome, promoted_inside inside] at first
    rw [bind_ok first]
    obtain ⟨_, _, _, converted⟩ := bind_eq_ok outcome
    exact conversions_of_noConversion (noConversion_behind converted) _ value

/-- The two entrances to expressions agree. Outside of operators, an expression that begins with a determiner
and a noun is read the same whether all of it is read as an expression, or the two tokens are taken first and
the rest is read as what they begin: the same expression with the same ids and the same rest of the input, or
the same fault. -/
theorem expression_of_phrase (outside : scope.around.head? ≠ some .binary)
    (isDeterminer : determiner.kind = .determiner kind) (isNoun : noun.kind = .noun) :
    (∀ size, expression (inner size) scope ⟨.ok determiner :: .ok noun :: items, id⟩ =
      nounExpression (inner size) determiner kind noun scope ⟨items, id⟩) ∧
    (scope.fileEnd.kind = .fileEnd →
      complete expression scope ⟨.ok determiner :: .ok noun :: items, id⟩ =
        complete (fun inner => nounExpression inner determiner kind noun) scope ⟨items, id⟩) := by
  have same (size : Nat) : expression (inner size) scope ⟨.ok determiner :: .ok noun :: items, id⟩ =
      nounExpression (inner size) determiner kind noun scope ⟨items, id⟩ := by
    have within : expression (inner size) scope ⟨.ok determiner :: .ok noun :: items, id⟩ =
        (operand (inner size) >>= operators (inner size) 0) { scope with around := .binary :: scope.around }
          ⟨.ok determiner :: .ok noun :: items, id⟩ := rfl
    have first := @operand_of_phrase { scope with around := .binary :: scope.around } size determiner noun kind items id
      isDeterminer isNoun rfl
    rw [← convertedPhrase_overlooks size determiner kind noun _ _ (Scope.Like.refl scope).binary] at first
    rw [within, nounExpression_eq]
    cases outcome : convertedPhrase (inner size) determiner kind noun scope ⟨items, id⟩ with
    | error fault => rw [bind_error outcome, bind_error (first.trans outcome)]
    | ok step => rw [bind_ok outcome, bind_ok (first.trans outcome), promoted_outside outside]; rfl
  refine ⟨same, fun endless => ?_⟩
  -- The longer input comes with more layers of parsers, but as many as there are items are enough.
  have enough : InStep (items.length + 1) false (fun _ => True) _ _ :=
    (Inner.InStep.layers (Inner.none.layers 2) .none items.length).ofNounExpression determiner kind noun
  have layers : inner (items.length + 2) = (Inner.none.layers 2).layers items.length := by
    rw [← Inner.layers_add, Nat.add_comm, inner_eq_layers]
  have fewer := (enough scope ⟨items, id⟩ endless (Nat.lt_succ_self _) fun _ _ => trivial).1
  rw [← layers, ← inner_eq_layers] at fewer
  exact (same (items.length + 2)).trans fewer

end

end Satzbau.Parser

-- The line `der Name des Baumes als Zahl plus 1`, where something is given back.
namespace Satzbau.Named

def token (kind : TokenKind) (text : String) (first last : Nat) : Token :=
  ⟨kind, text, "satz", .onLine 1 first last⟩

def der : Token := token (.determiner .definite) "der" 1 4
def name : Token := token .noun "Name" 5 9
def des : Token := token (.determiner .definite) "des" 10 13
def baumes : Token := token .noun "Baumes" 14 20
def als : Token := token (.keyword .convert) "als" 21 24
def zahl : Token := token .noun "Zahl" 25 29
def plus : Token := token (.operator .plus) "plus" 30 34
def one : Token := token (.number ⟨1, 0⟩) "1" 35 36
def fileEnd : Token := token .fileEnd "" 37 37

def scope : Parser.Scope :=
  ⟨[.give, .function], fileEnd⟩

def behind : List (Except Diagnostic Token) :=
  [des, baumes, als, zahl, plus, one].map .ok

/-- The conversion is that of the whole property, and the property is an operand. -/
def sum : Expression :=
  .binary .plus plus
    (.conversion als (.property ⟨0, some der, name⟩ (.noun ⟨1, some des, baumes⟩)) ⟨2, none, zahl⟩) (.literal one)

theorem read_through_both_entrances :
    scope.around.head? ≠ some .binary ∧ der.kind = .determiner .definite ∧ name.kind = .noun ∧
      scope.fileEnd.kind = .fileEnd ∧
      Parser.complete Parser.expression scope ⟨.ok der :: .ok name :: behind, 0⟩ = .ok (sum, ⟨[], 3⟩) ∧
      Parser.complete (fun inner => Parser.nounExpression inner der .definite name) scope ⟨behind, 0⟩ =
        .ok (sum, ⟨[], 3⟩) := by
  have outside : scope.around.head? ≠ some .binary := by decide
  have agree := (@Parser.expression_of_phrase scope der name .definite behind 0 outside rfl rfl).2 rfl
  have read : Parser.complete Parser.expression scope ⟨.ok der :: .ok name :: behind, 0⟩ = .ok (sum, ⟨[], 3⟩) := rfl
  exact ⟨outside, rfl, rfl, rfl, read, agree.symm.trans read⟩

end Satzbau.Named

import Satzbau.Parser.Run

namespace Satzbau.Parser

/-- Scopes that differ in nothing but how many operators are around. -/
structure Scope.Like (a b : Scope) : Prop where
  fileEnd : a.fileEnd = b.fileEnd
  around : ∀ constructs : List Construct, .binary ∉ constructs →
    a.around.any constructs.contains = b.around.any constructs.contains

/-- Scopes that are alike and of which both stand directly within an operator, or neither. -/
structure Scope.Alike (a b : Scope) : Prop extends a.Like b where
  inOperator : a.around.head? = some .binary ↔ b.around.head? = some .binary

theorem Scope.Like.within {a b : Scope} (like : a.Like b) (construct : Construct) :
    Scope.Alike { a with around := construct :: a.around } { b with around := construct :: b.around } where
  fileEnd := like.fileEnd
  around constructs without := by
    rw [List.any_cons, List.any_cons, like.around constructs without]
  inOperator := by
    rw [List.head?_cons, List.head?_cons]

/-- One more operator around a scope. -/
theorem Scope.Like.binary {a b : Scope} (like : a.Like b) : a.Like { b with around := .binary :: b.around } where
  fileEnd := like.fileEnd
  around constructs without := by
    have outside : constructs.contains .binary = false := by simp [without]
    rw [List.any_cons, outside, Bool.false_or, like.around constructs without]

theorem Scope.Like.refl (a : Scope) : a.Like a :=
  ⟨rfl, fun _ _ => rfl⟩

theorem Scope.Like.peek {a b : Scope} (like : a.Like b) (s : State) : Parser.peek a s = Parser.peek b s := by
  unfold Parser.peek
  rw [like.fileEnd]

variable {α β : Type}

/-- A parser that reads the same in scopes that are alike. -/
def Blind (p : Parser α) : Prop :=
  ∀ a b, Scope.Alike a b → ∀ s, p a s = p b s

namespace Blind

/-- A parser that does not look at the constructs around it at all. -/
theorem of_unseen {p : Parser α} (same : ∀ around other fileEnd s, p ⟨around, fileEnd⟩ s = p ⟨other, fileEnd⟩ s) :
    Blind p := by
  rintro ⟨around, fileEnd⟩ ⟨other, fileEnd'⟩ alike s
  obtain rfl : fileEnd = fileEnd' := alike.fileEnd
  exact same around other fileEnd s

theorem pure (a : α) : Blind (Pure.pure a : Parser α) :=
  fun _ _ _ _ => rfl

theorem throw (fault : Diagnostic) : Blind (throw fault : Parser α) :=
  fun _ _ _ _ => rfl

/-- Behind a fault nothing is read. -/
theorem fail {f : β → Parser α} (fault : Diagnostic) : Blind (MonadExcept.throw fault >>= f) :=
  fun _ _ _ _ => rfl

theorem bind {p : Parser β} {f : β → Parser α} (first : Blind p) (next : ∀ b, Blind (f b)) : Blind (p >>= f) := by
  intro a b alike s
  show (p a s >>= fun step => f step.1 a step.2) = (p b s >>= fun step => f step.1 b step.2)
  rw [first a b alike s]
  congr 1
  funext step
  exact next step.1 a b alike step.2

theorem within_of_like {construct : Construct} {p : Parser α} (blind : Blind p) {a b : Scope} (like : a.Like b) (s : State) :
    within construct p a s = within construct p b s :=
  blind _ _ (like.within construct) s

theorem within (construct : Construct) {p : Parser α} (blind : Blind p) : Blind (within construct p) :=
  fun _ _ alike => blind.within_of_like alike.toLike

/-- A look at what is around that finds the same in scopes that are alike. -/
theorem read {f : Scope → Parser α} (next : ∀ scope, Blind (f scope)) (same : ∀ a b, Scope.Alike a b → f a = f b) :
    Blind (MonadReaderOf.read >>= f) := by
  intro a b alike s
  show f a a s = f b b s
  rw [next a a b alike, same a b alike]

theorem require {token : Token} {constructs : List Construct} {required : String} (without : .binary ∉ constructs) :
    Blind (require token constructs required) := by
  refine read (fun scope => ?_) fun a b alike => by rw [alike.around constructs without]
  split
  · exact throw _
  · exact pure ()

theorem requireSelf (token : Token) : Blind (requireSelf token) :=
  require (by decide)

theorem requireMethodBlock (token : Token) : Blind (requireMethodBlock token) :=
  require (by decide)

theorem requireOwner (token : Token) (kind : Determiner) : Blind (requireOwner token kind) := by
  cases kind with
  | firstPossessive => exact requireSelf token
  | secondPossessive => exact requireMethodBlock token
  | _ => exact pure ()

theorem peek : Blind peek := of_unseen fun _ _ _ _ => rfl

theorem peekSecond : Blind peekSecond := of_unseen fun _ _ _ _ => rfl

theorem advance : Blind advance := of_unseen fun _ _ _ _ => rfl

theorem at? (kind : TokenKind) : Blind (at? kind) := of_unseen fun _ _ _ _ => rfl

theorem eat (kind : TokenKind) : Blind (eat kind) := by
  refine bind (at? kind) fun found => ?_
  split
  · exact bind advance fun _ => pure _
  · exact pure _

theorem unexpected (expected : String) : Blind (unexpected expected : Parser α) :=
  bind peek fun _ => throw _

theorem expect (kind : TokenKind) (expected : String) : Blind (expect kind expected) := by
  refine bind (at? kind) fun found => ?_
  split
  · exact advance
  · exact unexpected expected

theorem expectDeterminer : Blind expectDeterminer := by
  refine bind peek fun token => ?_
  split
  · exact bind advance fun _ => pure _
  · exact throw _

theorem nounPhrase (determiner : Option Token) (noun : Token) : Blind (nounPhrase determiner noun) :=
  of_unseen fun _ _ _ _ => rfl

theorem freshId : Blind freshId := of_unseen fun _ _ _ _ => rfl

theorem optionalWord : Blind optionalWord := by
  refine bind (at? .word) fun found => ?_
  split
  · exact bind advance fun _ => pure _
  · exact pure _

theorem atPreposition : Blind atPreposition := by
  refine bind peek fun token => ?_
  split
  · exact bind peekSecond fun _ => pure _
  · exact bind peekSecond fun _ => pure _
  · exact bind peekSecond fun _ => pure _
  · exact pure _

theorem atOwner : Blind atOwner := of_unseen fun _ _ _ _ => rfl

end Blind

/-- What the parsers for the inside of an expression see of the constructs around them. -/
structure Inner.IsBlind (inner : Inner) : Prop where
  expression : ∀ least, Blind (inner.expression least)
  operators : ∀ least left, Blind (inner.operators least left)
  conversions : ∀ value, Blind (inner.conversions value)
  phrase : ∀ determiner kind noun, Blind (inner.phrase determiner kind noun)
  items : Blind inner.items
  arguments : Blind inner.arguments
  groups : Blind inner.groups

namespace Inner.IsBlind

variable {inner : Inner}

theorem ofNone : Inner.none.IsBlind where
  expression _ := .unexpected _
  operators _ _ := .unexpected _
  conversions _ := .unexpected _
  phrase _ _ _ := .unexpected _
  items := .unexpected _
  arguments := .unexpected _
  groups := .unexpected _

theorem ofOperators (h : inner.IsBlind) (least : Nat) (left : Expression) :
    Blind (Parser.operators inner least left) := by
  unfold Parser.operators
  refine .bind .peek fun token => ?_
  split
  · exact .pure _
  · split
    · exact .pure _
    · exact .bind .advance fun _ => .bind (h.expression _) fun _ => h.operators _ _

theorem ofConversions (h : inner.IsBlind) (value : Expression) : Blind (Parser.conversions inner value) := by
  unfold Parser.conversions
  refine .bind (.at? _) fun more => ?_
  split
  · exact .bind .advance fun _ => .bind (.expect _ _) fun _ => .bind (.nounPhrase _ _) fun _ => h.conversions _
  · exact .pure _

theorem ofItems (h : inner.IsBlind) {expression : Parser Expression} (first : Blind expression) :
    Blind (Parser.items inner expression) := by
  unfold Parser.items
  refine .bind first fun item => .bind (.eat _) fun more => ?_
  split
  · exact .bind h.items fun _ => .pure _
  · exact .bind (.expect _ _) fun _ => .pure _

theorem ofDefinitePhrase (h : inner.IsBlind) (p : NounPhrase) : Blind (Parser.definitePhrase inner p) := by
  unfold Parser.definitePhrase
  refine .bind (.eat _) fun bracket => ?_
  split
  · exact .bind (h.expression 0) fun _ => .bind (.expect _ _) fun _ => .pure _
  · refine .bind .atOwner fun owned => ?_
    split
    · exact .bind .expectDeterminer fun _ => .bind (.expect _ _) fun _ => .bind (h.phrase _ _ _) fun _ => .pure _
    · exact .pure _

theorem ofIndefinitePhrase (h : inner.IsBlind) (p : NounPhrase) : Blind (Parser.indefinitePhrase inner p) := by
  unfold Parser.indefinitePhrase
  refine .bind (.eat _) fun bracket => ?_
  split
  · refine .bind (.eat _) fun closed => ?_
    split
    · exact .pure _
    · exact .bind h.items fun _ => .pure _
  · refine .bind (.at? _) fun along => ?_
    split
    · refine .bind .peekSecond fun token => ?_
      split
      · exact .bind .advance fun _ => .bind h.arguments fun _ => .pure _
      · exact .pure _
    · exact .pure _

theorem ofPhrase (h : inner.IsBlind) (determiner : Token) (kind : Determiner) (noun : Token) :
    Blind (Parser.phrase inner determiner kind noun) := by
  unfold Parser.phrase
  split
  · exact .bind (.nounPhrase _ _) fun p => h.ofDefinitePhrase p
  · exact .bind (.nounPhrase _ _) fun p => h.ofIndefinitePhrase p
  · exact .throw _
  · exact .bind (.requireSelf _) fun _ => .bind (.nounPhrase _ _) fun _ => .pure _
  · exact .bind (.requireMethodBlock _) fun _ => .bind (.nounPhrase _ _) fun _ => .pure _

theorem ofNounExpression (h : inner.IsBlind) (determiner : Token) (kind : Determiner) (noun : Token) :
    Blind (Parser.nounExpression inner determiner kind noun) := by
  unfold Parser.nounExpression
  refine .bind (h.ofPhrase determiner kind noun) fun first => .bind (h.ofConversions first) fun value => ?_
  refine .read (fun scope => ?_) fun a b alike => by simp only [alike.inOperator]
  split
  · exact .pure _
  · refine .bind .peek fun token => ?_
    split
    · exact .within _ (h.ofOperators 0 value)
    · exact .pure _

/-- A role that is read before its value. -/
theorem ofRoleThenValue (h : inner.IsBlind) (determiner noun : Token) : Blind (do
    let role ← nounPhrase (some determiner) noun
    if beginsValue (← peek).kind then return ⟨role, some (← inner.expression 0)⟩
    return ⟨role, Option.none⟩ : Parser Argument) := by
  refine .bind (.nounPhrase _ _) fun role => .bind .peek fun token => ?_
  split
  · exact .bind (h.expression 0) fun _ => .pure _
  · exact .pure _

/-- An argument is read within itself, so it does not matter what it stands in directly. -/
theorem argument_of_like (h : inner.IsBlind) {a b : Scope} (like : a.Like b) (s : State) :
    Parser.argument inner a s = Parser.argument inner b s := by
  unfold Parser.argument
  refine Blind.within_of_like (.bind .expectDeterminer fun found => ?_) like s
  obtain ⟨determiner, kind⟩ := found
  dsimp only
  split
  · exact .fail _
  · refine .bind (.requireOwner _ _) fun _ => .bind (.expect _ _) fun noun => ?_
    split
    · refine .bind .atOwner fun owned => ?_
      split
      · refine .bind (h.ofNounExpression determiner kind noun) fun value => ?_
        split
        · exact .pure _
        · exact .fail _
      · exact h.ofRoleThenValue determiner noun
    · exact h.ofRoleThenValue determiner noun

theorem ofArgument (h : inner.IsBlind) : Blind (Parser.argument inner) :=
  fun _ _ alike => h.argument_of_like alike.toLike

theorem ofArguments (h : inner.IsBlind) : Blind (Parser.arguments inner) := by
  unfold Parser.arguments
  refine .bind h.ofArgument fun first => .bind (.eat _) fun more => ?_
  split
  · exact .bind h.arguments fun _ => .pure _
  · exact .pure _

theorem ofGroups (h : inner.IsBlind) : Blind (Parser.groups inner) := by
  unfold Parser.groups
  refine .bind .atPreposition fun more => ?_
  split
  · exact .bind .advance fun _ => .bind h.ofArguments fun _ => .bind h.groups fun _ => .pure _
  · exact .pure _

theorem ofCallObject (h : inner.IsBlind) : Blind (Parser.callObject inner) := by
  unfold Parser.callObject
  refine .bind .peek fun token => ?_
  split
  · exact .bind h.ofArgument fun _ => .pure _
  · exact .bind .advance fun token => .bind (.requireSelf token) fun _ => .pure _
  · exact .bind .advance fun token => .bind (.requireMethodBlock token) fun _ => .pure _
  · exact .pure _

theorem ofCall (h : inner.IsBlind) : Blind (Parser.call inner) := by
  unfold Parser.call
  exact .within _ (.bind .freshId fun _ => .bind (.expect _ _) fun _ => .bind h.ofCallObject fun _ =>
    .bind h.ofGroups fun _ => .bind .optionalWord fun _ => .pure _)

theorem ofPrimary (h : inner.IsBlind) : Blind (Parser.primary inner) := by
  unfold Parser.primary
  refine .bind .peek fun token => ?_
  split
  · exact .bind .advance fun _ => .pure _
  · exact .bind .advance fun _ => .pure _
  · exact .bind .advance fun _ => .pure _
  · exact .bind .advance fun _ => .bind (h.expression 0) fun _ => .bind (.expect _ _) fun _ => .pure _
  · exact .bind h.ofCall fun _ => .pure _
  · exact .bind .advance fun _ => .bind (.nounPhrase _ _) fun _ => .pure _
  · exact .bind (.requireSelf _) fun _ => .bind .advance fun _ => .pure _
  · exact .bind (.requireMethodBlock _) fun _ => .bind .advance fun _ => .pure _
  · exact .bind .advance fun _ => .bind (.expect _ _) fun _ => h.ofNounExpression _ _ _
  · exact .throw _

theorem ofOperand (h : inner.IsBlind) : Blind (Parser.operand inner) := by
  unfold Parser.operand
  refine .bind .peek fun token => ?_
  split
  · exact .bind .advance fun _ => .bind (h.expression _) fun _ => .pure _
  · exact .bind h.ofPrimary fun value => h.ofConversions value

theorem ofOperandAndOperators (h : inner.IsBlind) (least : Nat) :
    Blind (Parser.operand inner >>= Parser.operators inner least) :=
  .bind h.ofOperand fun left => h.ofOperators least left

end Inner.IsBlind

theorem inner_isBlind (size : Nat) : (inner size).IsBlind := by
  induction size with
  | zero => exact Inner.IsBlind.ofNone
  | succ size h =>
    have expression (least : Nat) : Blind (binary (inner size) least) := .within _ (h.ofOperandAndOperators least)
    exact {
      expression := expression
      operators := h.ofOperators
      conversions := h.ofConversions
      phrase := h.ofPhrase
      items := h.ofItems (expression 0)
      arguments := h.ofArguments
      groups := h.ofGroups }

/-- An expression is read the same however many operators are around it. -/
theorem binary_of_like {a b : Scope} (like : a.Like b) (size least : Nat) (s : State) :
    binary (inner size) least a s = binary (inner size) least b s :=
  ((inner_isBlind size).ofOperandAndOperators least).within_of_like like s

end Satzbau.Parser

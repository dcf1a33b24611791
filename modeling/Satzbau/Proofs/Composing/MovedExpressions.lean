import Satzbau.Parser.Run
import Satzbau.Proofs.Composing.Moving

namespace Satzbau.Parser.Inner.Moves

variable {k : Nat} {inner : Inner}

theorem ofNone : Inner.none.Moves k where
  expression _ := .unexpected _
  operators _ _ := .unexpected _
  conversions _ := .unexpected _
  phrase _ _ _ := .unexpected _
  items := .unexpected _
  arguments := .unexpected _
  groups := .unexpected _
  statements _ _ := .unexpected _
  alternatives := .unexpected _
  parameters := .unexpected _
  headerGroups := .unexpected _
  members := .unexpected _
  program := .unexpected _

theorem ofOperators (h : inner.Moves k) (least : Nat) (left : Expression) :
    Parser.Moves k (Parser.operators inner least left) (Parser.operators inner least (left.shifted k))
      (Expression.shifted k) := by
  unfold Parser.operators
  refine .bind .peek fun token => ?_
  split
  · exact .pure rfl
  · split
    · exact .pure rfl
    · exact .bind .advance fun token => .bind (h.expression _) fun right => h.operators least (.binary _ token left right)

theorem ofConversions (h : inner.Moves k) (value : Expression) :
    Parser.Moves k (Parser.conversions inner value) (Parser.conversions inner (value.shifted k))
      (Expression.shifted k) := by
  unfold Parser.conversions
  refine .bind (.at? _) fun found => ?_
  split
  · exact .bind .advance fun token => .bind .expectNoun fun noun => .bind (.nounPhrase _ _) fun target =>
      h.conversions (.conversion token value target)
  · exact .pure rfl

theorem ofItems (h : inner.Moves k) {expression : Parser Expression}
    (first : Parser.Moves k expression expression (Expression.shifted k)) :
    Parser.Moves k (Parser.items inner expression) (Parser.items inner expression) (shiftedItems k) := by
  unfold Parser.items
  refine .bind first fun item => .bind (.eat _) fun more => ?_
  split
  · exact .bind h.items fun later => .pure rfl
  · exact .bind (.expect _ _) fun _ => .pure rfl

theorem ofDefinitePhrase (h : inner.Moves k) (p : NounPhrase) :
    Parser.Moves k (Parser.definitePhrase inner p) (Parser.definitePhrase inner (p.shifted k)) (Expression.shifted k) := by
  unfold Parser.definitePhrase
  refine .bind (.eat _) fun bracket => ?_
  split
  · exact .bind (h.expression 0) fun index => .bind (.expect _ _) fun _ => .pure rfl
  · refine .bind .atOwner fun owned => ?_
    split
    · refine .bind .expectDeterminer fun found => .bind .expectNoun fun noun => ?_
      exact .bind (h.phrase _ _ _) fun owner => .pure rfl
    · exact .pure rfl

theorem ofIndefinitePhrase (h : inner.Moves k) (p : NounPhrase) :
    Parser.Moves k (Parser.indefinitePhrase inner p) (Parser.indefinitePhrase inner (p.shifted k))
      (Expression.shifted k) := by
  unfold Parser.indefinitePhrase
  refine .bind (.eat _) fun bracket => ?_
  split
  · refine .bind (.eat _) fun closed => ?_
    split
    · exact .pure rfl
    · exact .bind h.items fun items => .pure rfl
  · refine .bind (.at? _) fun along => ?_
    split
    · refine .bind .peekSecond fun token => ?_
      split
      · exact .bind .advance fun _ => .bind h.arguments fun fields => .pure rfl
      · exact .pure rfl
    · exact .pure rfl

theorem ofPhrase (h : inner.Moves k) (determiner : Token) (kind : Determiner) (noun : Token) :
    Parser.Moves k (Parser.phrase inner determiner kind noun) (Parser.phrase inner determiner kind noun)
      (Expression.shifted k) := by
  unfold Parser.phrase
  split
  · exact .bind (.nounPhrase _ _) fun p => h.ofDefinitePhrase p
  · exact .bind (.nounPhrase _ _) fun p => h.ofIndefinitePhrase p
  · exact .throw _
  · exact .bind (.require _ _ _) fun _ => .bind (.nounPhrase _ _) fun p => .pure rfl
  · exact .bind (.require _ _ _) fun _ => .bind (.nounPhrase _ _) fun p => .pure rfl

theorem ofNounExpression (h : inner.Moves k) (determiner : Token) (kind : Determiner) (noun : Token) :
    Parser.Moves k (Parser.nounExpression inner determiner kind noun) (Parser.nounExpression inner determiner kind noun)
      (Expression.shifted k) := by
  unfold Parser.nounExpression
  refine .bind (h.ofPhrase determiner kind noun) fun operand => .bind (h.ofConversions operand) fun value => ?_
  refine .read fun scope => ?_
  split
  · exact .pure rfl
  · refine .bind .peek fun token => ?_
    split
    · exact .within _ (h.ofOperators 0 value)
    · exact .pure rfl

theorem ofArgument (h : inner.Moves k) :
    Parser.Moves k (Parser.argument inner) (Parser.argument inner) (Argument.shifted k) := by
  have named (determiner noun : Token) : Parser.Moves k (do
        let role ← Parser.nounPhrase (some determiner) noun
        if beginsValue (← Parser.peek).kind then return ⟨role, some (← inner.expression 0)⟩
        return ⟨role, Option.none⟩) (do
        let role ← Parser.nounPhrase (some determiner) noun
        if beginsValue (← Parser.peek).kind then return ⟨role, some (← inner.expression 0)⟩
        return ⟨role, Option.none⟩) (Argument.shifted k) := by
    refine .bind (.nounPhrase _ _) fun role => .bind .peek fun token => ?_
    split
    · exact .bind (h.expression 0) fun value => .pure rfl
    · exact .pure rfl
  unfold Parser.argument
  refine .within _ (.bind .expectDeterminer fun found => ?_)
  obtain ⟨determiner, kind⟩ := found
  dsimp only
  split
  · exact .fail _
  · refine .bind (.requireOwner determiner kind) fun _ => .bind .expectNoun fun noun => ?_
    split
    · refine .bind .atOwner fun owned => ?_
      split
      · refine .bind (h.ofNounExpression determiner kind noun) fun value => ?_
        rw [Expression.firstOperand_shifted]
        cases value.firstOperand with
        | property role owner => exact .pure rfl
        | _ => exact .fail _
      · exact named determiner noun
    · exact named determiner noun

theorem ofArguments (h : inner.Moves k) :
    Parser.Moves k (Parser.arguments inner) (Parser.arguments inner) (shiftedArguments k) := by
  unfold Parser.arguments
  refine .bind h.ofArgument fun first => .bind (.eat _) fun more => ?_
  split
  · exact .bind h.arguments fun later => .pure rfl
  · exact .pure rfl

theorem ofGroups (h : inner.Moves k) :
    Parser.Moves k (Parser.groups inner) (Parser.groups inner) (shiftedGroups k) := by
  unfold Parser.groups
  refine .bind .atPreposition fun found => ?_
  split
  · exact .bind .advance fun preposition => .bind h.ofArguments fun items => .bind h.groups fun later => .pure rfl
  · exact .pure rfl

theorem ofCallObject (h : inner.Moves k) :
    Parser.Moves k (Parser.callObject inner) (Parser.callObject inner) (shiftedObject k) := by
  unfold Parser.callObject
  refine .bind .peek fun token => ?_
  split
  · exact .bind h.ofArgument fun a => .pure rfl
  · exact .bind .advance fun token => .bind (.require _ _ _) fun _ => .pure rfl
  · exact .bind .advance fun token => .bind (.require _ _ _) fun _ => .pure rfl
  · exact .pure rfl

theorem ofCall (h : inner.Moves k) : Parser.Moves k (Parser.call inner) (Parser.call inner) (Call.shifted k) := by
  unfold Parser.call
  refine .within _ (.bind .freshId fun id => .bind (.expect _ _) fun verb => .bind h.ofCallObject fun object => ?_)
  exact .bind h.ofGroups fun groups => .bind .optionalWord fun suffix => .pure rfl

theorem ofPrimary (h : inner.Moves k) :
    Parser.Moves k (Parser.primary inner) (Parser.primary inner) (Expression.shifted k) := by
  unfold Parser.primary
  refine .bind .peek fun token => ?_
  split
  · exact .bind .advance fun token => .pure rfl
  · exact .bind .advance fun token => .pure rfl
  · exact .bind .advance fun token => .pure rfl
  · exact .bind .advance fun _ => .bind (h.expression 0) fun value => .bind (.expect _ _) fun _ => .pure rfl
  · exact .bind h.ofCall fun c => .pure rfl
  · exact .bind .advance fun noun => .bind (.nounPhrase _ _) fun p => .pure rfl
  · exact .bind (.require _ _ _) fun _ => .bind .advance fun token => .pure rfl
  · exact .bind (.require _ _ _) fun _ => .bind .advance fun token => .pure rfl
  · exact .bind .advance fun determiner => .bind .expectNoun fun noun => h.ofNounExpression determiner _ noun
  · exact .throw _

theorem ofOperand (h : inner.Moves k) :
    Parser.Moves k (Parser.operand inner) (Parser.operand inner) (Expression.shifted k) := by
  unfold Parser.operand
  refine .bind .peek fun token => ?_
  split
  · exact .bind .advance fun sign => .bind (h.expression _) fun value => .pure rfl
  · exact .bind h.ofPrimary fun value => h.ofConversions value

theorem ofBinary (h : inner.Moves k) (least : Nat) :
    Parser.Moves k (Parser.binary inner least) (Parser.binary inner least) (Expression.shifted k) :=
  .within _ (.bind h.ofOperand fun left => h.ofOperators least left)

end Satzbau.Parser.Inner.Moves

import Satzbau.Proofs.Parsing.Allowed

namespace Satzbau.Parser.Inner.Allows

variable {inner : Inner} {scope : Scope}

theorem ofOperators (h : inner.Allows) (least : Nat) (left : Expression) (known : left.Allowed scope.persons) :
    Gives scope (Parser.operators inner least left) (Expression.Allowed scope.persons) := by
  unfold Parser.operators
  refine .bind (.any _) fun token _ => ?_
  split
  · exact .pure known
  · split
    · exact .pure known
    · exact .bind (.any _) fun token _ => .bind (h.expression scope _) fun right atRight =>
        h.operators scope least (.binary _ token left right) ⟨known, atRight⟩

theorem ofConversions (h : inner.Allows) (value : Expression) (known : value.Allowed scope.persons) :
    Gives scope (Parser.conversions inner value) (Expression.Allowed scope.persons) := by
  unfold Parser.conversions
  refine .bind (.any _) fun more _ => ?_
  split
  · exact .bind (.any _) fun token _ => .bind (.any _) fun noun _ => .bind (.any _) fun target _ =>
      h.conversions scope (.conversion token value target) known
  · exact .pure known

theorem ofItems (h : inner.Allows) {expression : Parser Expression}
    (first : Gives scope expression (Expression.Allowed scope.persons)) :
    Gives scope (Parser.items inner expression) (itemsAllowed scope.persons) := by
  unfold Parser.items
  refine .bind first fun item atItem => .bind (.any _) fun more _ => ?_
  split
  · exact .bind (h.items scope) fun later atLater => .pure ⟨atItem, atLater⟩
  · exact .bind (.any _) fun _ _ => .pure ⟨atItem, trivial⟩

theorem ofDefinitePhrase (h : inner.Allows) (p : NounPhrase) :
    Gives scope (Parser.definitePhrase inner p) (Expression.Allowed scope.persons) := by
  unfold Parser.definitePhrase
  refine .bind (.any _) fun bracket _ => ?_
  split
  · exact .bind (h.expression scope 0) fun index atIndex => .bind (.any _) fun _ _ => .pure atIndex
  · refine .bind (.any _) fun owned _ => ?_
    split
    · exact .bind (.any _) fun found _ => .bind (.any _) fun noun _ =>
        .bind (h.phrase scope _ _ _) fun owner atOwner => .pure atOwner
    · exact .pure trivial

theorem ofIndefinitePhrase (h : inner.Allows) (p : NounPhrase) :
    Gives scope (Parser.indefinitePhrase inner p) (Expression.Allowed scope.persons) := by
  unfold Parser.indefinitePhrase
  refine .bind (.any _) fun bracket _ => ?_
  split
  · refine .bind (.any _) fun closed _ => ?_
    split
    · exact .pure trivial
    · exact .bind (h.items scope) fun items atItems => .pure atItems
  · refine .bind (.any _) fun along _ => ?_
    split
    · refine .bind (.any _) fun token _ => ?_
      split
      · exact .bind (.any _) fun _ _ => .bind (h.arguments scope) fun fields atFields => .pure atFields
      · exact .pure trivial
    · exact .pure trivial

theorem ofPhrase (h : inner.Allows) (determiner : Token) (kind : Determiner) (noun : Token) :
    Gives scope (Parser.phrase inner determiner kind noun) (Expression.Allowed scope.persons) := by
  unfold Parser.phrase
  split
  · exact .bind (.any _) fun p _ => h.ofDefinitePhrase p
  · exact .bind (.any _) fun p _ => h.ofIndefinitePhrase p
  · exact .throw _
  · exact .bind (.requireSelf _) fun _ known => .bind (.any _) fun p _ => .pure known
  · exact .bind (.requireMethodBlock _) fun _ known => .bind (.any _) fun p _ => .pure known

theorem ofNounExpression (h : inner.Allows) (determiner : Token) (kind : Determiner) (noun : Token) :
    Gives scope (Parser.nounExpression inner determiner kind noun) (Expression.Allowed scope.persons) := by
  unfold Parser.nounExpression
  refine .bind (h.ofPhrase determiner kind noun) fun first atFirst => ?_
  refine .bind (h.ofConversions first atFirst) fun value atValue => .bind (.any _) fun around _ => ?_
  split
  · exact .pure atValue
  · refine .bind (.any _) fun token _ => ?_
    split
    · exact .within (h.ofOperators 0 value atValue)
    · exact .pure atValue

/-- A role that is read before its value. -/
theorem ofRoleThenValue (h : inner.Allows) (determiner noun : Token) : Gives scope (do
    let role ← nounPhrase (some determiner) noun
    if beginsValue (← peek).kind then return ⟨role, some (← inner.expression 0)⟩
    return ⟨role, Option.none⟩ : Parser Argument) (Argument.Allowed scope.persons) := by
  refine .bind (.any _) fun role _ => .bind (.any _) fun token _ => ?_
  split
  · exact .bind (h.expression scope 0) fun value atValue => .pure atValue
  · exact .pure trivial

theorem ofArgument (h : inner.Allows) : Gives scope (Parser.argument inner) (Argument.Allowed scope.persons) := by
  unfold Parser.argument
  refine .within (.bind (.any _) fun found _ => ?_)
  obtain ⟨determiner, kind⟩ := found
  dsimp only
  split
  · exact .bind (.throw _) fun _ => False.elim
  · refine .bind (.any _) fun _ _ => .bind (.any _) fun noun _ => ?_
    split
    · refine .bind (.any _) fun owned _ => ?_
      split
      · refine .bind (h.ofNounExpression determiner kind noun) fun value atValue => ?_
        split
        · exact .pure atValue
        · exact .bind (.throw _) fun _ => False.elim
      · exact h.ofRoleThenValue determiner noun
    · exact h.ofRoleThenValue determiner noun

theorem ofArguments (h : inner.Allows) : Gives scope (Parser.arguments inner) (argumentsAllowed scope.persons) := by
  unfold Parser.arguments
  refine .bind h.ofArgument fun first atFirst => .bind (.any _) fun more _ => ?_
  split
  · exact .bind (h.arguments scope) fun later atLater => .pure ⟨atFirst, atLater⟩
  · exact .pure ⟨atFirst, trivial⟩

theorem ofGroups (h : inner.Allows) : Gives scope (Parser.groups inner) (groupsAllowed scope.persons) := by
  unfold Parser.groups
  refine .bind (.any _) fun found _ => ?_
  split
  · exact .bind (.any _) fun preposition _ => .bind h.ofArguments fun items atItems =>
      .bind (h.groups scope) fun later atLater => .pure ⟨atItems, atLater⟩
  · exact .pure trivial

theorem ofCallObject (h : inner.Allows) : Gives scope (Parser.callObject inner) (objectAllowed scope.persons) := by
  have argument : Gives scope (do return .thing (← Parser.argument inner)) (objectAllowed scope.persons) :=
    .bind h.ofArgument fun a atArgument => .pure atArgument
  unfold Parser.callObject
  refine .look fun token s seen => ?_
  split
  · exact argument.givesFrom
  · rename_i isFirst
    exact .take seen (.bind (.requireSelf token) fun _ known => .pure (.inl ⟨isFirst, known⟩))
  · rename_i isSecond
    exact .take seen (.bind (.requireMethodBlock token) fun _ known => .pure (.inr ⟨isSecond, known⟩))
  · have absent : objectAllowed scope.persons .absent := trivial
    exact (Gives.pure absent).givesFrom

theorem ofCall (h : inner.Allows) : Gives scope (Parser.call inner) (Call.Allowed scope.persons) := by
  unfold Parser.call
  refine .within (.bind (.any _) fun id _ => .bind (.any _) fun verb _ => ?_)
  exact .bind h.ofCallObject fun object atObject => .bind h.ofGroups fun groups atGroups =>
    .bind (.any _) fun suffix _ => .pure ⟨atObject, atGroups⟩

theorem ofPrimary (h : inner.Allows) : Gives scope (Parser.primary inner) (Expression.Allowed scope.persons) := by
  unfold Parser.primary
  have literal : Gives scope (do return .literal (← Parser.advance)) (Expression.Allowed scope.persons) :=
    .bind (.any _) fun _ _ => .pure trivial
  refine .bind (.any _) fun token _ => ?_
  split
  · exact literal
  · exact literal
  · exact literal
  · exact .bind (.any _) fun _ _ => .bind (h.expression scope 0) fun value atValue => .bind (.any _) fun _ _ => .pure atValue
  · exact .bind h.ofCall fun c atCall => .pure atCall
  · exact .bind (.any _) fun noun _ => .bind (.any _) fun p _ => .pure trivial
  · exact .bind (.requireSelf _) fun _ known => .bind (.any _) fun _ _ => .pure known
  · exact .bind (.requireMethodBlock _) fun _ known => .bind (.any _) fun _ _ => .pure known
  · exact .bind (.any _) fun determiner _ => .bind (.any _) fun noun _ => h.ofNounExpression determiner _ noun
  · exact .throw _

theorem ofOperand (h : inner.Allows) : Gives scope (Parser.operand inner) (Expression.Allowed scope.persons) := by
  unfold Parser.operand
  refine .bind (.any _) fun token _ => ?_
  split
  · exact .bind (.any _) fun _ _ => .bind (h.expression scope _) fun value atValue => .pure atValue
  · exact .bind h.ofPrimary fun value atValue => h.ofConversions value atValue

theorem ofBinary (h : inner.Allows) (least : Nat) :
    Gives scope (Parser.binary inner least) (Expression.Allowed scope.persons) := by
  unfold Parser.binary
  exact .within (.bind h.ofOperand fun left atLeft => h.ofOperators least left atLeft)

theorem ofExpression (h : inner.Allows) : Gives scope (Parser.expression inner) (Expression.Allowed scope.persons) :=
  h.ofBinary 0

end Satzbau.Parser.Inner.Allows

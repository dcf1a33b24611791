import Satzbau.Proofs.Determiners.Rules

namespace Satzbau.Parser.Inner.Determines

variable {inner : Inner} {scope : Scope}

theorem ofOperators (h : inner.Determines) (least : Nat) (left : Expression) (known : left.Determined scope.persons) :
    Gives scope (Parser.operators inner least left) (Expression.Determined scope.persons) := by
  unfold Parser.operators
  refine .bind (.any _) fun token _ => ?_
  split
  · exact .pure known
  · split
    · exact .pure known
    · exact .bind (.any _) fun token _ => .bind (h.expression scope _) fun right atRight =>
        h.operators scope least (.binary _ token left right) ⟨known, atRight⟩

theorem ofConversions (h : inner.Determines) (value : Expression) (known : value.Determined scope.persons) :
    Gives scope (Parser.conversions inner value) (Expression.Determined scope.persons) := by
  unfold Parser.conversions
  refine .bind (.any _) fun more _ => ?_
  split
  · exact .bind (.any _) fun token _ => .bind (.any _) fun noun _ => .bind (.undetermined scope.persons) fun target atTarget =>
      h.conversions scope (.conversion token value target) ⟨known, atTarget⟩
  · exact .pure known

theorem ofItems (h : inner.Determines) {expression : Parser Expression}
    (first : Gives scope expression (Expression.Determined scope.persons)) :
    Gives scope (Parser.items inner expression) (itemsDetermined scope.persons) := by
  unfold Parser.items
  refine .bind first fun item atItem => .bind (.any _) fun more _ => ?_
  split
  · exact .bind (h.items scope) fun later atLater => .pure ⟨atItem, atLater⟩
  · exact .bind (.any _) fun _ _ => .pure ⟨atItem, trivial⟩

theorem ofDefinitePhrase (h : inner.Determines) (p : NounPhrase) (known : p.Determined scope.persons) :
    Gives scope (Parser.definitePhrase inner p) (Expression.Determined scope.persons) := by
  unfold Parser.definitePhrase
  refine .bind (.any _) fun bracket _ => ?_
  split
  · exact .bind (h.expression scope 0) fun index atIndex => .bind (.any _) fun _ _ => .pure ⟨known, atIndex⟩
  · refine .bind (.any _) fun owned _ => ?_
    split
    · exact .bind .expectDeterminer fun found isKind => .bind (.any _) fun noun _ =>
        .bind (h.phrase scope _ _ _ isKind) fun owner atOwner => .pure ⟨known, atOwner⟩
    · exact .pure known

theorem ofIndefinitePhrase (h : inner.Determines) (p : NounPhrase) (known : p.Determined scope.persons) :
    Gives scope (Parser.indefinitePhrase inner p) (Expression.Determined scope.persons) := by
  have alone : Expression.Determined scope.persons (.instantiation p []) := ⟨known, trivial⟩
  unfold Parser.indefinitePhrase
  refine .bind (.any _) fun bracket _ => ?_
  split
  · refine .bind (.any _) fun closed _ => ?_
    split
    · exact .pure ⟨known, trivial⟩
    · exact .bind (h.items scope) fun items atItems => .pure ⟨known, atItems⟩
  · refine .bind (.any _) fun along _ => ?_
    split
    · refine .bind (.any _) fun token _ => ?_
      split
      · exact .bind (.any _) fun _ _ => .bind (h.arguments scope) fun fields atFields => .pure ⟨known, atFields⟩
      · exact .pure alone
    · exact .pure alone

theorem ofPhrase (h : inner.Determines) {determiner : Token} {kind : Determiner} (noun : Token)
    (isKind : determiner.determiner? = some kind) :
    Gives scope (Parser.phrase inner determiner kind noun) (Expression.Determined scope.persons) := by
  unfold Parser.phrase
  split
  · exact .bind (.determined isKind trivial) fun p atPhrase => h.ofDefinitePhrase p atPhrase
  · exact .bind (.determined isKind trivial) fun p atPhrase => h.ofIndefinitePhrase p atPhrase
  · exact .throw _
  · exact .bind (.requireSelf _) fun _ first => .bind (.determined isKind first) fun p atPhrase => .pure atPhrase
  · exact .bind (.requireMethodBlock _) fun _ second => .bind (.determined isKind second) fun p atPhrase => .pure atPhrase

theorem ofNounExpression (h : inner.Determines) {determiner : Token} {kind : Determiner} (noun : Token)
    (isKind : determiner.determiner? = some kind) :
    Gives scope (Parser.nounExpression inner determiner kind noun) (Expression.Determined scope.persons) := by
  unfold Parser.nounExpression
  refine .bind (h.ofPhrase noun isKind) fun first atFirst => ?_
  refine .bind (h.ofConversions first atFirst) fun value atValue => .bind (.any _) fun around _ => ?_
  split
  · exact .pure atValue
  · refine .bind (.any _) fun token _ => ?_
    split
    · exact .within (h.ofOperators 0 value atValue)
    · exact .pure atValue

/-- A role that is read before its value. -/
theorem ofRoleThenValue (h : inner.Determines) {determiner : Token} {kind : Determiner} (noun : Token)
    (isKind : determiner.determiner? = some kind) (mayStand : kind.MayStand scope.persons) : Gives scope (do
    let role ← nounPhrase (some determiner) noun
    if beginsValue (← peek).kind then return ⟨role, some (← inner.expression 0)⟩
    return ⟨role, Option.none⟩ : Parser Argument) (Argument.Determined scope.persons) := by
  refine .bind (.determined isKind mayStand) fun role atRole => .bind (.any _) fun token _ => ?_
  split
  · exact .bind (h.expression scope 0) fun value atValue => .pure ⟨atRole, atValue⟩
  · exact .pure ⟨atRole, trivial⟩

theorem ofArgument (h : inner.Determines) : Gives scope (Parser.argument inner) (Argument.Determined scope.persons) := by
  unfold Parser.argument
  refine .within (.bind .expectDeterminer fun found isKind => ?_)
  obtain ⟨determiner, kind⟩ := found
  dsimp only at isKind ⊢
  split
  · exact .bind (.throw _) fun _ => False.elim
  · rename_i other
    refine .bind (.requireOwner other) fun _ mayStand => .bind (.any _) fun noun _ => ?_
    split
    · refine .bind (.any _) fun owned _ => ?_
      split
      · refine .bind (h.ofNounExpression noun isKind) fun value atValue => ?_
        -- The role is the phrase with which the value begins.
        split
        · rename_i role owner begins
          have atRole := atValue.firstOperand
          rw [begins] at atRole
          exact .pure ⟨atRole.1, atValue⟩
        · exact .bind (.throw _) fun _ => False.elim
      · exact h.ofRoleThenValue noun isKind mayStand
    · exact h.ofRoleThenValue noun isKind mayStand

theorem ofArguments (h : inner.Determines) : Gives scope (Parser.arguments inner) (argumentsDetermined scope.persons) := by
  unfold Parser.arguments
  refine .bind h.ofArgument fun first atFirst => .bind (.any _) fun more _ => ?_
  split
  · exact .bind (h.arguments scope) fun later atLater => .pure ⟨atFirst, atLater⟩
  · exact .pure ⟨atFirst, trivial⟩

theorem ofGroups (h : inner.Determines) : Gives scope (Parser.groups inner) (groupsDetermined scope.persons) := by
  unfold Parser.groups
  refine .bind (.any _) fun found _ => ?_
  split
  · exact .bind (.any _) fun preposition _ => .bind h.ofArguments fun items atItems =>
      .bind (h.groups scope) fun later atLater => .pure ⟨atItems, atLater⟩
  · exact .pure trivial

theorem ofCallObject (h : inner.Determines) : Gives scope (Parser.callObject inner) (objectDetermined scope.persons) := by
  unfold Parser.callObject
  refine .bind (.any _) fun token _ => ?_
  split
  · exact .bind h.ofArgument fun a atArgument => .pure atArgument
  · exact .bind (.any _) fun token _ => .bind (.any _) fun _ _ => .pure trivial
  · exact .bind (.any _) fun token _ => .bind (.any _) fun _ _ => .pure trivial
  · exact .pure trivial

theorem ofCall (h : inner.Determines) : Gives scope (Parser.call inner) (Call.Determined scope.persons) := by
  unfold Parser.call
  refine .within (.bind (.any _) fun id _ => .bind (.any _) fun verb _ => ?_)
  exact .bind h.ofCallObject fun object atObject => .bind h.ofGroups fun groups atGroups =>
    .bind (.any _) fun suffix _ => .pure ⟨atObject, atGroups⟩

theorem ofPrimary (h : inner.Determines) : Gives scope (Parser.primary inner) (Expression.Determined scope.persons) := by
  unfold Parser.primary
  have literal : Gives scope (do return .literal (← Parser.advance)) (Expression.Determined scope.persons) :=
    .bind (.any _) fun _ _ => .pure trivial
  have call : Gives scope (do return .call (← Parser.call inner)) (Expression.Determined scope.persons) :=
    .bind h.ofCall fun c atCall => .pure atCall
  refine .look fun token s seen => ?_
  split
  · exact literal.givesFrom
  · exact literal.givesFrom
  · exact literal.givesFrom
  · exact .take seen (.bind (h.expression scope 0) fun value atValue => .bind (.any _) fun _ _ => .pure atValue)
  · exact call.givesFrom
  · exact .take seen (.bind (.undetermined scope.persons) fun p atPhrase => .pure atPhrase)
  · exact (Gives.bind (.any _) fun _ _ => .bind (.any _) fun _ _ => .pure trivial).givesFrom
  · exact (Gives.bind (.any _) fun _ _ => .bind (.any _) fun _ _ => .pure trivial).givesFrom
  · rename_i kind isDeterminer
    have isKind : token.determiner? = some kind := congrArg TokenKind.determiner? isDeterminer
    exact .take seen (.bind (.any _) fun noun _ => h.ofNounExpression noun isKind)
  · exact (Gives.throw _).givesFrom

theorem ofOperand (h : inner.Determines) : Gives scope (Parser.operand inner) (Expression.Determined scope.persons) := by
  unfold Parser.operand
  refine .bind (.any _) fun token _ => ?_
  split
  · exact .bind (.any _) fun _ _ => .bind (h.expression scope _) fun value atValue => .pure atValue
  · exact .bind h.ofPrimary fun value atValue => h.ofConversions value atValue

theorem ofBinary (h : inner.Determines) (least : Nat) :
    Gives scope (Parser.binary inner least) (Expression.Determined scope.persons) := by
  unfold Parser.binary
  exact .within (.bind h.ofOperand fun left atLeft => h.ofOperators least left atLeft)

theorem ofExpression (h : inner.Determines) : Gives scope (Parser.expression inner) (Expression.Determined scope.persons) :=
  h.ofBinary 0

end Satzbau.Parser.Inner.Determines

import Satzbau.Proofs.Composing.MovedExpressions

namespace Satzbau.Parser

variable {k : Nat}

theorem Moves.atAssignment : Stays k atAssignment := by
  refine .bind .peek fun token => ?_
  split
  · exact .pure rfl
  · exact .pure rfl
  · exact .pure rfl

theorem Moves.atOtherwise : Stays k atOtherwise := by
  refine .bind .peek fun token => ?_
  split
  · exact .pure rfl
  · split
    · exact .bind .peekSecond fun _ => .pure rfl
    · exact .pure rfl

namespace Inner.Moves

variable {inner : Inner}

theorem ofBlock (h : inner.Moves k) : Parser.Moves k (Parser.block inner) (Parser.block inner) (shiftedBlock k) :=
  .bind (.expect _ _) fun _ => h.statements _ _

theorem ofFinishStatement (h : inner.Moves k) (value : Expression) :
    Parser.Moves k (Parser.finishStatement inner value) (Parser.finishStatement inner (value.shifted k))
      (Statement.shifted k) := by
  unfold Parser.finishStatement
  refine .bind (.at? _) fun colon => ?_
  split
  · exact .within _ (.bind (.expect _ _) fun _ => .bind (h.statements _ _) fun body => .pure rfl)
  · cases value with
    | call c => exact .pure rfl
    | _ => exact .throw _

theorem ofAssignment (h : inner.Moves k) (target : NounPhrase) (owner : Option Expression) :
    Parser.Moves k (Parser.assignment inner target owner)
      (Parser.assignment inner (target.shifted k) (shiftedValue k owner)) (Statement.shifted k) := by
  unfold Parser.assignment
  exact .within _ (.bind .advance fun verb => .bind (h.ofBinary 0) fun value => .pure rfl)

theorem ofNounStatement (h : inner.Moves k) (kind : Determiner) :
    Parser.Moves k (Parser.nounStatement inner kind) (Parser.nounStatement inner kind) (Statement.shifted k) := by
  unfold Parser.nounStatement
  refine .bind .advance fun determiner => ?_
  split
  · exact .fail _
  · refine .bind .expectNoun fun noun => .bind .atAssignment fun assigned => ?_
    split
    · exact .bind (.requireOwner determiner kind) fun _ => .bind (.nounPhrase _ _) fun target =>
        h.ofAssignment target Option.none
    · refine .bind (h.ofNounExpression determiner kind noun) fun value => ?_
      cases value with
      | property target owner =>
        refine .bind .atAssignment fun assigned => ?_
        split
        · exact h.ofAssignment target (some owner)
        · exact h.ofFinishStatement (.property target owner)
      | _ => exact h.ofFinishStatement _

theorem ofBranch (h : inner.Moves k) :
    Parser.Moves k (Parser.branch inner) (Parser.branch inner) (Branch.shifted k) := by
  unfold Parser.branch
  exact .bind (h.ofBinary 0) fun condition => .bind h.ofBlock fun body => .pure rfl

theorem ofAlternatives (h : inner.Moves k) :
    Parser.Moves k (Parser.alternatives inner) (Parser.alternatives inner)
      fun found => (shiftedBranches k found.1, shiftedOtherwise k found.2) := by
  unfold Parser.alternatives
  refine .bind .atOtherwise fun found => ?_
  split
  · refine .bind .skipLineEnds fun _ => .bind (.expect _ _) fun _ => .bind (.eat _) fun further => ?_
    split
    · exact .bind h.ofBranch fun next => .bind h.alternatives fun rest => .pure rfl
    · exact .bind h.ofBlock fun body => .pure rfl
  · exact .pure rfl

theorem ofConditional (h : inner.Moves k) :
    Parser.Moves k (Parser.conditional inner) (Parser.conditional inner) (Statement.shifted k) := by
  unfold Parser.conditional
  refine .within _ (.bind (.expect _ _) fun token => .bind h.ofBranch fun first => ?_)
  exact .bind h.ofAlternatives fun rest => .pure rfl

theorem ofWhileLoop (h : inner.Moves k) :
    Parser.Moves k (Parser.whileLoop inner) (Parser.whileLoop inner) (Statement.shifted k) := by
  unfold Parser.whileLoop
  refine .within _ (.bind (.expect _ _) fun token => .bind (h.ofBinary 0) fun condition => ?_)
  exact .bind h.ofBlock fun body => .pure rfl

theorem ofLoopSource (h : inner.Moves k) :
    Parser.Moves k (Parser.loopSource inner) (Parser.loopSource inner) (shiftedValue k) := by
  unfold Parser.loopSource
  refine .bind .peek fun token => ?_
  split
  · exact .bind .advance fun _ => .bind (h.expression 0) fun value => .pure rfl
  · exact .pure rfl

theorem ofForEach (h : inner.Moves k) :
    Parser.Moves k (Parser.forEach inner) (Parser.forEach inner) (Statement.shifted k) := by
  unfold Parser.forEach
  refine .within _ (.bind (.expect _ _) fun token => .bind .expectDeterminer fun found => ?_)
  obtain ⟨determiner, kind⟩ := found
  dsimp only
  split
  · exact .fail _
  · refine .bind .expectNoun fun noun => .bind (.nounPhrase _ _) fun binder => ?_
    exact .bind h.ofLoopSource fun source => .bind h.ofBlock fun body => .pure rfl

theorem ofGive (h : inner.Moves k) :
    Parser.Moves k (Parser.give inner) (Parser.give inner) (Statement.shifted k) := by
  unfold Parser.give
  refine .within _ (.bind .advance fun token => .bind (.require _ _ _) fun _ => ?_)
  split
  · exact .pure rfl
  · exact .bind (h.ofBinary 0) fun value => .bind (.expect _ _) fun _ => .pure rfl

theorem ofLoopControl (control : LoopControl) :
    Parser.Moves k (Parser.loopControl control) (Parser.loopControl control) (Statement.shifted k) := by
  unfold Parser.loopControl
  exact .bind .advance fun token => .bind (.require _ _ _) fun _ => .pure rfl

theorem ofStatement (h : inner.Moves k) :
    Parser.Moves k (Parser.statement inner) (Parser.statement inner) (Statement.shifted k) := by
  have misplacedHere (required : String) : Parser.Moves k
      (do Parser.misplaced (← Parser.advance) required : Parser Statement)
      (do Parser.misplaced (← Parser.advance) required) (Statement.shifted k) :=
    .bind .advance fun _ => .throw _
  unfold Parser.statement
  refine .bind .peek fun token => ?_
  split
  · exact h.ofConditional
  · exact h.ofWhileLoop
  · exact h.ofForEach
  · exact h.ofGive
  · exact h.ofGive
  · exact ofLoopControl _
  · exact ofLoopControl _
  · exact .bind .advance fun token => .bind (.require _ _ _) fun _ => .pure rfl
  · exact misplacedHere _
  · exact misplacedHere _
  · exact misplacedHere _
  · exact misplacedHere _
  · exact misplacedHere _
  · exact h.ofNounStatement _
  · exact .bind (h.ofBinary 0) fun value => h.ofFinishStatement value

theorem ofStatements (h : inner.Moves k) (close : TokenKind) (expected : String) :
    Parser.Moves k (Parser.statements inner close expected) (Parser.statements inner close expected)
      (shiftedBlock k) := by
  unfold Parser.statements
  refine .bind .skipLineEnds fun _ => .bind (.eat close) fun closed => ?_
  split
  · exact .pure rfl
  · refine .bind (.at? _) fun ended => ?_
    have rest : Parser.Moves k (do
          let first ← Parser.statement inner
          Parser.endStatement close
          return first :: (← inner.statements close expected)) (do
          let first ← Parser.statement inner
          Parser.endStatement close
          return first :: (← inner.statements close expected)) (shiftedBlock k) :=
      .bind h.ofStatement fun first => .bind (.endStatement close) fun _ =>
        .bind (h.statements close expected) fun later => .pure rfl
    split
    · have stops : Stays k (Parser.unexpected expected : Parser Unit) := .unexpected expected
      exact .bind stops fun _ => rest
    · exact rest

end Inner.Moves

end Satzbau.Parser

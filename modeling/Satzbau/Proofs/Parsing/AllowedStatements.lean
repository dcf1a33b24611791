import Satzbau.Proofs.Parsing.AllowedExpressions

namespace Satzbau

theorem branchesAllowed.cons {s : Surroundings} {b : Branch} {later : List Branch} (first : branchesAllowed s [b])
    (rest : branchesAllowed s later) : branchesAllowed s (b :: later) := by
  obtain ⟨condition, body⟩ := b
  exact ⟨first.1, first.2.1, rest⟩

namespace Parser.Inner.Allows

variable {inner : Inner} {scope : Scope}

theorem ofBlock (h : inner.Allows) : Gives scope (Parser.block inner) (blockAllowed scope.surroundings) := by
  unfold Parser.block
  exact .bind (.any _) fun _ _ => h.statements scope _ _

theorem ofFinishStatement (h : inner.Allows) (value : Expression) (known : value.Allowed scope.persons) :
    Gives scope (Parser.finishStatement inner value) (Statement.Allowed scope.surroundings) := by
  unfold Parser.finishStatement
  refine .bind (.any _) fun colon _ => ?_
  split
  · -- The subject was read before the block is entered.
    refine .within (.bind (.any _) fun _ _ => .bind (h.statements _ _ _) fun body inBody => .pure ?_)
    exact ⟨known, inBody⟩
  · split
    · exact .pure known
    · exact .throw _

theorem ofAssignment (h : inner.Allows) (target : NounPhrase) (owner : Option Expression)
    (known : valueAllowed scope.persons owner) :
    Gives scope (Parser.assignment inner target owner) (Statement.Allowed scope.surroundings) := by
  unfold Parser.assignment
  exact .within (.bind (.any _) fun verb _ => .bind h.ofExpression fun value atValue => .pure ⟨known, atValue⟩)

theorem ofNounStatement (h : inner.Allows) (kind : Determiner) :
    Gives scope (Parser.nounStatement inner kind) (Statement.Allowed scope.surroundings) := by
  unfold Parser.nounStatement
  refine .bind (.any _) fun determiner _ => ?_
  split
  · exact .bind (.throw _) fun _ => False.elim
  · refine .bind (.any _) fun noun _ => .bind (.any _) fun assigned _ => ?_
    split
    · exact .bind (.any _) fun _ _ => .bind (.any _) fun target _ => h.ofAssignment target .none trivial
    · refine .bind (h.ofNounExpression determiner kind noun) fun value atValue => ?_
      split
      · rename_i target owner
        refine .bind (.any _) fun assigned _ => ?_
        split
        · exact h.ofAssignment target (some owner) atValue
        · exact h.ofFinishStatement (.property target owner) atValue
      · exact h.ofFinishStatement value atValue

theorem ofBranch (h : inner.Allows) : Gives scope (Parser.branch inner) fun b => branchesAllowed scope.surroundings [b] := by
  unfold Parser.branch
  exact .bind h.ofExpression fun condition atCondition => .bind h.ofBlock fun body inBody =>
    .pure ⟨atCondition, inBody, trivial⟩

theorem ofAlternatives (h : inner.Allows) : Gives scope (Parser.alternatives inner) fun found =>
    branchesAllowed scope.surroundings found.1 ∧ otherwiseAllowed scope.surroundings found.2 := by
  unfold Parser.alternatives
  refine .bind (.any _) fun more _ => ?_
  split
  · refine .bind (.any _) fun _ _ => .bind (.any _) fun _ _ => .bind (.any _) fun conditional _ => ?_
    split
    · exact .bind h.ofBranch fun next atNext => .bind (h.alternatives scope) fun found atOthers =>
        .pure ⟨atNext.cons atOthers.1, atOthers.2⟩
    · exact .bind h.ofBlock fun body inBody => .pure ⟨trivial, inBody⟩
  · exact .pure ⟨trivial, trivial⟩

theorem ofConditional (h : inner.Allows) :
    Gives scope (Parser.conditional inner) (Statement.Allowed scope.surroundings) := by
  unfold Parser.conditional
  refine .within (.bind (.any _) fun _ _ => .bind h.ofBranch fun first atFirst => ?_)
  exact .bind h.ofAlternatives fun found atOthers => .pure ⟨atFirst.cons atOthers.1, atOthers.2⟩

theorem ofWhileLoop (h : inner.Allows) : Gives scope (Parser.whileLoop inner) (Statement.Allowed scope.surroundings) := by
  unfold Parser.whileLoop
  refine .within (.bind (.any _) fun _ _ => .bind h.ofExpression fun condition atCondition => ?_)
  exact .bind h.ofBlock fun body inBody => .pure ⟨atCondition, inBody⟩

theorem ofLoopSource (h : inner.Allows) : Gives scope (Parser.loopSource inner) (valueAllowed scope.persons) := by
  unfold Parser.loopSource
  refine .bind (.any _) fun token _ => ?_
  split
  · exact .bind (.any _) fun _ _ => .bind (h.expression scope 0) fun value atValue => .pure atValue
  · exact .pure trivial

theorem ofForEach (h : inner.Allows) : Gives scope (Parser.forEach inner) (Statement.Allowed scope.surroundings) := by
  unfold Parser.forEach
  refine .within (.bind (.any _) fun _ _ => .bind (.any _) fun found _ => ?_)
  obtain ⟨determiner, kind⟩ := found
  dsimp only
  split
  · exact .bind (.throw _) fun _ => False.elim
  · refine .bind (.any _) fun noun _ => .bind (.any _) fun binder _ => ?_
    exact .bind h.ofLoopSource fun source atSource => .bind h.ofBlock fun body inBody => .pure ⟨atSource, inBody⟩

theorem ofGive (h : inner.Allows) : Gives scope (Parser.give inner) (Statement.Allowed scope.surroundings) := by
  unfold Parser.give
  refine .within (.bind (.any _) fun token _ => .bind (.requireBody token) fun _ inBody => ?_)
  split
  · exact .pure ⟨inBody, trivial⟩
  · exact .bind h.ofExpression fun value atValue => .bind (.any _) fun _ _ => .pure ⟨inBody, atValue⟩

theorem ofLoopControl (control : LoopControl) :
    Gives scope (Parser.loopControl control) (Statement.Allowed scope.surroundings) := by
  unfold Parser.loopControl
  exact .bind (.any _) fun token _ => .bind (.requireLoop token) fun _ inLoop => .pure inLoop

theorem ofStatement (h : inner.Allows) : Gives scope (Parser.statement inner) (Statement.Allowed scope.surroundings) := by
  unfold Parser.statement
  refine .bind (.any _) fun token _ => ?_
  split
  · exact h.ofConditional
  · exact h.ofWhileLoop
  · exact h.ofForEach
  · exact h.ofGive
  · exact h.ofGive
  · exact ofLoopControl _
  · exact ofLoopControl _
  · exact .bind (.any _) fun token _ => .bind (.requireBody token) fun _ inBody => .pure inBody
  · exact .bind (.any _) fun _ _ => .throw _
  · exact .bind (.any _) fun _ _ => .throw _
  · exact .bind (.any _) fun _ _ => .throw _
  · exact .bind (.any _) fun _ _ => .throw _
  · exact .bind (.any _) fun _ _ => .throw _
  · exact h.ofNounStatement _
  · exact .bind h.ofExpression fun value atValue => h.ofFinishStatement value atValue

theorem ofStatements (h : inner.Allows) (close : TokenKind) (expected : String) :
    Gives scope (Parser.statements inner close expected) (blockAllowed scope.surroundings) := by
  unfold Parser.statements
  refine .bind (.any _) fun _ _ => .bind (.any _) fun closed _ => ?_
  split
  · exact .pure trivial
  · refine .bind (.any _) fun ended _ => ?_
    split
    · exact .bind (.unexpected _) fun _ => False.elim
    · exact .bind h.ofStatement fun first atFirst => .bind (.any _) fun _ _ =>
        .bind (h.statements scope close expected) fun later atLater => .pure ⟨atFirst, atLater⟩

end Parser.Inner.Allows

end Satzbau

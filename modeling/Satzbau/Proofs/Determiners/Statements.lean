import Satzbau.Proofs.Determiners.Expressions

namespace Satzbau

theorem branchesDetermined.cons {persons : Persons} {b : Branch} {later : List Branch}
    (first : branchesDetermined persons [b]) (rest : branchesDetermined persons later) :
    branchesDetermined persons (b :: later) := by
  obtain ⟨condition, body⟩ := b
  exact ⟨first.1, first.2.1, rest⟩

namespace Parser.Inner.Determines

variable {inner : Inner} {scope : Scope}

theorem ofBlock (h : inner.Determines) : Gives scope (Parser.block inner) (blockDetermined scope.persons) := by
  unfold Parser.block
  exact .bind (.any _) fun _ _ => h.statements scope _ _

theorem ofFinishStatement (h : inner.Determines) (value : Expression) (known : value.Determined scope.persons) :
    Gives scope (Parser.finishStatement inner value) (Statement.Determined scope.persons) := by
  unfold Parser.finishStatement
  refine .bind (.any _) fun colon _ => ?_
  split
  · -- The subject was read before the block is entered.
    refine .within (.bind (.any _) fun _ _ => .bind (h.statements _ _ _) fun body inBody => .pure ?_)
    exact ⟨known, inBody⟩
  · split
    · exact .pure known
    · exact .throw _

theorem ofAssignment (h : inner.Determines) (target : NounPhrase) (owner : Option Expression)
    (atTarget : target.Determined scope.persons) (atOwner : valueDetermined scope.persons owner) :
    Gives scope (Parser.assignment inner target owner) (Statement.Determined scope.persons) := by
  unfold Parser.assignment
  exact .within (.bind (.any _) fun verb _ => .bind h.ofExpression fun value atValue => .pure ⟨atTarget, atOwner, atValue⟩)

/-- The determiner that a statement begins with is the one that was seen. -/
theorem ofNounStatement (h : inner.Determines) {s : State} {determiner : Token} {kind : Determiner}
    (seen : peek scope s = .ok (determiner, s)) (isKind : determiner.determiner? = some kind) :
    GivesFrom scope s (Parser.nounStatement inner kind) (Statement.Determined scope.persons) := by
  unfold Parser.nounStatement
  refine .take seen ?_
  split
  · exact .bind (.throw _) fun _ => False.elim
  · rename_i other
    refine .bind (.any _) fun noun _ => .bind (.any _) fun assigned _ => ?_
    split
    · exact .bind (.requireOwner other) fun _ mayStand => .bind (.determined isKind mayStand) fun target atTarget =>
        h.ofAssignment target .none atTarget trivial
    · refine .bind (h.ofNounExpression noun isKind) fun value atValue => ?_
      split
      · rename_i target owner
        refine .bind (.any _) fun assigned _ => ?_
        split
        · exact h.ofAssignment target (some owner) atValue.1 atValue.2
        · exact h.ofFinishStatement (.property target owner) atValue
      · exact h.ofFinishStatement value atValue

theorem ofBranch (h : inner.Determines) : Gives scope (Parser.branch inner) fun b => branchesDetermined scope.persons [b] := by
  unfold Parser.branch
  exact .bind h.ofExpression fun condition atCondition => .bind h.ofBlock fun body inBody =>
    .pure ⟨atCondition, inBody, trivial⟩

theorem ofAlternatives (h : inner.Determines) : Gives scope (Parser.alternatives inner) fun found =>
    branchesDetermined scope.persons found.1 ∧ otherwiseDetermined scope.persons found.2 := by
  unfold Parser.alternatives
  refine .bind (.any _) fun more _ => ?_
  split
  · refine .bind (.any _) fun _ _ => .bind (.any _) fun _ _ => .bind (.any _) fun conditional _ => ?_
    split
    · exact .bind h.ofBranch fun next atNext => .bind (h.alternatives scope) fun found atOthers =>
        .pure ⟨atNext.cons atOthers.1, atOthers.2⟩
    · exact .bind h.ofBlock fun body inBody => .pure ⟨trivial, inBody⟩
  · exact .pure ⟨trivial, trivial⟩

theorem ofConditional (h : inner.Determines) :
    Gives scope (Parser.conditional inner) (Statement.Determined scope.persons) := by
  unfold Parser.conditional
  refine .within (.bind (.any _) fun _ _ => .bind h.ofBranch fun first atFirst => ?_)
  exact .bind h.ofAlternatives fun found atOthers => .pure ⟨atFirst.cons atOthers.1, atOthers.2⟩

theorem ofWhileLoop (h : inner.Determines) : Gives scope (Parser.whileLoop inner) (Statement.Determined scope.persons) := by
  unfold Parser.whileLoop
  refine .within (.bind (.any _) fun _ _ => .bind h.ofExpression fun condition atCondition => ?_)
  exact .bind h.ofBlock fun body inBody => .pure ⟨atCondition, inBody⟩

theorem ofLoopSource (h : inner.Determines) : Gives scope (Parser.loopSource inner) (valueDetermined scope.persons) := by
  unfold Parser.loopSource
  refine .bind (.any _) fun token _ => ?_
  split
  · exact .bind (.any _) fun _ _ => .bind (h.expression scope 0) fun value atValue => .pure atValue
  · exact .pure trivial

/-- The binder of a loop is quantified, and nothing else is. -/
theorem ofForEach (h : inner.Determines) : Gives scope (Parser.forEach inner) (Statement.Determined scope.persons) := by
  unfold Parser.forEach
  refine .within (.bind (.any _) fun _ _ => .bind .expectDeterminer fun found isKind => ?_)
  obtain ⟨determiner, kind⟩ := found
  dsimp only at isKind ⊢
  split
  · exact .bind (.throw _) fun _ => False.elim
  · rename_i quantified
    have binders : ∀ noun, Gives { scope with around := .forEach :: scope.around } (nounPhrase (some determiner) noun)
        (NounPhrase.DeterminedAsBinder scope.persons) := by
      refine fun noun => .bind (.any _) fun id _ => .pure fun other isOther notQuantified => ?_
      obtain rfl : other = kind := Option.some.inj (isOther.symm.trans isKind)
      exact absurd notQuantified quantified
    refine .bind (.any _) fun noun _ => .bind (binders noun) fun binder atBinder => ?_
    exact .bind h.ofLoopSource fun source atSource => .bind h.ofBlock fun body inBody => .pure ⟨atBinder, atSource, inBody⟩

theorem ofGive (h : inner.Determines) : Gives scope (Parser.give inner) (Statement.Determined scope.persons) := by
  unfold Parser.give
  refine .within (.bind (.any _) fun token _ => .bind (.any _) fun _ _ => ?_)
  split
  · exact .pure trivial
  · exact .bind h.ofExpression fun value atValue => .bind (.any _) fun _ _ => .pure atValue

theorem ofLoopControl (control : LoopControl) :
    Gives scope (Parser.loopControl control) (Statement.Determined scope.persons) := by
  unfold Parser.loopControl
  exact .bind (.any _) fun token _ => .bind (.any _) fun _ _ => .pure trivial

theorem ofStatement (h : inner.Determines) : Gives scope (Parser.statement inner) (Statement.Determined scope.persons) := by
  unfold Parser.statement
  refine .look fun token s seen => ?_
  split
  · exact h.ofConditional.givesFrom
  · exact h.ofWhileLoop.givesFrom
  · exact h.ofForEach.givesFrom
  · exact h.ofGive.givesFrom
  · exact h.ofGive.givesFrom
  · exact (ofLoopControl _).givesFrom
  · exact (ofLoopControl _).givesFrom
  · exact .take seen (.bind (.any _) fun _ _ => .pure trivial)
  · exact .take seen (.throw _)
  · exact .take seen (.throw _)
  · exact .take seen (.throw _)
  · exact .take seen (.throw _)
  · exact .take seen (.throw _)
  · rename_i kind isDeterminer
    exact h.ofNounStatement seen (congrArg TokenKind.determiner? isDeterminer)
  · exact (Gives.bind h.ofExpression fun value atValue => h.ofFinishStatement value atValue).givesFrom

theorem ofStatements (h : inner.Determines) (close : TokenKind) (expected : String) :
    Gives scope (Parser.statements inner close expected) (blockDetermined scope.persons) := by
  unfold Parser.statements
  refine .bind (.any _) fun _ _ => .bind (.any _) fun closed _ => ?_
  split
  · exact .pure trivial
  · refine .bind (.any _) fun ended _ => ?_
    split
    · exact .bind (.unexpected _) fun _ => False.elim
    · exact .bind h.ofStatement fun first atFirst => .bind (.any _) fun _ _ =>
        .bind (h.statements scope close expected) fun later atLater => .pure ⟨atFirst, atLater⟩

end Parser.Inner.Determines

end Satzbau

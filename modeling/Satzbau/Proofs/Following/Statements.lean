import Satzbau.Proofs.Following.Expressions

namespace Satzbau.Parser

variable {R : List (Except Diagnostic Token) → List (Except Diagnostic Token) → Prop} {front : Token → Prop}

namespace Inner.Follows

variable {inner inner' : Inner}

theorem ofBlock (h : inner.Follows R inner') :
    Parser.Follows R front (Parser.block inner) (Parser.block inner') := by
  unfold Parser.block
  exact .bind (.expect h.matching (by simp) _) fun _ => h.statements .period _ (Or.inl rfl)

theorem ofFinishStatement (h : inner.Follows R inner') (value : Expression) :
    Parser.Follows R front (Parser.finishStatement inner value) (Parser.finishStatement inner' value) := by
  unfold Parser.finishStatement
  refine .bind (.at? h.matching _) fun found => ?_
  split
  · exact .within _ (.bind (.expect h.matching (by simp) _) fun _ =>
      .bind (h.statements .bang _ (Or.inr rfl)) fun body => .pure _)
  · cases value with
    | call c => exact .pure _
    | _ => exact .throw _

theorem ofAssignment (h : inner.Follows R inner') (other : ∀ token, front token → token.kind ≠ .keyword .declension)
    (target : NounPhrase) (owner : Option Expression) :
    Parser.Follows R front (Parser.assignment inner target owner) (Parser.assignment inner' target owner) := by
  unfold Parser.assignment
  exact .within _ (.bind (.advance h.matching other) fun verb => .bind (h.ofBinary 0) fun value => .pure _)

theorem ofNounStatement (h : inner.Follows R inner')
    (other : ∀ token, front token → token.kind ≠ .keyword .declension) (kind : Determiner) :
    Parser.Follows R front (Parser.nounStatement inner kind) (Parser.nounStatement inner' kind) := by
  unfold Parser.nounStatement
  refine .bind (.advance h.matching other) fun determiner => ?_
  split
  · exact .fail _
  · refine .bind (.expectNoun h.matching) fun noun => .look .atAssignment (.atAssignment h.matching) fun assigned => ?_
    split
    · rename_i there
      refine .look (.requireOwner determiner kind) (.requireOwner _ _) fun _ => .name fun target => ?_
      exact h.ofAssignment (fun _ known => other_of_assigns (known.1.2 there)) target Option.none
    · refine .bind (h.ofNounExpression determiner kind noun) fun value => ?_
      split
      · refine .look .atAssignment (.atAssignment h.matching) fun assigned => ?_
        split
        · rename_i there
          exact h.ofAssignment (fun _ known => other_of_assigns (known.2 there)) _ _
        · exact h.ofFinishStatement _
      · exact h.ofFinishStatement _

theorem ofBranch (h : inner.Follows R inner') :
    Parser.Follows R front (Parser.branch inner) (Parser.branch inner') := by
  unfold Parser.branch
  exact .bind (h.ofBinary 0) fun condition => .bind h.ofBlock fun body => .pure _

theorem ofAlternatives (h : inner.Follows R inner') :
    Parser.Follows R front (Parser.alternatives inner) (Parser.alternatives inner') := by
  unfold Parser.alternatives
  refine .bind (.atOtherwise h.matching) fun found => ?_
  split
  · refine .bind (.skipLineEnds h.matching) fun _ => .bind (.expect h.matching (by simp) _) fun _ => ?_
    refine .bind (.eat h.matching (by simp)) fun conditional => ?_
    split
    · exact .bind h.ofBranch fun next => .bind h.alternatives fun others => .pure _
    · exact .bind h.ofBlock fun body => .pure _
  · exact .pure _

theorem ofConditional (h : inner.Follows R inner') :
    Parser.Follows R front (Parser.conditional inner) (Parser.conditional inner') := by
  unfold Parser.conditional
  exact .within _ (.bind (.expect h.matching (by simp) _) fun token => .bind h.ofBranch fun first =>
    .bind h.ofAlternatives fun others => .pure _)

theorem ofWhileLoop (h : inner.Follows R inner') :
    Parser.Follows R front (Parser.whileLoop inner) (Parser.whileLoop inner') := by
  unfold Parser.whileLoop
  exact .within _ (.bind (.expect h.matching (by simp) _) fun token => .bind (h.ofBinary 0) fun condition =>
    .bind h.ofBlock fun body => .pure _)

theorem ofLoopSource (h : inner.Follows R inner') :
    Parser.Follows R front (Parser.loopSource inner) (Parser.loopSource inner') := by
  unfold Parser.loopSource
  refine .peek h.matching fun token token' alike => ?_
  obtain rfl | ⟨opens, opens'⟩ := alike
  · split
    · rename_i isIn
      exact .bind (.advanceAt h.matching (by simp [isIn.1])) fun _ => .bind (h.expression 0) fun source => .pure _
    · exact .pure _
  · rw [if_neg (by simp [opens]), if_neg (by simp [opens'])]
    exact .pure _

theorem ofForEach (h : inner.Follows R inner') :
    Parser.Follows R front (Parser.forEach inner) (Parser.forEach inner') := by
  unfold Parser.forEach
  refine .within _ (.bind (.expect h.matching (by simp) _) fun token => .bind (.expectDeterminer h.matching) fun found => ?_)
  obtain ⟨determiner, kind⟩ := found
  dsimp only
  split
  · exact .fail _
  · exact .bind (.expectNoun h.matching) fun noun => .bind (.nounPhrase _ _) fun binder =>
      .bind h.ofLoopSource fun source => .bind h.ofBlock fun body => .pure _

theorem ofGive (h : inner.Follows R inner') (other : ∀ token, front token → token.kind ≠ .keyword .declension) :
    Parser.Follows R front (Parser.give inner) (Parser.give inner') := by
  unfold Parser.give
  refine .within _ (.bind (.advance h.matching other) fun token => .bind (.require _ _ _) fun _ => ?_)
  split
  · exact .pure _
  · exact .bind (h.ofBinary 0) fun value => .bind (.expect h.matching (by simp) _) fun _ => .pure _

theorem ofLoopControl (h : inner.Follows R inner') (other : ∀ token, front token → token.kind ≠ .keyword .declension)
    (control : LoopControl) :
    Parser.Follows R front (Parser.loopControl control) (Parser.loopControl control) := by
  unfold Parser.loopControl
  exact .bind (.advance h.matching other) fun token => .bind (.require _ _ _) fun _ => .pure _

/-- A definition within a block is refused. -/
theorem misplaced {required : String} {q : Parser Statement} :
    Parser.Follows R front (do Parser.misplaced (← advance) required) q := by
  intro scope s items' a t _ _ run
  obtain ⟨_, _, _, thrown⟩ := bind_eq_ok run
  contradiction

theorem ofStatement (h : inner.Follows R inner') :
    Parser.Follows R front (Parser.statement inner) (Parser.statement inner') := by
  unfold Parser.statement
  refine .peek h.matching fun token token' alike => ?_
  have other (kind : token.kind ≠ .keyword .declension) :
      ∀ seen, front seen ∧ seen = token → seen.kind ≠ .keyword .declension :=
    fun _ known => known.2 ▸ kind
  rw [← alike.kind]
  split
  · exact h.ofConditional
  · exact h.ofWhileLoop
  · exact h.ofForEach
  · rename_i kind
    exact h.ofGive (other (by simp [kind]))
  · rename_i kind
    exact h.ofGive (other (by simp [kind]))
  · rename_i kind
    exact h.ofLoopControl (other (by simp [kind])) _
  · rename_i kind
    exact h.ofLoopControl (other (by simp [kind])) _
  · rename_i kind
    exact .bind (.advanceAt h.matching (by simp [kind])) fun token => .bind (.require _ _ _) fun _ => .pure _
  · exact misplaced
  · exact misplaced
  · exact misplaced
  · exact misplaced
  · exact misplaced
  · rename_i kind
    exact h.ofNounStatement (other (by simp [kind])) _
  · exact .bind (h.ofBinary 0) fun value => h.ofFinishStatement value

theorem ofStatements (h : inner.Follows R inner') {close : TokenKind} (closes : close = .period ∨ close = .bang)
    (expected : String) :
    Parser.Follows R front (Parser.statements inner close expected) (Parser.statements inner' close expected) := by
  have other : close ≠ .keyword .declension := by
    rcases closes with rfl | rfl <;> simp
  unfold Parser.statements
  refine .bind (.skipLineEnds h.matching) fun _ => .bind (.eat h.matching other) fun closed => ?_
  split
  · exact .pure _
  · refine .bind (.at? h.matching _) fun ended => ?_
    split
    · exact .unexpectedThen
    · exact .bind h.ofStatement fun first => .bind (.endStatement h.matching close) fun _ =>
        .bind (h.statements close expected closes) fun others => .pure _

end Inner.Follows

end Satzbau.Parser

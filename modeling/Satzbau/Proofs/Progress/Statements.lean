import Satzbau.Proofs.Progress.Expressions

namespace Satzbau.Parser.Inner.InStep

variable {limit : Nat} {uses : Bool} {front : Token → Prop} {inner inner' : Inner}

theorem ofBlock (h : inner.InStep limit inner') :
    Parser.InStep (limit + 1) uses front (Parser.block inner) (Parser.block inner') := by
  unfold Parser.block
  exact .after (.expect (by simp) _) fun _ => h.statements _ (by simp)

theorem ofFinishStatement (h : inner.InStep limit inner') (value : Expression) :
    Parser.InStep (limit + 1) false front (Parser.finishStatement inner value) (Parser.finishStatement inner' value) := by
  unfold Parser.finishStatement
  refine .look (.at? _) fun found => ?_
  split
  · exact .within _ (.after (.expect (by simp) _) fun _ => .bind (h.statements _ (by simp)) fun body => .pure _)
  · cases value with
    | call c => exact .pure _
    | _ => exact .throw _

theorem ofAssignment (h : inner.InStep limit inner') (inside : ∀ token, front token → token.kind ≠ .fileEnd)
    (target : NounPhrase) (owner : Option Expression) :
    Parser.InStep (limit + 1) uses front (Parser.assignment inner target owner)
      (Parser.assignment inner' target owner) := by
  unfold Parser.assignment
  exact .within _ (.take (.advance inside) fun verb => .bind (h.ofBinary 0) fun value => .pure _)

theorem ofNounStatement (h : inner.InStep limit inner') (inside : ∀ token, front token → token.kind ≠ .fileEnd)
    (kind : Determiner) :
    Parser.InStep (limit + 1) uses front (Parser.nounStatement inner kind) (Parser.nounStatement inner' kind) := by
  unfold Parser.nounStatement
  refine .take (.advance inside) fun determiner => ?_
  split
  · exact .fail _
  · refine .bind .expectNoun fun noun => .look .atAssignment fun assigned => ?_
    split
    · rename_i there
      refine .look (.requireOwner determiner kind) fun _ => .name fun id => ?_
      exact h.ofAssignment (fun _ isSeen => Keeps.inside_of_assigns (isSeen.1.2 there)) _ _
    · refine .bind (h.ofNounExpression _ _ _) fun value => ?_
      split
      · refine .look .atAssignment fun assigned => ?_
        split
        · rename_i there
          exact h.ofAssignment (fun _ isSeen => Keeps.inside_of_assigns (isSeen.2 there)) _ _
        · exact h.ofFinishStatement _
      · exact h.ofFinishStatement _

theorem ofBranch (h : inner.InStep limit inner') :
    Parser.InStep (limit + 1) uses front (Parser.branch inner) (Parser.branch inner') := by
  unfold Parser.branch
  exact .take (h.ofBinary 0) fun condition => .bind h.ofBlock fun body => .pure _

theorem ofAlternatives (h : inner.InStep limit inner') :
    Parser.InStep (limit + 1) false front (Parser.alternatives inner) (Parser.alternatives inner') := by
  unfold Parser.alternatives
  refine .look .atOtherwise fun found => ?_
  split
  · refine .bind .skipLineEnds fun _ => .take (.expect (by simp) _) fun _ => .eat (by simp) (Nat.le_succ _) ?_ ?_
    · exact .after h.ofBranch fun next => .bind h.alternatives fun others => .pure _
    · exact .bind h.ofBlock fun body => .pure _
  · exact .pure _

theorem ofConditional (h : inner.InStep limit inner') :
    Parser.InStep (limit + 1) uses front (Parser.conditional inner) (Parser.conditional inner') := by
  unfold Parser.conditional
  exact .within _ (.take (.expect (by simp) _) fun token => .bind h.ofBranch fun first =>
    .bind h.ofAlternatives fun others => .pure _)

theorem ofWhileLoop (h : inner.InStep limit inner') :
    Parser.InStep (limit + 1) uses front (Parser.whileLoop inner) (Parser.whileLoop inner') := by
  unfold Parser.whileLoop
  exact .within _ (.take (.expect (by simp) _) fun token => .bind (h.ofBinary 0) fun condition =>
    .bind h.ofBlock fun body => .pure _)

theorem ofLoopSource (h : inner.InStep limit inner') :
    Parser.InStep (limit + 1) false front (Parser.loopSource inner) (Parser.loopSource inner') := by
  unfold Parser.loopSource
  refine .look .peek fun token => ?_
  split
  · rename_i isIn
    exact .after (.advanceAt (by simp [isIn.1])) fun _ => .bind (h.expression 0) fun source => .pure _
  · exact .pure _

theorem ofForEach (h : inner.InStep limit inner') :
    Parser.InStep (limit + 1) uses front (Parser.forEach inner) (Parser.forEach inner') := by
  unfold Parser.forEach
  refine .within _ (.take (.expect (by simp) _) fun token => .bind .expectDeterminer fun found => ?_)
  obtain ⟨determiner, kind⟩ := found
  dsimp only
  split
  · exact .fail _
  · exact .bind .expectNoun fun noun => .bind (.nounPhrase _ _) fun binder => .bind h.ofLoopSource fun source =>
      .bind h.ofBlock fun body => .pure _

theorem ofGive (h : inner.InStep limit inner') (inside : ∀ token, front token → token.kind ≠ .fileEnd) :
    Parser.InStep (limit + 1) uses front (Parser.give inner) (Parser.give inner') := by
  unfold Parser.give
  refine .within _ (.take (.advance inside) fun token => .look (.require _ _ _) fun _ => ?_)
  split
  · exact .pure _
  · exact .bind (h.ofBinary 0) fun value => .bind (.expect (by simp) _) fun _ => .pure _

theorem ofLoopControl (inside : ∀ token, front token → token.kind ≠ .fileEnd) (control : LoopControl) :
    Parser.InStep limit uses front (Parser.loopControl control) (Parser.loopControl control) := by
  unfold Parser.loopControl
  exact .take (.advance inside) fun token => .look (.require _ _ _) fun _ => .pure _

theorem ofStatement (h : inner.InStep limit inner') :
    Parser.InStep (limit + 1) uses front (Parser.statement inner) (Parser.statement inner') := by
  unfold Parser.statement
  refine .look .peek fun token => ?_
  have inside (other : token.kind ≠ .fileEnd) : ∀ seen, front seen ∧ seen = token → seen.kind ≠ .fileEnd :=
    fun _ isSeen => isSeen.2 ▸ other
  split
  · exact h.ofConditional
  · exact h.ofWhileLoop
  · exact h.ofForEach
  · rename_i kind
    exact h.ofGive (inside (by simp [kind]))
  · rename_i kind
    exact h.ofGive (inside (by simp [kind]))
  · rename_i kind
    exact ofLoopControl (inside (by simp [kind])) _
  · rename_i kind
    exact ofLoopControl (inside (by simp [kind])) _
  · rename_i kind
    exact .take (.advanceAt (by simp [kind])) fun token => .look (.require _ _ _) fun _ => .pure _
  · rename_i kind
    exact .take (.advanceAt (by simp [kind])) fun token => .throw _
  · rename_i kind
    exact .take (.advanceAt (by simp [kind])) fun token => .throw _
  · rename_i kind
    exact .take (.advanceAt (by simp [kind])) fun token => .throw _
  · rename_i kind
    exact .take (.advanceAt (by simp [kind])) fun token => .throw _
  · rename_i kind
    exact .take (.advanceAt (by simp [kind])) fun token => .throw _
  · rename_i kind
    exact h.ofNounStatement (inside (by simp [kind])) _
  · exact .take (h.ofBinary 0) fun value => h.ofFinishStatement _

theorem ofStatements (h : inner.InStep limit inner') {close : TokenKind} (expected : String) (other : close ≠ .fileEnd) :
    Parser.InStep (limit + 1) false front (Parser.statements inner close expected)
      (Parser.statements inner' close expected) := by
  unfold Parser.statements
  refine .bind .skipLineEnds fun _ => .eat other (Nat.le_refl _) (.pure _) (.look (.at? _) fun ended => ?_)
  split
  · exact .unexpectedThen
  · exact .after h.ofStatement fun first => .bind (.endStatement close) fun _ =>
      .bind (h.statements expected other) fun others => .pure _

end Satzbau.Parser.Inner.InStep

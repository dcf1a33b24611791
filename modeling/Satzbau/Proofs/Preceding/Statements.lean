import Satzbau.Proofs.Parsing.ExtendedStatements
import Satzbau.Proofs.Parsing.NumberedStatements
import Satzbau.Proofs.Preceding.Expressions

namespace Satzbau.Parser

variable {α : Type} {E : Endings} {limit : Nat} {uses : Bool} {reach : Reach} {front : Token → Prop} {known : Prop}
  {good : α → Prop}

theorem atOtherwise_inside {scope : Scope} {s : State} {token : Token} (seen : peek scope s = .ok (token, s))
    (inside : token.kind ≠ .lineEnd) : atOtherwise scope s = .ok (token.isKeyword .otherwise, s) := by
  unfold atOtherwise
  rw [bind_ok seen, if_neg inside]
  cases token.isKeyword .otherwise <;> rfl

theorem atOtherwise_lineEnd {scope : Scope} {s : State} {token : Token} (seen : peek scope s = .ok (token, s))
    (kind : token.kind = .lineEnd) :
    atOtherwise scope s = (do return (← peekSecond).isKeyword .otherwise : Parser Bool) scope s := by
  unfold atOtherwise
  rw [bind_ok seen, if_neg (by simp [Token.isKeyword, kind]), if_pos kind]

/-- A look for `sonst`, when only the end of a line may stand in front of what is late. -/
theorem Endings.Ends.atOtherwise {around : List Construct} {s : State} (behind : E.Behind true s.items) :
    E.Ends .atEnd (fun _ => True) (atOtherwise ⟨around, E.last⟩ s) := by
  have atLineEnd {token : Token} (seen : Parser.peek ⟨around, E.last⟩ s = .ok (token, s)) (kind : token.kind = .lineEnd) :
      E.Ends .atEnd (fun _ => True) (Parser.atOtherwise ⟨around, E.last⟩ s) := by
    rw [atOtherwise_lineEnd seen kind]
    exact (@Ends.peekSecond E around s .atEnd true behind id).bind fun _ _ _ _ behind' => .ok behind' trivial
  obtain ⟨items, id⟩ := s
  cases behind with
  | pending kind _ => exact atLineEnd rfl kind
  | late late =>
    have looked := @Ends.peek E around ⟨items, id⟩ .line late
    cases outcome : Parser.peek ⟨around, E.last⟩ ⟨items, id⟩ with
    | ok step =>
      obtain ⟨token, t⟩ := step
      obtain ⟨rfl, _⟩ := peek_eq_ok outcome
      by_cases kind : token.kind = .lineEnd
      · exact atLineEnd outcome kind
      · rw [atOtherwise_inside outcome kind]
        exact .ok (.late late) trivial
    | error fault =>
      exact looked.bind fun token t seen => nomatch outcome.symm.trans seen

/-- Whether `sonst` stands on the next line is known only from the next line. -/
theorem Decides.atOtherwise {f g : Bool → Parser α}
    (next : ∀ found, Decides E limit uses true .atEnd (fun _ => True) True (f found) (g found) good) :
    Decides E limit uses false .atEnd front known (atOtherwise >>= f) (atOtherwise >>= g) good := by
  have onwards {around : List Construct} {s : State} (behind : E.Behind true s.items) :
      E.Ends .atEnd good ((Parser.atOtherwise >>= f) ⟨around, E.last⟩ s) := by
    refine (@Endings.Ends.atOtherwise E around s behind).bind fun found t outcome _ _ => ?_
    obtain ⟨rfl, _⟩ := Looks.atOtherwise _ _ _ _ outcome
    exact (next found).behind around t trivial behind fun _ _ => trivial
  constructor
  · intro around s _ behind _
    exact onwards (behind.pass nofun)
  · intro around items id isFront short _
    -- The same is seen in both cases, if all of it stands in the front part.
    have same {found : Bool} (outcome : Parser.atOtherwise ⟨around, E.last⟩ ⟨items ++ E.items, id⟩ =
          .ok (found, ⟨items ++ E.items, id⟩))
        (outcome' : Parser.atOtherwise ⟨around, E.last'⟩ ⟨items ++ E.items', id⟩ = .ok (found, ⟨items ++ E.items', id⟩)) :
        E.Agrees uses .atEnd items ((Parser.atOtherwise >>= f) ⟨around, E.last⟩ ⟨items ++ E.items, id⟩)
          ((Parser.atOtherwise >>= g) ⟨around, E.last'⟩ ⟨items ++ E.items', id⟩) := by
      rw [bind_ok outcome, bind_ok outcome']
      exact (next found).before around items id isFront short fun _ _ => trivial
    match items with
    | [] => exact absurd rfl isFront.nonempty
    | .error fault :: _ => exact .error
    | .ok token :: later =>
      by_cases kind : token.kind = .lineEnd
      · have atLineEnd := @atOtherwise_lineEnd ⟨around, E.last⟩ ⟨.ok token :: later ++ E.items, id⟩ token rfl kind
        have atLineEnd' := @atOtherwise_lineEnd ⟨around, E.last'⟩ ⟨.ok token :: later ++ E.items', id⟩ token rfl kind
        match later with
        | [] => exact (onwards (.pending kind E.itemsLate)).agrees nofun
        | .error fault :: _ =>
          rw [bind_error atLineEnd, bind_error atLineEnd']
          exact .error
        | .ok second :: _ => exact same atLineEnd atLineEnd'
      · exact same (atOtherwise_inside rfl kind) (atOtherwise_inside rfl kind)

namespace Decides

theorem atAssignment : Decides E limit false false reach front known atAssignment atAssignment fun _ => True := by
  unfold Parser.atAssignment
  refine bind peek fun token => ?_
  split
  · exact pure fun _ => trivial
  · exact pure fun _ => trivial
  · exact pure fun _ => trivial

end Decides

namespace Inner.Decides

variable {inner inner' : Inner}

theorem ofBlock (h : inner.Decides E limit inner') :
    Parser.Decides E (limit + 1) uses false .past front known (Parser.block inner) (Parser.block inner') fun _ => True := by
  unfold Parser.block
  exact .after (.expect (by simp) _) fun _ => h.statements _ (by simp)

theorem ofFinishStatement (h : inner.Decides E limit inner') {value : Expression} (begins : known → E.BeginsLate value) :
    Parser.Decides E (limit + 1) false false .atEnd front known (Parser.finishStatement inner value)
      (Parser.finishStatement inner' value) fun _ => True := by
  unfold Parser.finishStatement
  refine .bind (.at? _) fun found => ?_
  split
  · exact .within _ (.after (.expect (by simp) _) fun _ => .cross (h.statements _ (by simp)) (fun body =>
      .pure fun _ => trivial) nofun)
  · cases value with
    | call c => exact .pure fun _ => trivial
    | _ => exact .throw (fun isKnown => begins isKnown.1) rfl

theorem ofAssignment (h : inner.Decides E limit inner') (inside : ∀ token, front token → token.kind ≠ .lineEnd)
    (target : NounPhrase) (owner : Option Expression) :
    Parser.Decides E (limit + 1) false false reach front known (Parser.assignment inner target owner)
      (Parser.assignment inner' target owner) fun _ => True := by
  unfold Parser.assignment
  exact .within _ (.bind (.advance inside) fun verb => .bind (h.ofBinary 0) fun value => .pure fun _ => trivial)

theorem ofNounStatement (h : inner.Decides E limit inner') (inside : ∀ token, front token → token.kind ≠ .lineEnd)
    (kind : Determiner) :
    Parser.Decides E (limit + 1) uses false .atEnd front known (Parser.nounStatement inner kind)
      (Parser.nounStatement inner' kind) fun _ => True := by
  unfold Parser.nounStatement
  refine .take (.advance inside) fun determiner => ?_
  split
  · exact .fail And.right rfl
  · refine .bind .expectNoun fun noun => .look .atAssignment .atAssignment fun assigned => ?_
    split
    · rename_i there
      refine .look (.requireOwner determiner kind) (.requireOwner _ fun isKnown => isKnown.1.1.2) fun _ => .name fun id => ?_
      exact h.ofAssignment (fun _ isSeen => inside_of_assigns (isSeen.1.2 there)) _ _
    · refine .bind (h.ofNounExpression _ _ fun isKnown => isKnown.1.1.2) fun value => ?_
      split
      · refine .look .atAssignment .atAssignment fun assigned => ?_
        split
        · rename_i there
          exact h.ofAssignment (fun _ isSeen => inside_of_assigns (isSeen.2 there)) _ _
        · exact h.ofFinishStatement fun isKnown => isKnown.1.2
      · exact h.ofFinishStatement And.right

theorem ofBranch (h : inner.Decides E limit inner') :
    Parser.Decides E (limit + 1) uses false .past front known (Parser.branch inner) (Parser.branch inner')
      fun _ => True := by
  unfold Parser.branch
  exact .take (h.ofBinary 0) fun condition => .cross h.ofBlock (fun body => .pure fun _ => trivial) nofun

theorem ofAlternatives (h : inner.Decides E limit inner') :
    Parser.Decides E (limit + 1) false false .atEnd front known (Parser.alternatives inner) (Parser.alternatives inner')
      fun _ => True := by
  unfold Parser.alternatives
  refine .atOtherwise fun found => ?_
  split
  · refine .skipLineEnds (.bind (.expect (by simp) _) fun _ => .eat (by simp) (Nat.le_succ _) ?_ ?_) nofun
    · exact .crossAfter h.ofBranch (fun next => .cross h.alternatives (fun others => .rest) nofun) nofun
    · exact .cross h.ofBlock (fun body => .rest) nofun
  · exact .rest

theorem ofConditional (h : inner.Decides E limit inner') :
    Parser.Decides E (limit + 1) uses false .atEnd front known (Parser.conditional inner) (Parser.conditional inner')
      fun _ => True := by
  unfold Parser.conditional
  exact .within _ (.take (.expect (by simp) _) fun token => .cross h.ofBranch (fun first =>
    .cross h.ofAlternatives (fun others => .rest) nofun) nofun)

theorem ofWhileLoop (h : inner.Decides E limit inner') :
    Parser.Decides E (limit + 1) uses false .atEnd front known (Parser.whileLoop inner) (Parser.whileLoop inner')
      fun _ => True := by
  unfold Parser.whileLoop
  exact .within _ (.take (.expect (by simp) _) fun token => .bind (h.ofBinary 0) fun condition =>
    .cross h.ofBlock (fun body => .pure fun _ => trivial) nofun)

theorem ofLoopSource (h : inner.Decides E limit inner') :
    Parser.Decides E (limit + 1) false false .line front known (Parser.loopSource inner) (Parser.loopSource inner')
      fun _ => True := by
  unfold Parser.loopSource
  refine .look .peek .peek fun token => ?_
  split
  · rename_i isIn
    exact .after (.advanceAt (by simp [isIn.1])) fun _ => .bind (h.expression 0) fun source => .pure fun _ => trivial
  · exact .pure fun _ => trivial

theorem ofForEach (h : inner.Decides E limit inner') :
    Parser.Decides E (limit + 1) uses false .atEnd front known (Parser.forEach inner) (Parser.forEach inner')
      fun _ => True := by
  unfold Parser.forEach
  refine .within _ (.take (.expect (by simp) _) fun token => .bind .expectDeterminer fun found => ?_)
  obtain ⟨determiner, kind⟩ := found
  dsimp only
  split
  · exact .fail And.right rfl
  · exact .bind .expectNoun fun noun => .bind (.nounPhrase _ _) fun binder => .bind h.ofLoopSource fun source =>
      .cross h.ofBlock (fun body => .pure fun _ => trivial) nofun

theorem ofGive (h : inner.Decides E limit inner') (inside : ∀ token, front token → token.kind ≠ .lineEnd) :
    Parser.Decides E (limit + 1) uses false .atEnd front known (Parser.give inner) (Parser.give inner') fun _ => True := by
  unfold Parser.give
  refine .within _ (.take (.advance inside) fun token => .bind (.require _ _ And.right) fun _ => ?_)
  split
  · exact .pure fun _ => trivial
  · exact .bind (h.ofBinary 0) fun value => .bind (.expect (by simp) _) fun _ => .pure fun _ => trivial

theorem ofLoopControl (inside : ∀ token, front token → token.kind ≠ .lineEnd) (control : LoopControl) :
    Parser.Decides E limit uses false .atEnd front known (Parser.loopControl control) (Parser.loopControl control)
      fun _ => True := by
  unfold Parser.loopControl
  exact .take (.advance inside) fun token => .bind (.require _ _ And.right) fun _ => .pure fun _ => trivial

theorem ofStatement (h : inner.Decides E limit inner') :
    Parser.Decides E (limit + 1) uses false .atEnd front known (Parser.statement inner) (Parser.statement inner')
      fun _ => True := by
  unfold Parser.statement
  refine .look .peek .peek fun token => ?_
  have inside (notLineEnd : token.kind ≠ .lineEnd) : ∀ other, front other ∧ other = token → other.kind ≠ .lineEnd :=
    fun _ isSeen => isSeen.2 ▸ notLineEnd
  split
  · exact h.ofConditional
  · exact h.ofWhileLoop
  · exact h.ofForEach
  · rename_i kind
    exact h.ofGive (inside (by simp [kind]))
  · rename_i kind
    exact h.ofGive (inside (by simp [kind]))
  · rename_i kind
    exact ofLoopControl (inside (by simp [kind])) _
  · rename_i kind
    exact ofLoopControl (inside (by simp [kind])) _
  · rename_i kind
    exact .take (.advanceAt (by simp [kind])) fun token => .bind (.require _ _ And.right) fun _ => .pure fun _ => trivial
  · rename_i kind
    exact .take (.advanceAt (by simp [kind])) fun token => .throw And.right rfl
  · rename_i kind
    exact .take (.advanceAt (by simp [kind])) fun token => .throw And.right rfl
  · rename_i kind
    exact .take (.advanceAt (by simp [kind])) fun token => .throw And.right rfl
  · rename_i kind
    exact .take (.advanceAt (by simp [kind])) fun token => .throw And.right rfl
  · rename_i kind
    exact .take (.advanceAt (by simp [kind])) fun token => .throw And.right rfl
  · rename_i kind
    exact h.ofNounStatement (inside (by simp [kind])) _
  · exact .take (h.ofBinary 0) fun value => h.ofFinishStatement And.right

theorem ofStatements (h : inner.Decides E limit inner') {close : TokenKind} (expected : String) (inside : close ≠ .lineEnd) :
    Parser.Decides E (limit + 1) false false .past front known (Parser.statements inner close expected)
      (Parser.statements inner' close expected) fun _ => True := by
  unfold Parser.statements
  refine .skipLineEnds (.eat inside (Nat.le_refl _) (.pure fun _ => trivial) (.bind (.at? _) fun ended => ?_)) nofun
  split
  · exact .unexpectedThen
  · exact .crossAfter h.ofStatement (fun first => .cross (.endStatement close) (fun _ =>
      .cross (h.statements expected inside) (fun others => .pure fun _ => trivial) nofun) nofun) nofun

end Inner.Decides

end Satzbau.Parser

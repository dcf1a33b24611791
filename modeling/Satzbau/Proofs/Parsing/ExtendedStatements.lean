import Satzbau.Proofs.Parsing.ExtendedExpressions

namespace Satzbau.Parser

variable {α β : Type} {more : List (Except Diagnostic Token)} {last : Token} {front : Token → Prop}

/-- Whether some items with a last token behind them begin with a token that does not go on with a conditional. -/
def StartsAfresh (last : Token) : List (Except Diagnostic Token) → Prop
  | [] => last.isKeyword .otherwise = false
  | item :: _ => ∃ token, item = .ok token ∧ token.isKeyword .otherwise = false

namespace Starves

theorem bind {p : Parser β} {f : β → Parser α} (starves : Starves p) : Starves (p >>= f) := by
  intro scope s a t atEnd empty run
  obtain ⟨b, middle, runFirst, _⟩ := bind_eq_ok run
  exact starves scope s b middle atEnd empty runFirst

theorem peek_eq_ok {scope : Scope} {s t : State} {token : Token} (empty : s.items = [])
    (run : peek scope s = .ok (token, t)) : token = scope.fileEnd ∧ t = s := by
  unfold peek at run
  rw [empty] at run
  cases run
  exact ⟨rfl, rfl⟩

/-- Something that depends on the token at the front starves if it does so at the end of the input. -/
theorem peek {f : Token → Parser α} (next : ∀ token, token.kind = .fileEnd → Starves (f token)) :
    Starves (Parser.peek >>= f) := by
  intro scope s a t atEnd empty run
  obtain ⟨token, middle, seen, rest⟩ := bind_eq_ok run
  obtain ⟨rfl, rfl⟩ := peek_eq_ok empty seen
  exact next _ atEnd scope middle a t atEnd empty rest

theorem at? {kind : TokenKind} {f : Bool → Parser α} (next : Starves (f (TokenKind.fileEnd == kind))) :
    Starves (at? kind >>= f) := by
  intro scope s a t atEnd empty run
  obtain ⟨found, middle, looked, rest⟩ := bind_eq_ok run
  obtain ⟨token, _, seen, returned⟩ := bind_eq_ok looked
  obtain ⟨rfl, rfl⟩ := peek_eq_ok empty seen
  cases returned
  rw [atEnd] at rest
  exact next scope middle a t atEnd empty rest

theorem eat {kind : TokenKind} {f : Bool → Parser α} (other : (TokenKind.fileEnd == kind) = false)
    (next : Starves (f false)) : Starves (eat kind >>= f) := by
  intro scope s a t atEnd empty run
  obtain ⟨found, middle, eaten, rest⟩ := bind_eq_ok run
  obtain ⟨answer, _, looked, decided⟩ := bind_eq_ok eaten
  obtain ⟨token, _, seen, returned⟩ := bind_eq_ok looked
  obtain ⟨rfl, rfl⟩ := peek_eq_ok empty seen
  cases returned
  rw [atEnd, other] at decided
  cases decided
  exact next scope middle a t atEnd empty rest

theorem expect {kind : TokenKind} (other : (TokenKind.fileEnd == kind) = false) (expected : String) :
    Starves (expect kind expected) := by
  unfold Parser.expect
  refine at? ?_
  rw [other]
  exact unexpected expected

theorem skipLineEnds {f : Unit → Parser α} (next : Starves (f ())) : Starves (skipLineEnds >>= f) := by
  intro scope s a t atEnd empty run
  obtain ⟨_, middle, skip, rest⟩ := bind_eq_ok run
  obtain ⟨rfl, _⟩ := skipLineEnds_eq_ok skip
  refine next scope s.skipped a t atEnd ?_ rest
  rw [State.skipped, empty]
  rfl

end Starves

namespace Extends

theorem atAssignment : Extends more last front atAssignment atAssignment := by
  unfold Parser.atAssignment
  refine bind peek fun token => ?_
  split
  · exact pure _
  · exact pure _
  · exact pure _

/-- Neither the end of the input nor what stands there instead is `sonst`. -/
theorem otherwiseBehind (afresh : StartsAfresh last more) :
    Extends more last front (do return (← Parser.peekSecond).isKeyword .otherwise)
      (do return (← Parser.peekSecond).isKeyword .otherwise) := by
  intro scope s found t close atEnd closed _ run
  obtain ⟨second, middle, looked, returned⟩ := bind_eq_ok run
  cases returned
  unfold Parser.peekSecond at looked
  split at looked
  · rename_i empty
    exact absurd empty closed.nonempty
  · rename_i single
    cases looked
    obtain ⟨second, read, other⟩ : ∃ second, Parser.peekSecond (scope.endingWith last) (s.append more) =
        .ok (second, s.append more) ∧ second.isKeyword .otherwise = false := by
      unfold Parser.peekSecond State.append
      cases more with
      | nil => exact ⟨last, by simp only [single, List.append_nil]; rfl, afresh⟩
      | cons item later =>
        obtain ⟨second, rfl, other⟩ := afresh
        exact ⟨second, by simp only [single, List.cons_append, List.nil_append], other⟩
    rw [bind_ok read, other]
    simp only [Token.isKeyword, atEnd]
    exact ⟨closed, rfl⟩
  · contradiction
  · contradiction
  · rename_i items
    cases looked
    have read : Parser.peekSecond (scope.endingWith last) (s.append more) = .ok (second, s.append more) := by
      unfold Parser.peekSecond State.append
      simp only [items, List.cons_append]
    rw [bind_ok read]
    exact ⟨closed, rfl⟩

theorem atOtherwise (afresh : StartsAfresh last more) : Extends more last front atOtherwise atOtherwise := by
  unfold Parser.atOtherwise
  refine bind peek fun token => ?_
  split
  · exact pure _
  · split
    · exact otherwiseBehind afresh
    · exact pure _

end Extends

namespace Inner.Extends

variable {inner inner' : Inner}

theorem ofBlock (h : inner.Extends more last inner') :
    Parser.Extends more last front (Parser.block inner) (Parser.block inner') := by
  unfold Parser.block
  exact .bind (.expect (by simp) _) fun _ => (h.statements .period _ (Or.inl rfl)).1

theorem ofFinishStatement (h : inner.Extends more last inner') (value : Expression) :
    Parser.Extends more last front (Parser.finishStatement inner value) (Parser.finishStatement inner' value) := by
  unfold Parser.finishStatement
  refine .bind (.at? _) fun found => ?_
  split
  · exact .within _ (.bind (.expect (by simp) _) fun _ =>
      .bind (h.statements .bang _ (Or.inr rfl)).1 fun body => .pure _)
  · cases value with
    | call c => exact .pure _
    | _ => exact .throw _

theorem ofAssignment (h : inner.Extends more last inner') (inside : ∀ token, front token → token.kind ≠ .lineEnd)
    (target : NounPhrase) (owner : Option Expression) :
    Parser.Extends more last front (Parser.assignment inner target owner) (Parser.assignment inner' target owner) := by
  unfold Parser.assignment
  exact .within _ (.bind (.advance inside) fun verb => .bind (h.ofBinary 0) fun value => .pure _)

theorem ofNounStatement (h : inner.Extends more last inner') (inside : ∀ token, front token → token.kind ≠ .lineEnd)
    (kind : Determiner) :
    Parser.Extends more last front (Parser.nounStatement inner kind) (Parser.nounStatement inner' kind) := by
  unfold Parser.nounStatement
  refine .bind (.advance inside) fun determiner => ?_
  split
  · exact .fail _
  · refine .bind .expectNoun fun noun => .look .atAssignment .atAssignment fun assigned => ?_
    split
    · rename_i there
      refine .look (.requireOwner determiner kind) (.requireOwner _ _) fun _ => .name fun target => ?_
      exact h.ofAssignment (fun _ known => inside_of_assigns (known.1.2 there)) target Option.none
    · refine .bind (h.ofNounExpression determiner kind noun) fun value => ?_
      split
      · refine .look .atAssignment .atAssignment fun assigned => ?_
        split
        · rename_i there
          exact h.ofAssignment (fun _ known => inside_of_assigns (known.2 there)) _ _
        · exact h.ofFinishStatement _
      · exact h.ofFinishStatement _

theorem ofBranch (h : inner.Extends more last inner') :
    Parser.Extends more last front (Parser.branch inner) (Parser.branch inner') := by
  unfold Parser.branch
  exact .bind (h.ofBinary 0) fun condition => .bind h.ofBlock fun body => .pure _

theorem ofAlternatives (h : inner.Extends more last inner') (afresh : StartsAfresh last more) :
    Parser.Extends more last front (Parser.alternatives inner) (Parser.alternatives inner') := by
  unfold Parser.alternatives
  refine .bind (.atOtherwise afresh) fun found => ?_
  split
  · refine .skipLineEnds (.bind (.expect (by decide) _)) (.bind (.expect (by simp) _) fun _ => ?_)
    refine .bind (.eat (by simp)) fun conditional => ?_
    split
    · exact .bind h.ofBranch fun next => .bind h.alternatives fun others => .pure _
    · exact .bind h.ofBlock fun body => .pure _
  · exact .pure _

theorem ofConditional (h : inner.Extends more last inner') (afresh : StartsAfresh last more) :
    Parser.Extends more last front (Parser.conditional inner) (Parser.conditional inner') := by
  unfold Parser.conditional
  exact .within _ (.bind (.expect (by simp) _) fun token => .bind h.ofBranch fun first =>
    .bind (h.ofAlternatives afresh) fun others => .pure _)

theorem ofWhileLoop (h : inner.Extends more last inner') :
    Parser.Extends more last front (Parser.whileLoop inner) (Parser.whileLoop inner') := by
  unfold Parser.whileLoop
  exact .within _ (.bind (.expect (by simp) _) fun token => .bind (h.ofBinary 0) fun condition =>
    .bind h.ofBlock fun body => .pure _)

theorem ofLoopSource (h : inner.Extends more last inner') :
    Parser.Extends more last front (Parser.loopSource inner) (Parser.loopSource inner') := by
  unfold Parser.loopSource
  refine .look .peek .peek fun token => ?_
  split
  · rename_i isIn
    exact .bind (.advanceAt (by simp [isIn.1])) fun _ => .bind (h.expression 0) fun source => .pure _
  · exact .pure _

theorem ofForEach (h : inner.Extends more last inner') :
    Parser.Extends more last front (Parser.forEach inner) (Parser.forEach inner') := by
  unfold Parser.forEach
  refine .within _ (.bind (.expect (by simp) _) fun token => .bind .expectDeterminer fun found => ?_)
  obtain ⟨determiner, kind⟩ := found
  dsimp only
  split
  · exact .fail _
  · exact .bind .expectNoun fun noun => .bind (.nounPhrase _ _) fun binder => .bind h.ofLoopSource fun source =>
      .bind h.ofBlock fun body => .pure _

theorem ofGive (h : inner.Extends more last inner') (inside : ∀ token, front token → token.kind ≠ .lineEnd) :
    Parser.Extends more last front (Parser.give inner) (Parser.give inner') := by
  unfold Parser.give
  refine .within _ (.bind (.advance inside) fun token => .bind (.require _ _ _) fun _ => ?_)
  split
  · exact .pure _
  · exact .bind (h.ofBinary 0) fun value => .bind (.expect (by simp) _) fun _ => .pure _

theorem ofLoopControl (inside : ∀ token, front token → token.kind ≠ .lineEnd) (control : LoopControl) :
    Parser.Extends more last front (Parser.loopControl control) (Parser.loopControl control) := by
  unfold Parser.loopControl
  exact .bind (.advance inside) fun token => .bind (.require _ _ _) fun _ => .pure _

theorem ofStatement (h : inner.Extends more last inner') (afresh : StartsAfresh last more) :
    Parser.Extends more last front (Parser.statement inner) (Parser.statement inner') := by
  unfold Parser.statement
  refine .look .peek .peek fun token => ?_
  have inside (notLineEnd : token.kind ≠ .lineEnd) : ∀ other, front other ∧ other = token → other.kind ≠ .lineEnd :=
    fun _ known => known.2 ▸ notLineEnd
  split
  · exact h.ofConditional afresh
  · exact h.ofWhileLoop
  · exact h.ofForEach
  · rename_i kind
    exact h.ofGive (inside (by simp [kind]))
  · rename_i kind
    exact h.ofGive (inside (by simp [kind]))
  · rename_i kind
    exact ofLoopControl (inside (by simp [kind])) _
  · rename_i kind
    exact ofLoopControl (inside (by simp [kind])) _
  · rename_i kind
    exact .bind (.advanceAt (by simp [kind])) fun token => .bind (.require _ _ _) fun _ => .pure _
  · rename_i kind
    exact .bind (.advanceAt (by simp [kind])) fun token => .throw _
  · rename_i kind
    exact .bind (.advanceAt (by simp [kind])) fun token => .throw _
  · rename_i kind
    exact .bind (.advanceAt (by simp [kind])) fun token => .throw _
  · rename_i kind
    exact .bind (.advanceAt (by simp [kind])) fun token => .throw _
  · rename_i kind
    exact .bind (.advanceAt (by simp [kind])) fun token => .throw _
  · rename_i kind
    exact h.ofNounStatement (inside (by simp [kind])) _
  · exact .bind (h.ofBinary 0) fun value => h.ofFinishStatement value

theorem statements_starves {close : TokenKind} (closes : close = .period ∨ close = .bang) (expected : String) :
    Starves (Parser.statements inner close expected) := by
  have other : (TokenKind.fileEnd == close) = false := by
    rcases closes with rfl | rfl <;> rfl
  unfold Parser.statements
  exact .skipLineEnds (.eat other (.at? (.bind (.unexpected expected))))

theorem ofStatements (h : inner.Extends more last inner') (afresh : StartsAfresh last more) {close : TokenKind}
    (closes : close = .period ∨ close = .bang) (expected : String) :
    Parser.Extends more last front (Parser.statements inner close expected)
      (Parser.statements inner' close expected) := by
  have other : (TokenKind.fileEnd == close) = false := by
    rcases closes with rfl | rfl <;> rfl
  have inside : close ≠ .lineEnd := by
    rcases closes with rfl | rfl <;> simp
  obtain ⟨later, starves⟩ := h.statements close expected closes
  unfold Parser.statements
  refine .skipLineEnds (.eat other (.at? (.bind (.unexpected expected)))) (.bind (.eat inside) fun closed => ?_)
  split
  · exact .pure _
  · refine .bind (.at? _) fun ended => ?_
    split
    · exact .unexpectedThen
    · exact .bind (h.ofStatement afresh) fun first =>
        .endStatement (.bind starves) (.bind later fun others => .pure _)

end Inner.Extends

end Satzbau.Parser

import Satzbau.Proofs.Parsing.Delivery

namespace Satzbau.Parser

variable {α β : Type}

/-- An input whose last item is the end of a line or a fault, with no end of a file before it. -/
structure State.Closed (close : Except Diagnostic Token) (s : State) : Prop where
  ends : ∃ before, s.items = before ++ [close]
  lineEnd : ∀ token, close = .ok token → token.kind = .lineEnd
  inside : ∀ token, .ok token ∈ s.items → token.kind ≠ .fileEnd

/-- An input that goes on. -/
def State.append (s : State) (more : List (Except Diagnostic Token)) : State :=
  { s with items := s.items ++ more }

/-- The scope of an input with another end. -/
def Scope.endingWith (scope : Scope) (last : Token) : Scope :=
  { scope with fileEnd := last }

theorem Scope.around_endingWith (scope : Scope) (last : Token) : (scope.endingWith last).around = scope.around := rfl

theorem State.Closed.nonempty {close : Except Diagnostic Token} {s : State} (closed : s.Closed close) : s.items ≠ [] := by
  obtain ⟨before, items⟩ := closed.ends
  rw [items]
  exact List.append_ne_nil_of_right_ne_nil _ (List.cons_ne_nil _ _)

theorem State.Closed.suffix {close : Except Diagnostic Token} {s : State} {later : List (Except Diagnostic Token)}
    (closed : s.Closed close) (cut : later <:+ s.items) (left : later ≠ []) :
    State.Closed close { s with items := later } := by
  obtain ⟨before, items⟩ := closed.ends
  have lastItem : later.getLast left = close := by
    rw [cut.getLast left]
    simp only [items, List.getLast_append_of_ne_nil _ (List.cons_ne_nil _ _), List.getLast_singleton]
  refine ⟨⟨later.dropLast, ?_⟩, closed.lineEnd, fun token among => closed.inside token (cut.subset among)⟩
  rw [← lastItem]
  exact (List.dropLast_concat_getLast left).symm

/-- Behind a token that does not end a line there is more. -/
theorem State.Closed.left {close : Except Diagnostic Token} {s : State} {token : Token}
    {later : List (Except Diagnostic Token)} (closed : s.Closed close) (items : s.items = .ok token :: later)
    (inside : token.kind ≠ .lineEnd) : later ≠ [] := by
  rintro rfl
  obtain ⟨before, spelled⟩ := closed.ends
  rw [items] at spelled
  cases before with
  | nil =>
    obtain ⟨same, _⟩ := List.cons.inj spelled
    exact inside (closed.lineEnd token same.symm)
  | cons first others => simp at spelled

/-- What stands at the front depends on the items only. -/
theorem peek_of_items {scope : Scope} {s t : State} {token : Token} (seen : peek scope s = .ok (token, s))
    (same : t.items = s.items) : peek scope t = .ok (token, t) := by
  unfold peek at seen ⊢
  rw [same]
  split at seen
  · cases seen
    rfl
  · cases seen
    rfl
  · contradiction

/-- A closed input has a token or a fault at its front, and the same one when it goes on. -/
theorem peek_append {close : Except Diagnostic Token} {scope : Scope} {s t : State} {token last : Token}
    (closed : s.Closed close) (more : List (Except Diagnostic Token)) (run : peek scope s = .ok (token, t)) :
    ∃ later, s.items = .ok token :: later ∧
      peek (scope.endingWith last) (s.append more) = .ok (token, s.append more) := by
  unfold peek at run
  split at run
  · rename_i empty
    exact absurd empty closed.nonempty
  · rename_i found later split
    cases run
    refine ⟨later, split, ?_⟩
    unfold peek State.append
    simp only [split, List.cons_append]
  · contradiction

/-- What `p` reads of a closed input, `q` reads of the input when it goes on. `front` is what is known
of the token at the front. -/
def Extends (more : List (Except Diagnostic Token)) (last : Token) (front : Token → Prop) (p q : Parser α) : Prop :=
  ∀ scope s a t close, scope.fileEnd.kind = .fileEnd → s.Closed close →
    (∀ token, peek scope s = .ok (token, s) → front token) → p scope s = .ok (a, t) →
    t.Closed close ∧ q (scope.endingWith last) (s.append more) = .ok (a, t.append more)

/-- A parser that cannot do without input. -/
def Starves (p : Parser α) : Prop :=
  ∀ scope s a t, scope.fileEnd.kind = .fileEnd → s.items = [] → p scope s ≠ .ok (a, t)

theorem bind_ok {p : Parser α} {f : α → Parser β} {scope : Scope} {s middle : State} {a : α}
    (run : p scope s = .ok (a, middle)) : (p >>= f) scope s = f a scope middle := by
  show (p scope s >>= fun step => f step.1 scope step.2) = _
  rw [run]
  rfl

/-- Whether an item ends a line. -/
def isLineEnd : Except Diagnostic Token → Bool
  | .ok token => token.kind == .lineEnd
  | .error _ => false

/-- What is left of an input behind the ends of lines at its front. -/
def State.skipped (s : State) : State :=
  { s with items := s.items.dropWhile isLineEnd }

theorem State.skipped_append {s : State} (left : s.skipped.items ≠ []) (more : List (Except Diagnostic Token)) :
    (s.append more).skipped = s.skipped.append more := by
  have nonempty : (s.items.dropWhile isLineEnd).isEmpty = false := List.isEmpty_eq_false_iff.mpr left
  simp only [skipped, append, List.dropWhile_append, nonempty]
  rfl

theorem skipLineEnds_eq_ok {scope : Scope} {s t : State} (run : skipLineEnds scope s = .ok ((), t)) :
    t = s.skipped ∧ ∃ token, peek scope s.skipped = .ok (token, s.skipped) := by
  obtain ⟨_, middle, modified, rest⟩ := bind_eq_ok run
  obtain ⟨token, last, seen, returned⟩ := bind_eq_ok rest
  cases modified
  obtain ⟨rfl, _⟩ := peek_eq_ok seen
  cases returned
  exact ⟨rfl, token, seen⟩

theorem skipLineEnds_ok {scope : Scope} {s : State} {token : Token}
    (seen : peek scope s.skipped = .ok (token, s.skipped)) : skipLineEnds scope s = .ok ((), s.skipped) := by
  have skipped : skipLineEnds scope s = (peek >>= fun _ => pure ()) scope s.skipped := rfl
  rw [skipped, bind_ok seen]
  rfl

theorem skipLineEnds_elsewhere {scope : Scope} {s : State} {token : Token} (seen : peek scope s = .ok (token, s))
    (other : token.kind ≠ .lineEnd) : skipLineEnds scope s = .ok ((), s) := by
  have skipped : s.skipped = s := by
    unfold peek at seen
    split at seen
    · rename_i empty
      rw [State.skipped, empty]
      exact congrArg (State.mk · s.nextId) empty.symm
    · rename_i items
      cases seen
      rw [State.skipped, items, List.dropWhile_cons_of_neg (by simpa [isLineEnd] using other), ← items]
    · contradiction
  have run := @skipLineEnds_ok scope s token (by rw [skipped, seen])
  rwa [skipped] at run

theorem advance_ok {scope : Scope} {s : State} {token : Token} (seen : peek scope s = .ok (token, s)) :
    advance scope s = .ok (token, { s with items := s.items.tail }) := by
  unfold advance
  rw [bind_ok seen]
  rfl

theorem endStatement_eq_ok {close : TokenKind} {scope : Scope} {s t : State}
    (run : endStatement close scope s = .ok ((), t)) :
    ∃ token, peek scope s = .ok (token, s) ∧
      (token.kind = .lineEnd ∧ t = { s with items := s.items.tail } ∨
        token.kind ≠ .lineEnd ∧ token.kind = close ∧ t = s) := by
  obtain ⟨token, middle, seen, decided⟩ := bind_eq_ok run
  obtain ⟨rfl, _⟩ := peek_eq_ok seen
  refine ⟨token, seen, ?_⟩
  split at decided
  · rename_i atLineEnd
    obtain ⟨_, _, taken, returned⟩ := bind_eq_ok decided
    cases returned
    exact Or.inl ⟨atLineEnd, (advance_eq_ok taken).2⟩
  · rename_i notLineEnd
    split at decided
    · contradiction
    · rename_i closes
      cases decided
      exact Or.inr ⟨notLineEnd, Decidable.of_not_not closes, rfl⟩

theorem endStatement_at_lineEnd {close : TokenKind} {scope : Scope} {s : State} {token : Token}
    (seen : peek scope s = .ok (token, s)) (atLineEnd : token.kind = .lineEnd) :
    endStatement close scope s = .ok ((), { s with items := s.items.tail }) := by
  unfold endStatement
  rw [bind_ok seen, if_pos atLineEnd, bind_ok (advance_ok seen)]
  rfl

theorem endStatement_at_close {close : TokenKind} {scope : Scope} {s : State} {token : Token}
    (seen : peek scope s = .ok (token, s)) (notLineEnd : token.kind ≠ .lineEnd) (atClose : token.kind = close) :
    endStatement close scope s = .ok ((), s) := by
  unfold endStatement
  rw [bind_ok seen, if_neg notLineEnd, if_neg fun other => other atClose]
  rfl

namespace Extends

variable {more : List (Except Diagnostic Token)} {last : Token} {front : Token → Prop}

theorem pure (a : α) : Extends more last front (Pure.pure a : Parser α) (Pure.pure a) := by
  intro scope s b t close _ closed _ run
  cases run
  exact ⟨closed, rfl⟩

theorem throw {q : Parser α} (fault : Diagnostic) : Extends more last front (throw fault) q := by
  intro scope s a t _ _ _ _ run
  contradiction

theorem fail {f : β → Parser α} {q : Parser α} (fault : Diagnostic) :
    Extends more last front (MonadExcept.throw fault >>= f) q := by
  intro scope s a t _ _ _ _ run
  contradiction

theorem bind {p q : Parser β} {f g : β → Parser α} (first : Extends more last front p q)
    (next : ∀ b, Extends more last (fun _ => True) (f b) (g b)) : Extends more last front (p >>= f) (q >>= g) := by
  intro scope s a t close atEnd closed atFront run
  obtain ⟨b, middle, runFirst, rest⟩ := bind_eq_ok run
  obtain ⟨closed', read⟩ := first scope s b middle close atEnd closed atFront runFirst
  rw [bind_ok read]
  exact next b scope middle a t close atEnd closed' (fun _ _ => trivial) rest

/-- A look at the token at the front tells the parsers behind it the same. -/
theorem look {p : Parser β} {f g : β → Parser α} {knows : β → Token → Prop} (looks : Looks p knows)
    (first : Extends more last front p p)
    (next : ∀ b, Extends more last (fun token => front token ∧ knows b token) (f b) (g b)) :
    Extends more last front (p >>= f) (p >>= g) := by
  intro scope s a t close atEnd closed atFront run
  obtain ⟨b, middle, runFirst, rest⟩ := bind_eq_ok run
  obtain ⟨_, read⟩ := first scope s b middle close atEnd closed atFront runFirst
  obtain ⟨rfl, known⟩ := looks scope s b middle runFirst
  rw [bind_ok read]
  exact next b scope middle a t close atEnd closed (fun token seen => ⟨atFront token seen, known token seen⟩) rest

theorem read {f g : Scope → Parser α}
    (next : ∀ scope : Scope, Extends more last front (f scope) (g (scope.endingWith last))) :
    Extends more last front (MonadReaderOf.read >>= f) (MonadReaderOf.read >>= g) := by
  intro scope s a t close atEnd closed atFront run
  obtain ⟨b, middle, runFirst, rest⟩ := bind_eq_ok run
  cases runFirst
  exact next scope scope s a t close atEnd closed atFront rest

theorem map {p q : Parser β} (f : β → α) (extends' : Extends more last front p q) :
    Extends more last front (f <$> p) (f <$> q) := by
  rw [map_eq_pure_bind, map_eq_pure_bind]
  exact bind extends' fun b => pure (f b)

theorem anywhere {p q : Parser α} (extends' : Extends more last (fun _ => True) p q) :
    Extends more last front p q :=
  fun scope s a t close atEnd closed _ run => extends' scope s a t close atEnd closed (fun _ _ => trivial) run

theorem within {p q : Parser α} (construct : Construct) (extends' : Extends more last front p q) :
    Extends more last front (Parser.within construct p) (Parser.within construct q) :=
  fun scope s a t close atEnd closed atFront run =>
    extends' { scope with around := construct :: scope.around } s a t close atEnd closed atFront run

theorem peek : Extends more last front peek peek := by
  intro scope s token t close _ closed _ run
  obtain ⟨_, _, read⟩ := peek_append closed more run
  obtain ⟨rfl, _⟩ := peek_eq_ok run
  exact ⟨closed, read⟩

/-- Behind a token that does not end a line there is another one. -/
theorem peekSecond (inside : ∀ token, front token → token.kind ≠ .lineEnd) :
    Extends more last front peekSecond peekSecond := by
  intro scope s second t close _ closed atFront run
  unfold Parser.peekSecond at run
  split at run
  · rename_i empty
    exact absurd empty closed.nonempty
  · rename_i token single
    have seen : Parser.peek scope s = .ok (token, s) := by
      unfold Parser.peek
      rw [single]
    exact absurd rfl (closed.left single (inside token (atFront token seen)))
  · contradiction
  · contradiction
  · rename_i first second' later split
    cases run
    refine ⟨closed, ?_⟩
    unfold Parser.peekSecond State.append
    simp only [split, List.cons_append]

theorem advance (inside : ∀ token, front token → token.kind ≠ .lineEnd) :
    Extends more last front advance advance := by
  intro scope s token t close _ closed atFront run
  obtain ⟨seen, rfl⟩ := advance_eq_ok run
  obtain ⟨later, items, read⟩ := @peek_append close scope s s token last closed more seen
  have closed' : State.Closed close { s with items := later } :=
    closed.suffix ⟨[.ok token], items.symm⟩ (closed.left items (inside token (atFront token seen)))
  rw [advance_ok read]
  simp only [State.append, items]
  exact ⟨closed', rfl⟩

/-- The token that was seen at the front is taken. -/
theorem advanceAt {token : Token} (inside : token.kind ≠ .lineEnd) :
    Extends more last (fun other => front other ∧ other = token) Parser.advance Parser.advance :=
  advance fun _ known => known.2 ▸ inside

/-- A token of a kind that was seen at the front is taken. -/
theorem advanceIf {found : Bool} {kind : TokenKind} (there : found = true) (inside : kind ≠ .lineEnd) :
    Extends more last (fun other => front other ∧ (found = true → other.kind = kind)) Parser.advance Parser.advance :=
  advance fun _ known => known.2 there ▸ inside

theorem freshId : Extends more last front freshId freshId := by
  intro scope s id t close _ closed _ run
  cases run
  exact ⟨⟨closed.ends, closed.lineEnd, closed.inside⟩, rfl⟩

/-- Naming a phrase leaves the token at the front. -/
theorem name {determiner : Option Token} {noun : Token} {f g : NounPhrase → Parser α}
    (next : ∀ phrase, Extends more last front (f phrase) (g phrase)) :
    Extends more last front (nounPhrase determiner noun >>= f) (nounPhrase determiner noun >>= g) := by
  intro scope s a t close atEnd closed atFront run
  obtain ⟨phrase, middle, named, rest⟩ := bind_eq_ok run
  cases named
  exact next _ scope { s with nextId := s.nextId + 1 } a t close atEnd ⟨closed.ends, closed.lineEnd, closed.inside⟩
    (fun token seen => atFront token (peek_of_items seen rfl)) rest

/-- Ends of lines are skipped before something that needs more input. -/
theorem skipLineEnds {f g : Unit → Parser α} (starves : Starves (f ()))
    (next : Extends more last (fun _ => True) (f ()) (g ())) :
    Extends more last front (skipLineEnds >>= f) (skipLineEnds >>= g) := by
  intro scope s a t close atEnd closed _ run
  obtain ⟨_, middle, skip, rest⟩ := bind_eq_ok run
  obtain ⟨rfl, token, seen⟩ := skipLineEnds_eq_ok skip
  by_cases left : s.skipped.items = []
  · exact absurd rest (starves scope _ a t atEnd left)
  · have closed' : s.skipped.Closed close := closed.suffix (List.dropWhile_suffix isLineEnd) left
    obtain ⟨_, _, read⟩ := @peek_append close scope _ _ token last closed' more seen
    rw [← State.skipped_append left] at read
    rw [bind_ok (skipLineEnds_ok read), State.skipped_append left]
    exact next scope _ a t close atEnd closed' (fun _ _ => trivial) rest

/-- The end of a line is taken before something that needs more input. -/
theorem endStatement {close : TokenKind} {f g : Unit → Parser α} (starves : Starves (f ()))
    (next : Extends more last (fun _ => True) (f ()) (g ())) :
    Extends more last front (endStatement close >>= f) (endStatement close >>= g) := by
  intro scope s a t close atEnd closed _ run
  obtain ⟨_, middle, ended, rest⟩ := bind_eq_ok run
  obtain ⟨token, seen, ⟨atLineEnd, rfl⟩ | ⟨notLineEnd, atClose, rfl⟩⟩ := endStatement_eq_ok ended
  · obtain ⟨later, items, read⟩ := @peek_append close scope s s token last closed more seen
    by_cases left : s.items.tail = []
    · exact absurd rest (starves scope _ a t atEnd left)
    · have closed' : State.Closed close { s with items := s.items.tail } :=
        closed.suffix (List.tail_suffix s.items) left
      have goesOn : (s.append more).items.tail = s.items.tail ++ more := by
        rw [State.append, items]
        rfl
      rw [bind_ok (endStatement_at_lineEnd read atLineEnd), goesOn]
      exact next scope _ a t close atEnd closed' (fun _ _ => trivial) rest
  · obtain ⟨_, _, read⟩ := @peek_append close scope middle middle token last closed more seen
    rw [bind_ok (endStatement_at_close read notLineEnd atClose)]
    exact next scope middle a t close atEnd closed (fun _ _ => trivial) rest

end Extends

end Satzbau.Parser

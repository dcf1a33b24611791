import Mathlib.Data.List.TakeWhile
import Satzbau.Proofs.Parsing.ExtendedDefinitions

namespace Satzbau

/-- Two programs, the one read behind the other. -/
def Program.followedBy (p ending : Program) : Program :=
  ⟨p.definitions ++ ending.definitions, p.statements ++ ending.statements⟩

namespace Parser

variable {α β : Type} {more : List (Except Diagnostic Token)} {last : Token}

theorem skipLineEnds_congr {scope : Scope} {s s' : State} (same : s.skipped = s'.skipped) :
    skipLineEnds scope s = skipLineEnds scope s' := by
  have skips (s : State) : skipLineEnds scope s = (peek >>= fun _ => pure ()) scope s.skipped := rfl
  rw [skips, skips, same]

theorem bind_congr_run {p : Parser α} {f : α → Parser β} {scope : Scope} {s s' : State}
    (same : p scope s = p scope s') : (p >>= f) scope s = (p >>= f) scope s' := by
  show (p scope s >>= fun step => f step.1 scope step.2) = (p scope s' >>= fun step => f step.1 scope step.2)
  rw [same]

theorem program_congr {inner : Inner} {scope : Scope} {s s' : State} (same : s.skipped = s'.skipped) :
    program inner scope s = program inner scope s' := by
  unfold program
  exact bind_congr_run (skipLineEnds_congr same)

/-- Where nothing is left, there is no program. -/
theorem program_nil {scope : Scope} {id : NodeId} (atEnd : scope.fileEnd.kind = .fileEnd) (inner : Inner) :
    program inner scope ⟨[], id⟩ = .ok (.empty, ⟨[], id⟩) := by
  have seen : peek scope ⟨[], id⟩ = .ok (scope.fileEnd, ⟨[], id⟩) := rfl
  unfold program
  rw [bind_ok (skipLineEnds_elsewhere seen (by simp [atEnd]))]
  dsimp only
  rw [bind_ok seen, atEnd]
  rfl

/-- Behind nothing but ends of lines there is what follows. -/
theorem skipped_append_of_empty {s : State} (empty : s.skipped.items = []) :
    (s.append more).skipped = State.skipped ⟨more, s.nextId⟩ := by
  have nothing : (s.items.dropWhile isLineEnd).isEmpty = true := List.isEmpty_iff.mpr empty
  simp only [State.skipped, State.append, List.dropWhile_append, nothing, if_true]

/-- An input that is nothing but ends of lines does not end with a fault. -/
theorem close_of_skipped {close : Except Diagnostic Token} {s : State} (closed : s.Closed close)
    (empty : s.skipped.items = []) : ∃ token, close = .ok token := by
  obtain ⟨before, items⟩ := closed.ends
  have all : ∀ item ∈ s.items, isLineEnd item = true := List.dropWhile_eq_nil_iff.mp empty
  have isEnd := all close (by simp [items])
  cases close with
  | ok token => exact ⟨token, rfl⟩
  | error fault => contradiction

/-- When `p` has read all of an input, that does not end with a fault, and `q` reads the input that
goes on, and ends with `ending`. -/
def Resumes (more : List (Except Diagnostic Token)) (last : Token) (ending : Program) (close : Except Diagnostic Token)
    (scope : Scope) (s t u : State) (p q : Parser Program) : Prop :=
  ∀ result, p scope s = .ok (result, t) → (s.items ≠ [] → ∃ token, close = .ok token) ∧
    q (scope.endingWith last) (s.append more) = .ok (result.followedBy ending, u)

/-- A piece of a program and the rest of it, in an input that goes on. -/
theorem Resumes.piece {P Q : Parser α} {p q : Parser Program} {add : α → Program → Program}
    {close : Except Diagnostic Token} {scope : Scope} {s t u : State} {ending : Program}
    (atEnd : scope.fileEnd.kind = .fileEnd) (closed : s.Closed close) (piece : Extends more last (fun _ => True) P Q)
    (later : ∀ s : State, s.items = [] ∨ s.Closed close → Resumes more last ending close scope s t u p q)
    (adds : ∀ x rest, (add x rest).followedBy ending = add x (rest.followedBy ending)) :
    Resumes more last ending close scope s t u
      (do
        let x ← P
        endStatement .fileEnd
        let rest ← p
        return add x rest)
      (do
        let x ← Q
        endStatement .fileEnd
        let rest ← q
        return add x rest) := by
  intro result run
  obtain ⟨x, middle, runPiece, rest⟩ := bind_eq_ok run
  obtain ⟨closed', read⟩ := piece scope s x middle close atEnd closed (fun _ _ => trivial) runPiece
  obtain ⟨_, behind, ended, rest⟩ := bind_eq_ok rest
  obtain ⟨others, _, runLater, returned⟩ := bind_eq_ok rest
  cases returned
  obtain ⟨token, seen, ⟨atLineEnd, rfl⟩ | ⟨_, atFileEnd, rfl⟩⟩ := endStatement_eq_ok ended
  · obtain ⟨tail, items, seen'⟩ := @peek_append close scope middle middle token last closed' more seen
    have left : middle.items.tail = [] ∨ State.Closed close { middle with items := middle.items.tail } := by
      by_cases empty : middle.items.tail = []
      · exact Or.inl empty
      · exact Or.inr (closed'.suffix (List.tail_suffix middle.items) empty)
    obtain ⟨faultless, runMore⟩ := later _ left others runLater
    have goesOn : (middle.append more).items.tail = middle.items.tail ++ more := by
      rw [State.append, items]
      rfl
    constructor
    · intro _
      by_cases empty : middle.items.tail = []
      · obtain ⟨before, spelled⟩ := closed'.ends
        rw [items, List.tail_cons] at empty
        rw [items, empty] at spelled
        obtain ⟨_, same⟩ | ⟨_, impossible⟩ := List.singleton_eq_append_iff.mp spelled
        · exact ⟨token, List.singleton_inj.mp same⟩
        · contradiction
      · exact faultless empty
    · rw [bind_ok read, bind_ok (endStatement_at_lineEnd seen' atLineEnd), goesOn, adds]
      exact bind_ok runMore
  · obtain ⟨tail, items, _⟩ := @peek_append close scope behind behind token last closed' more seen
    exact absurd atFileEnd (closed'.inside token (by simp [items]))

/-- One definition or statement of a program that goes on, if its rest goes on as well. -/
theorem Resumes.program {inner inner' : Inner} {close : Except Diagnostic Token} {scope : Scope} {s t u : State}
    {ending : Program} (h : inner.Extends more last inner') (afresh : StartsAfresh last more)
    (atEnd : scope.fileEnd.kind = .fileEnd)
    (later : ∀ s : State, s.items = [] ∨ s.Closed close →
      Resumes more last ending close scope s t u inner.program inner'.program)
    (reads : Parser.program inner' (scope.endingWith last) ⟨more, t.nextId⟩ = .ok (ending, u))
    (closed : s.items = [] ∨ s.Closed close) :
    Resumes more last ending close scope s t u (Parser.program inner) (Parser.program inner') := by
  intro p run
  unfold Parser.program at run
  obtain ⟨_, middle, skip, rest⟩ := bind_eq_ok run
  obtain ⟨rfl, _, _⟩ := skipLineEnds_eq_ok skip
  obtain ⟨token, _, seen, decided⟩ := bind_eq_ok rest
  obtain ⟨rfl, _⟩ := peek_eq_ok seen
  by_cases empty : s.skipped.items = []
  · rw [(Starves.peek_eq_ok empty seen).1, atEnd] at decided
    cases decided
    rw [program_congr (skipped_append_of_empty empty)]
    exact ⟨fun nonempty => close_of_skipped (closed.resolve_left nonempty) empty, reads⟩
  · have closed' : s.skipped.Closed close := by
      rcases closed with nothing | closed
      · exact absurd (by rw [State.skipped, nothing]; rfl) empty
      · exact closed.suffix (List.dropWhile_suffix isLineEnd) empty
    obtain ⟨tail, items, seen'⟩ := @peek_append close scope _ _ token last closed' more seen
    have skip' := seen'
    rw [← State.skipped_append empty more] at skip'
    unfold Parser.program
    rw [bind_ok (skipLineEnds_ok skip'), State.skipped_append empty more, bind_ok seen']
    suffices resumes : Resumes more last ending close scope s.skipped t u _ _ from
      ⟨fun _ => (resumes p decided).1 empty, (resumes p decided).2⟩
    split
    · rename_i kind
      exact absurd kind (closed'.inside token (by simp [items]))
    · exact .piece atEnd closed' (.map _ (.within _ h.ofFunction)) later fun _ _ => rfl
    · exact .piece atEnd closed' h.ofClassDefinition later fun _ _ => rfl
    · exact .piece atEnd closed' h.ofImplementation later fun _ _ => rfl
    · exact .piece atEnd closed' .declension later fun _ _ => rfl
    · exact .piece atEnd closed' (h.ofStatement afresh) later fun _ _ => rfl

/-- Programs that are read one behind the other. What is read of the second one may depend on the ids
that are left. -/
theorem program_append {bound : Nat} {ending : Program} {close : Except Diagnostic Token} {scope : Scope} {t u : State}
    (afresh : StartsAfresh last more) (atEnd : scope.fileEnd.kind = .fileEnd)
    (reads : ∀ size, bound ≤ size → program (inner size) (scope.endingWith last) ⟨more, t.nextId⟩ = .ok (ending, u))
    (size : Nat) {s : State} (closed : s.items = [] ∨ s.Closed close) :
    Resumes more last ending close scope s t u (program (inner size)) (program (inner (size + bound))) := by
  induction size generalizing s with
  | zero =>
    refine .program (.ofInner afresh (Nat.zero_le _)) afresh atEnd ?_ (reads _ (Nat.le_add_left ..)) closed
    intro s _ rest impossible
    obtain ⟨_, _, _, thrown⟩ := bind_eq_ok impossible
    contradiction
  | succ size ih =>
    rw [Nat.add_right_comm]
    exact .program (.ofInner afresh (Nat.succ_le_succ (Nat.le_add_right ..))) afresh atEnd (fun s closed' => ih closed')
      (reads _ (Nat.le_succ_of_le (Nat.le_add_left ..))) closed

end Parser

end Satzbau

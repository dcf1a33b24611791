import Mathlib.Data.List.Forall2
import Satzbau.Proofs.Composing.MovedDefinitions
import Satzbau.Proofs.Parsing.Continued
import Satzbau.Proofs.Parsing.NumberedDefinitions
import Satzbau.Proofs.Parsing.TopLevel

namespace Satzbau

namespace Program

/-- How many ids a program uses. -/
def idCount (p : Program) : Nat :=
  p.occurrences.length

/-- Programs with their ids moved on, each behind those of the programs before it. -/
def numberedFrom (start : Nat) : List Program → List Program
  | [] => []
  | p :: later => p.shifted start :: numberedFrom (start + p.idCount) later

/-- The definitions of some programs and their statements. -/
def joined (programs : List Program) : Program :=
  ⟨programs.flatMap Program.definitions, programs.flatMap Program.statements⟩

end Program

namespace Parser

variable {α β : Type} {scope : Scope} {s t : State} {inner : Inner} {token : Token}

/-- A program uses the ids that are handed out while it is read. -/
theorem nextId_eq_idCount {size : Nat} {items : List (Except Diagnostic Token)} {p : Program}
    (run : program (Parser.inner size) scope ⟨items, 0⟩ = .ok (p, t)) : t.nextId = p.idCount := by
  obtain ⟨_, _, numbered, _⟩ := @Inner.Delivers.ofProgram (fun _ => True) (fun _ => True) _ (.ofInner size) scope
    ⟨items, 0⟩ p t ⟨trivial, fun _ _ => trivial⟩ (fun _ _ => trivial) run
  have length := numbered.length_eq
  simp only [idsOf, List.length_map, List.nil_append, List.length_range', Nat.sub_zero] at length
  exact length.symm

/-- A parser that does not read from a state. -/
def Fails (scope : Scope) (s : State) (p : Parser α) : Prop :=
  ∀ a t, p scope s ≠ .ok (a, t)

namespace Fails

theorem bind {p : Parser α} {f : α → Parser β} (fails : Fails scope s p) : Fails scope s (p >>= f) := by
  intro b t run
  obtain ⟨a, middle, first, _⟩ := bind_eq_ok run
  exact fails a middle first

theorem look {f : Token → Parser α} (seen : peek scope s = .ok (token, s)) (next : Fails scope s (f token)) :
    Fails scope s (peek >>= f) := by
  intro a t run
  rw [bind_ok seen] at run
  exact next a t run

/-- No statement begins with `sonst`. -/
theorem statement (seen : peek scope s = .ok (token, s)) (isOtherwise : token.kind = .keyword .otherwise) :
    Fails scope s (statement inner) := by
  have seenWithin : peek { scope with around := .binary :: scope.around } s = .ok (token, s) := seen
  have primary : Fails { scope with around := .binary :: scope.around } s (primary inner) := by
    refine look seenWithin ?_
    rw [isOtherwise]
    exact fun _ _ => nofun
  have operand : Fails { scope with around := .binary :: scope.around } s (operand inner) := by
    refine look seenWithin ?_
    rw [Token.operator?, isOtherwise]
    exact bind primary
  have expression : Fails scope s (expression inner) := fun e t run => (bind operand : Fails _ _ _) e t run
  refine look seen ?_
  rw [isOtherwise]
  exact bind expression

end Fails

/-- What is read as a program does not begin with `sonst`. -/
theorem startsAfresh_of_program {p : Program} (run : program inner scope s = .ok (p, t)) :
    StartsAfresh scope.fileEnd s.items := by
  unfold program at run
  obtain ⟨_, middle, skip, rest⟩ := bind_eq_ok run
  obtain ⟨rfl, token, seen⟩ := skipLineEnds_eq_ok skip
  have other : token.isKeyword .otherwise = false := by
    by_contra is
    have isOtherwise : token.kind = .keyword .otherwise := by
      simpa [Token.isKeyword] using is
    rw [bind_ok seen, isOtherwise] at rest
    exact (Fails.bind (Fails.statement seen isOtherwise)) p t rest
  cases items : s.items with
  | nil =>
    have skipped : s.skipped.items = [] := by rw [State.skipped, items]; rfl
    rwa [← (Starves.peek_eq_ok skipped seen).1]
  | cons item later =>
    cases ends : isLineEnd item with
    | true =>
      cases item with
      | error fault => contradiction
      | ok first =>
        have kind : first.kind = .lineEnd := beq_iff_eq.mp ends
        exact ⟨first, rfl, by rw [Token.isKeyword, kind]; rfl⟩
    | false =>
      have skipped : s.skipped.items = item :: later := by
        rw [State.skipped, items, List.dropWhile_cons_of_neg (by simp [ends])]
      unfold peek at seen
      rw [skipped] at seen
      cases item with
      | error fault => contradiction
      | ok first =>
        cases seen
        exact ⟨token, rfl, other⟩

/-- A stream that is read as a program of its own, and may be followed by another one. -/
structure ReadsAlone (source : TokenStream) (p : Program) : Prop where
  atEnd : source.fileEnd.kind = .fileEnd
  closed : source.items = [] ∨ ∃ close, State.Closed close ⟨source.items, 0⟩
  parsed : source.program = .ok p

/-- A program that is read alone is read before another one as well, which then has later ids. -/
theorem ReadsAlone.followed {source : TokenStream} {p ending : Program} {last : Token}
    {more : List (Except Diagnostic Token)} {u : State} {start : Nat} (alone : ReadsAlone source p)
    (reads : ∀ size, more.length ≤ size →
      program (Parser.inner size) ⟨[], last⟩ ⟨more, start + p.idCount⟩ = .ok (ending, u))
    {size : Nat} (fits : (source.items ++ more).length ≤ size) :
    program (Parser.inner size) ⟨[], last⟩ ⟨source.items ++ more, start⟩ = .ok ((p.shifted start).followedBy ending, u) := by
  obtain ⟨items, fileEnd⟩ := source
  obtain ⟨atEnd, closed, parsed⟩ := alone
  obtain ⟨t, run⟩ := TokenStream.program_eq_ok.mp parsed
  dsimp only at atEnd closed run fits ⊢
  rw [List.length_append] at fits
  obtain ⟨bound, rfl⟩ := Nat.exists_eq_add_of_le (Nat.le_trans (Nat.le_add_right ..) fits)
  have fitsMore : more.length ≤ bound := Nat.le_of_add_le_add_left fits
  have moves : Inner.Moves start (Parser.inner items.length) := .ofInner _
  have moved := moves.ofProgram ⟨[], fileEnd⟩ ⟨items, 0⟩ p t run
  have later : (t.moved start).nextId = start + p.idCount := by
    rw [State.moved, nextId_eq_idCount run, Nat.add_comm]
  have resumes (close : Except Diagnostic Token) (closed : items = [] ∨ State.Closed close ⟨items, 0⟩) :=
    @program_append more last bound ending close ⟨[], fileEnd⟩ (t.moved start) u
      (startsAfresh_of_program (reads bound fitsMore)) atEnd
      (fun size bounded => later.symm ▸ reads size (Nat.le_trans fitsMore bounded)) items.length
      (State.moved start ⟨items, 0⟩) (closed.imp_right fun closed => ⟨closed.ends, closed.lineEnd, closed.inside⟩)
  have same : State.moved start ⟨items, 0⟩ = ⟨items, start⟩ := by
    rw [State.moved, Nat.zero_add]
  rw [same] at moved resumes
  rcases closed with empty | ⟨close, closed⟩
  · exact (resumes (.ok last) (Or.inl empty) _ moved).2
  · exact (resumes close (Or.inr closed) _ moved).2

/-- Programs that are read alone are read one behind the other as one program. -/
theorem program_joined {last : Token} (atLast : last.kind = .fileEnd)
    {sources : List TokenStream} {programs : List Program} (alone : List.Forall₂ ReadsAlone sources programs) (start : Nat) :
    ∃ u, ∀ size, (sources.flatMap TokenStream.items).length ≤ size →
      program (Parser.inner size) ⟨[], last⟩ ⟨sources.flatMap TokenStream.items, start⟩ =
        .ok (.joined (Program.numberedFrom start programs), u) := by
  induction alone generalizing start with
  | nil => exact ⟨_, fun size _ => program_nil atLast _⟩
  | @cons source p sources programs first later ih =>
    obtain ⟨u, reads⟩ := ih (start + p.idCount)
    exact ⟨u, fun size fits => first.followed reads fits⟩

end Parser

end Satzbau

import Satzbau.Proofs.Lexing

namespace Satzbau

/-- A fault of the compiler itself, for which no program is to blame. -/
def Diagnostic.IsInternal (d : Diagnostic) : Prop :=
  d.fault.category = .internal

/-- A result that may be a failure, but none for which the compiler is to blame. -/
def NoInternal {α : Type} (x : Except Diagnostic α) : Prop :=
  ∀ d, x = .error d → ¬d.IsInternal

namespace NoInternal

variable {α β : Type}

theorem ok (a : α) : NoInternal (.ok a) := by
  intro fault failed
  contradiction

theorem pure (a : α) : NoInternal (Pure.pure a) :=
  ok a

theorem error {d : Diagnostic} (blames : ¬d.IsInternal) : NoInternal (.error d : Except Diagnostic α) := by
  intro fault same
  cases same
  exact blames

theorem throw {d : Diagnostic} (blames : ¬d.IsInternal) : NoInternal (MonadExcept.throw d : Except Diagnostic α) :=
  .error blames

theorem bind {x : Except Diagnostic α} {f : α → Except Diagnostic β} (first : NoInternal x)
    (next : ∀ a, x = .ok a → NoInternal (f a)) : NoInternal (x >>= f) := by
  cases run : x with
  | error d =>
    have blames := first d run
    exact .error blames
  | ok a => exact next a run

theorem mapM {f : α → Except Diagnostic β} {xs : List α} (each : ∀ x ∈ xs, NoInternal (f x)) :
    NoInternal (xs.mapM f) := by
  induction xs with
  | nil => exact .pure _
  | cons x later ih =>
    rw [List.mapM_cons]
    refine .bind (each x (List.mem_cons_self ..)) fun y _ => ?_
    exact .bind (ih fun z member => each z (List.mem_cons_of_mem x member)) fun ys _ => .pure _

theorem foldlM {f : β → α → Except Diagnostic β} {s : β} {xs : List α} (each : ∀ s, ∀ x ∈ xs, NoInternal (f s x)) :
    NoInternal (xs.foldlM f s) := by
  induction xs generalizing s with
  | nil => exact .pure _
  | cons x later ih =>
    rw [List.foldlM_cons]
    exact .bind (each s x (List.mem_cons_self ..)) fun t _ => ih fun s y member => each s y (List.mem_cons_of_mem x member)

end NoInternal

/-- No fault among some items is one of the compiler itself. -/
def CleanItems (items : List (Except Diagnostic Token)) : Prop :=
  ∀ item ∈ items, NoInternal item

namespace Lexer

/-- What is wrong with characters is a fault of the text. -/
theorem lexeme_error {c : Char} {rest : List Char} {flaw : Flaw} (found : lexeme c rest = .error flaw) :
    flaw.fault.category = .lexical := by
  unfold lexeme at found
  split at found
  · split at found
    · contradiction
    · cases found
      rfl
    · cases found
      rfl
  · split at found
    · contradiction
    · split at found
      · contradiction
      · split at found
        · contradiction
        · cases found
          rfl

theorem tokensFrom_error (line : Line) (column : Nat) (inComment : Bool) (text : List Char) {d : Diagnostic}
    (read : (line.tokensFrom column inComment text).1 = .error d) : d.fault.category = .lexical :=
  @tokensFrom_fault_forall (·.category = .lexical) line (fun _ _ _ found => lexeme_error found) column inComment text d read

end Lexer

namespace Source

theorem enqueue_noInternal (queue : ImportQueue) (name : FileName) (blamed : Option Location) :
    NoInternal (queue.enqueue name blamed) := by
  unfold ImportQueue.enqueue
  split
  · exact .error nofun
  · split
    · exact .ok _
    · exact .ok _

theorem readLine_clean (files : Files) (progress : Progress) (line : Lexer.Line) :
    CleanItems (readLine files progress line).1 := by
  intro item member
  unfold readLine at member
  split at member
  · rename_i fault inComment read
    have lexical := Lexer.tokensFrom_error line 1 progress.inComment line.text (congrArg Prod.fst read)
    rw [List.mem_singleton.mp member]
    refine .error fun internal => ?_
    rw [Diagnostic.IsInternal, lexical] at internal
    contradiction
  · contradiction
  · split at member
    · obtain ⟨token, _, rfl⟩ := List.mem_map.mp member
      exact .ok token
    · split at member
      · rename_i fault failed
        rw [List.mem_singleton.mp member]
        exact .error (enqueue_noInternal _ _ _ fault failed)
      · contradiction

theorem readLines_clean (files : Files) (progress : Progress) (lines : List Lexer.Line) :
    CleanItems (readLines files progress lines).1 := by
  induction lines generalizing progress with
  | nil =>
    intro item member
    contradiction
  | cons line later ih =>
    intro item member
    obtain inLine | inLater := List.mem_append.mp member
    · exact readLine_clean files progress line item inLine
    · exact ih _ item inLater

theorem unreadable_not_internal (path : Path) (fault : ReadFault) : ¬(unreadable path fault).IsInternal := by
  rintro ⟨⟩

theorem readQueue_clean (files : Files) (queue : ImportQueue) (last : Token) :
    CleanItems (readQueue files queue last).items := by
  fun_induction readQueue files queue last
  case case1 =>
    intro item member
    contradiction
  case case2 ih => exact ih
  case case3 later ih =>
    intro item member
    obtain rfl | inLater := List.mem_cons.mp member
    · exact .error (unreadable_not_internal _ _)
    · exact ih item inLater
  case case4 lines opened later ih =>
    intro item member
    obtain inFile | inLater := List.mem_append.mp member
    · exact readLines_clean _ _ _ item inFile
    · exact ih item inLater

end Source

/-- Reading files never fails by a fault of the compiler itself. -/
theorem TokenStream.IsRead.clean {stream : TokenStream} (read : stream.IsRead) : CleanItems stream.items := by
  cases read with
  | ofQueue files queue => exact Source.readQueue_clean files queue _
  | ofText files path text =>
    intro item member
    obtain inText | inLater := List.mem_append.mp member
    · exact Source.readLines_clean _ _ _ item inText
    · exact Source.readQueue_clean _ _ _ item inLater

end Satzbau

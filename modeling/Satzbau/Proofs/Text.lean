import Satzbau.Source

namespace Satzbau

namespace Source

theorem readQueue_of_none (files : Files) {queue : ImportQueue} (nothing : queue.dequeue? = none) (last : Token) :
    readQueue files queue last = ⟨[], last⟩ := by
  rw [readQueue]
  split
  · rfl
  · rename_i dequeued
    rw [nothing] at dequeued
    contradiction

/-- Reading goes no further where nothing is left to be read. -/
theorem readQueue_of_pending (files : Files) {queue : ImportQueue} (nothing : queue.pending = []) (last : Token) :
    readQueue files queue last = ⟨[], last⟩ :=
  readQueue_of_none files (by rw [ImportQueue.dequeue?, nothing]) last

/-- One step of reading what a queue holds. -/
theorem readQueue_of_dequeued (files : Files) {queue rest : ImportQueue} {name : FileName}
    (dequeued : queue.dequeue? = some (name, rest)) (last : Token) :
    readQueue files queue last =
      if queue.hasVisited name then readQueue files rest last
      else
        match files.text name with
        | .error fault =>
          ⟨.error (unreadable name.path fault) :: (readQueue files rest last).items, (readQueue files rest last).fileEnd⟩
        | .ok text =>
          ⟨(readLines files ⟨rest, false⟩ (linesOf name.path text)).1 ++
            (readQueue files (readLines files ⟨rest, false⟩ (linesOf name.path text)).2
              (fileEnd name.path (linesOf name.path text).length)).items,
            (readQueue files (readLines files ⟨rest, false⟩ (linesOf name.path text)).2
              (fileEnd name.path (linesOf name.path text).length)).fileEnd⟩ := by
  rw [readQueue]
  split
  · rename_i nothing
    rw [dequeued] at nothing
    contradiction
  · rename_i dequeued'
    rw [dequeued] at dequeued'
    cases dequeued'
    split
    · rfl
    · split
      · rename_i unreadable
        rw [unreadable]
      · rename_i readable
        rw [readable]

/-- The next file that is to be read comes before all that is read behind it. -/
theorem readQueue_of_dequeue (files : Files) {queue rest : ImportQueue} {name : FileName} {text : String}
    (dequeued : queue.dequeue? = some (name, rest)) (new : queue.hasVisited name = false)
    (readable : files.text name = .ok text) (last : Token) :
    readQueue files queue last =
      ⟨(readLines files ⟨rest, false⟩ (linesOf name.path text)).1 ++
        (readQueue files (readLines files ⟨rest, false⟩ (linesOf name.path text)).2
          (fileEnd name.path (linesOf name.path text).length)).items,
        (readQueue files (readLines files ⟨rest, false⟩ (linesOf name.path text)).2
          (fileEnd name.path (linesOf name.path text).length)).fileEnd⟩ := by
  rw [readQueue_of_dequeued files dequeued, new, if_neg Bool.false_ne_true, readable]

/-- What reading the lines of a text gives, before any file that the text imports is opened. -/
def opened (files : Files) (path : Path) (text : String) : List (Except Diagnostic Token) × ImportQueue :=
  readLines files ⟨ImportQueue.empty.visit (files.identify path), false⟩ (linesOf path text)

end Source

/-- The tokens of a text that imports nothing. -/
theorem TokenStream.ofText_eq (files : Files) (path : Path) (text : String)
    (alone : (Source.opened files path text).2.pending = []) :
    ofText files path text =
      ⟨(Source.opened files path text).1, Source.fileEnd path (Source.linesOf path text).length⟩ := by
  have last := Source.readQueue_of_pending files alone (Source.fileEnd path (Source.linesOf path text).length)
  unfold Source.opened at last
  unfold ofText
  dsimp only
  rw [last, List.append_nil]
  rfl

/-- The tokens of a text that imports one file, which imports nothing. -/
theorem TokenStream.ofText_of_dequeue (files : Files) (path : Path) (text : String) {name : FileName}
    {rest : ImportQueue} {other : String} (dequeued : (Source.opened files path text).2.dequeue? = some (name, rest))
    (new : (Source.opened files path text).2.hasVisited name = false) (readable : files.text name = .ok other)
    (alone : (Source.readLines files ⟨rest, false⟩ (Source.linesOf name.path other)).2.pending = []) :
    ofText files path text =
      ⟨(Source.opened files path text).1 ++ (Source.readLines files ⟨rest, false⟩ (Source.linesOf name.path other)).1,
        Source.fileEnd name.path (Source.linesOf name.path other).length⟩ := by
  have later := Source.readQueue_of_dequeue files dequeued new readable
    (Source.fileEnd path (Source.linesOf path text).length)
  rw [Source.readQueue_of_pending files alone, List.append_nil] at later
  unfold Source.opened at later
  unfold ofText
  dsimp only
  rw [later]
  rfl

/-- The tokens of a file that imports nothing, if no other one is to be read. -/
theorem TokenStream.ofQueue_of_dequeue (files : Files) {queue rest : ImportQueue} {name : FileName} {text : String}
    (dequeued : queue.dequeue? = some (name, rest)) (new : queue.hasVisited name = false)
    (readable : files.text name = .ok text)
    (alone : (Source.readLines files ⟨rest, false⟩ (Source.linesOf name.path text)).2.pending = []) :
    ofQueue files queue = ⟨(Source.readLines files ⟨rest, false⟩ (Source.linesOf name.path text)).1,
      Source.fileEnd name.path (Source.linesOf name.path text).length⟩ := by
  have opened := Source.readQueue_of_dequeue files dequeued new readable (Source.fileEnd ⟨""⟩ 0)
  rw [Source.readQueue_of_pending files alone, List.append_nil] at opened
  exact opened

/-- A file tree without files. -/
def Files.none : Files :=
  ⟨[], [], []⟩

theorem eq_ok_of_toOption {ε α : Type} {x : Except ε α} {r : α} (known : x.toOption = some r) : x = .ok r := by
  cases x with
  | error fault => contradiction
  | ok other => exact congrArg Except.ok (Option.some.inj known)

/-- What is known of a result when it was computed. -/
theorem exists_ok_of_view {ε α γ : Type} {x : Except ε α} {view : α → γ} {c : γ}
    (computed : (x.map view).toOption = some c) : ∃ a, x = .ok a ∧ view a = c := by
  cases x with
  | error fault => contradiction
  | ok a => exact ⟨a, rfl, Option.some.inj computed⟩

/-- Two steps of which the second one can be done with what the first one gives. -/
theorem exists_ok_of_bind {ε α β : Type} {first : Except ε α} {next : α → Except ε β}
    (passes : (first.bind next).isOk = true) : ∃ a b, first = .ok a ∧ next a = .ok b := by
  cases first with
  | error fault => contradiction
  | ok a =>
    cases result : next a with
    | error fault =>
      rw [Except.bind, result] at passes
      contradiction
    | ok b => exact ⟨a, b, rfl, result⟩

/-- What is known of the results of two steps when it was computed along with them. -/
theorem exists_ok_of_map {ε α β γ : Type} {first : Except ε α} {next : α → Except ε β} {view : α → β → γ} {c : γ}
    (computed : (first.bind fun a => (next a).map (view a)).toOption = some c) :
    ∃ a b, first = .ok a ∧ next a = .ok b ∧ view a b = c := by
  cases first with
  | error fault => contradiction
  | ok a =>
    cases result : next a with
    | error fault =>
      rw [Except.bind, result] at computed
      contradiction
    | ok b =>
      rw [Except.bind, result] at computed
      exact ⟨a, b, rfl, result, Option.some.inj computed⟩

end Satzbau

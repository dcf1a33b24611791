import Satzbau.ImportQueue
import Satzbau.Lexer.Line
import Satzbau.Lines

namespace Satzbau

/-- What reading some files gives: tokens and faults in order, and the token that stands for the
end of the last file as often as it is asked for. -/
structure TokenStream where
  items : List (Except Diagnostic Token)
  fileEnd : Token

namespace Source

/-- The path behind a line that is nothing but `importiere "path"`, with the keyword. -/
def importTarget? : List Token → Option (Token × Path)
  | [keyword, target] =>
    match keyword.kind, target.kind with
    | .keyword .load, .string path => some (keyword, ⟨path⟩)
    | _, _ => none
  | _ => none

/-- Imports are read from the directory of the importing file. -/
def importPath (importer target : Path) : Path :=
  importer.parent?.elim target fun directory => directory.join target

/-- How far reading has come: the files to read and whether a block comment is open. -/
structure Progress where
  queue : ImportQueue
  inComment : Bool

/-- The items of a line. A fault drops all of the line, an import line and a line without tokens
have no items, and any other line is closed by a token of its own. -/
def readLine (files : Files) (progress : Progress) (line : Lexer.Line) :
    List (Except Diagnostic Token) × Progress :=
  match line.tokens progress.inComment with
  | (.error fault, inComment) => ([.error fault], ⟨progress.queue, inComment⟩)
  | (.ok [], inComment) => ([], ⟨progress.queue, inComment⟩)
  | (.ok tokens, inComment) =>
    match importTarget? tokens with
    | none => ((tokens ++ [line.lineEnd tokens]).map .ok, ⟨progress.queue, inComment⟩)
    | some (keyword, target) =>
      match progress.queue.enqueue (files.identify (importPath ⟨line.file⟩ target)) keyword.location with
      | .error fault => ([.error fault], ⟨progress.queue, inComment⟩)
      | .ok queue => ([], ⟨queue, inComment⟩)

def readLines (files : Files) (progress : Progress) :
    List Lexer.Line → List (Except Diagnostic Token) × ImportQueue
  | [] => ([], progress.queue)
  | line :: later =>
    let (items, next) := readLine files progress line
    let (others, queue) := readLines files next later
    (items ++ others, queue)

/-- The lines of a text, counted from 1. -/
def linesOf (path : Path) (text : String) : List Lexer.Line :=
  (textLines text.toList).mapIdx fun index line => ⟨path.written, index + 1, line⟩

/-- The token for the end of a file, on the line behind its last one. -/
def fileEnd (path : Path) (lineCount : Nat) : Token :=
  ⟨.fileEnd, "", path.written, .onLine (lineCount + 1) 1 1⟩

def unreadable (path : Path) (fault : ReadFault) : Diagnostic :=
  .located (.ofFile path.written) (.sourceUnreadable path.written fault.message)

theorem readLine_visited (files : Files) (progress : Progress) (line : Lexer.Line) :
    (readLine files progress line).2.queue.visited = progress.queue.visited := by
  unfold readLine
  split
  · rfl
  · rfl
  · split
    · rfl
    · split
      · rfl
      · rename_i queue enqueued
        simp only [ImportQueue.enqueue] at enqueued
        split at enqueued
        · contradiction
        · split at enqueued <;> cases enqueued <;> rfl

theorem readLines_visited (files : Files) (progress : Progress) (lines : List Lexer.Line) :
    (readLines files progress lines).2.visited = progress.queue.visited := by
  induction lines generalizing progress with
  | nil => rfl
  | cons line later ih =>
    simp only [readLines]
    rw [ih, readLine_visited]

/-- The files of a tree that a queue has not given out yet. -/
def unreadCount (files : Files) (queue : ImportQueue) : Nat :=
  files.contents.countP fun entry => !queue.hasVisited (.found entry.1)

theorem unreadCount_le {files : Files} {before after : ImportQueue}
    (more : ∀ name ∈ before.visited, name ∈ after.visited) :
    unreadCount files after ≤ unreadCount files before := by
  apply List.countP_mono_left
  intro entry _ unvisited
  simp only [ImportQueue.hasVisited, Bool.not_eq_true', List.any_eq_false] at unvisited ⊢
  exact fun name member => unvisited name (more name member)

theorem countP_lt_of_mem {α : Type} {entries : List α} {narrow wide : α → Bool}
    (within : ∀ e ∈ entries, narrow e = true → wide e = true) {entry : α} (member : entry ∈ entries)
    (outside : narrow entry = false) (inside : wide entry = true) :
    entries.countP narrow < entries.countP wide := by
  induction entries with
  | nil => simp at member
  | cons first later ih =>
    have bound := List.countP_mono_left fun e inLater => within e (List.mem_cons_of_mem first inLater)
    rcases List.mem_cons.mp member with rfl | inLater
    · simp only [List.countP_cons, outside, inside]
      simp only [Bool.false_eq_true, if_false, if_true]
      omega
    · have less := ih (fun e h => within e (List.mem_cons_of_mem first h)) inLater
      have atFirst := within first (List.mem_cons_self ..)
      by_cases chosen : narrow first = true
      · simp only [List.countP_cons, chosen, atFirst chosen, if_true]
        omega
      · simp only [List.countP_cons, chosen, Bool.false_eq_true, if_false]
        split <;> omega

theorem unreadCount_lt {files : Files} {before after : ImportQueue} {name : FileName}
    (more : ∀ other ∈ before.visited, other ∈ after.visited) (new : before.hasVisited name = false)
    (visited : name ∈ after.visited) {text : String} (readable : files.text name = .ok text) :
    unreadCount files after < unreadCount files before := by
  obtain ⟨entry, member, same⟩ := Files.mem_of_text readable
  subst same
  refine countP_lt_of_mem (fun other _ unvisited => ?_) member ?_ ?_
  · simp only [ImportQueue.hasVisited, Bool.not_eq_true', List.any_eq_false] at unvisited ⊢
    exact fun name member => unvisited name (more name member)
  · simp only [ImportQueue.hasVisited, Bool.not_eq_false', List.any_eq_true]
    exact ⟨_, visited, FileName.same_self _⟩
  · simp [new]

set_option linter.unusedVariables false in
/-- Reads what a queue holds and whatever that imports. `last` is the end of the file that was
opened last. No file is read twice, so the files not yet read grow fewer with each one that is
read, and else the queue grows shorter. -/
def readQueue (files : Files) (queue : ImportQueue) (last : Token) : TokenStream :=
  match dequeued : queue.dequeue? with
  | none => ⟨[], last⟩
  | some (name, rest) =>
    if seen : queue.hasVisited name then readQueue files rest last
    else
      match readable : files.text name with
      | .error fault =>
        let later := readQueue files rest last
        ⟨.error (unreadable name.path fault) :: later.items, later.fileEnd⟩
      | .ok text =>
        let lines := linesOf name.path text
        let opened := readLines files ⟨rest, false⟩ lines
        let later := readQueue files opened.2 (fileEnd name.path lines.length)
        ⟨opened.1 ++ later.items, later.fileEnd⟩
termination_by (unreadCount files queue, queue.pending.length)
decreasing_by
  all_goals
    obtain ⟨shorter, grown⟩ := ImportQueue.dequeue?_eq_some dequeued
  · exact Prod.Lex.right' _ (unreadCount_le fun other member => by simp [grown, member]) (by omega)
  · exact Prod.Lex.right' _ (unreadCount_le fun other member => by simp [grown, member]) (by omega)
  · refine Prod.Lex.left _ _ (unreadCount_lt ?_ (by simpa using seen) ?_ readable)
    · intro other member
      simp [readLines_visited, grown, member]
    · simp [readLines_visited, grown]

end Source

namespace TokenStream

/-- The tokens of the files in a queue. -/
def ofQueue (files : Files) (queue : ImportQueue) : TokenStream :=
  Source.readQueue files queue (Source.fileEnd ⟨""⟩ 0)

/-- The tokens of a text that counts as the content of a path, and of all it imports. -/
def ofText (files : Files) (path : Path) (text : String) : TokenStream :=
  let lines := Source.linesOf path text
  let opened := Source.readLines files ⟨ImportQueue.empty.visit (files.identify path), false⟩ lines
  let later := Source.readQueue files opened.2 (Source.fileEnd path lines.length)
  ⟨opened.1 ++ later.items, later.fileEnd⟩

/-- The paths of the files that could not be read. -/
def unread (stream : TokenStream) : List Path :=
  stream.items.filterMap fun
    | .error ⟨.sourceUnreadable path _, _⟩ => some ⟨path⟩
    | _ => none

/-- The tokens up to the first end of the last file, or the first fault. -/
def allTokens (stream : TokenStream) : Except Diagnostic (List Token) :=
  (stream.items.mapM id).map (· ++ [stream.fileEnd])

end TokenStream

end Satzbau

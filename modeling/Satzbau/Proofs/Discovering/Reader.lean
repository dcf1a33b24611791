import Satzbau.Proofs.Partition.Streams

namespace Satzbau

theorem FileName.same_comm (a b : FileName) : a.same b = b.same a :=
  Bool.beq_comm

theorem FileName.same_iff {a b : FileName} : a.same b = true ↔ a.path.parts = b.path.parts :=
  beq_iff_eq

/-- Adds a file to those that were found, unless it is one of them. -/
def meet (found : List FileName) (name : FileName) : List FileName :=
  if found.any name.same then found else found ++ [name]

/-- The different files among those that were asked for, in the order in which they were first asked for. -/
def discovered (requests : List FileName) : List FileName :=
  requests.foldl meet []

theorem discovered_concat (requests : List FileName) (name : FileName) :
    discovered (requests ++ [name]) = meet (discovered requests) name :=
  List.foldl_append

/-- Whether no two of some files count as one. -/
def Distinct (names : List FileName) : Prop :=
  names.Pairwise fun a b => a.same b = false

theorem Distinct.meet {found : List FileName} (distinct : Distinct found) (name : FileName) :
    Distinct (meet found name) := by
  unfold Satzbau.meet
  split
  · exact distinct
  · rename_i new
    refine List.pairwise_append.mpr ⟨distinct, List.pairwise_singleton .., fun other member last atEnd => ?_⟩
    rw [List.mem_singleton.mp atEnd, FileName.same_comm]
    exact eq_false_of_ne_true (List.any_eq_false.mp (eq_false_of_ne_true new) other member)

theorem distinct_discovered (requests : List FileName) : Distinct (discovered requests) := by
  have behind (found : List FileName) (distinct : Distinct found) : Distinct (requests.foldl meet found) := by
    induction requests generalizing found with
    | nil => exact distinct
    | cons name later ih => exact ih _ (distinct.meet name)
  exact behind [] .nil

/-- Different files are all found. -/
theorem Distinct.discovered_eq {names : List FileName} (distinct : Distinct names) : discovered names = names := by
  have behind (found : List FileName) (new : ∀ name ∈ names, ∀ other ∈ found, name.same other = false) :
      names.foldl Satzbau.meet found = found ++ names := by
    induction names generalizing found with
    | nil => rw [List.append_nil]; rfl
    | cons name later ih =>
      obtain ⟨others, distinct⟩ := List.pairwise_cons.mp distinct
      have met : Satzbau.meet found name = found ++ [name] := by
        rw [Satzbau.meet, List.any_eq_false.mpr fun other member => by simp [new name (List.mem_cons_self ..) other member]]
        rfl
      rw [List.foldl_cons, met, ih distinct, List.append_assoc]
      · rfl
      · intro other member known among
        rcases List.mem_append.mp among with before | atEnd
        · exact new other (List.mem_cons_of_mem _ member) known before
        · rw [List.mem_singleton.mp atEnd, FileName.same_comm]
          exact others other member
  exact behind [] (fun _ _ => nofun)

namespace ImportQueue

/-- A file that was not read waits for its turn, or goes on waiting. -/
theorem enqueue_new {queue : ImportQueue} {name : FileName} (new : queue.hasVisited name = false) (blamed : Option Location) :
    queue.enqueue name blamed = .ok { queue with pending := meet queue.pending name } := by
  unfold enqueue meet isPending
  rw [new, if_neg Bool.false_ne_true]
  split <;> rfl

/-- A queue can be made of any files. Each waits once. -/
theorem ofPaths_eq (files : Files) (paths : List Path) :
    ofPaths files paths = .ok ⟨discovered (paths.map files.identify), []⟩ := by
  have behind (waiting : List FileName) : paths.foldlM (fun queue path => queue.enqueue (files.identify path) none) ⟨waiting, []⟩ =
      (.ok ⟨(paths.map files.identify).foldl meet waiting, []⟩ : Except Diagnostic ImportQueue) := by
    induction paths generalizing waiting with
    | nil => rfl
    | cons path later ih =>
      rw [List.foldlM_cons, enqueue_new rfl]
      exact ih _
  exact behind []

theorem ofPaths_singleton (files : Files) (path : Path) : ofPaths files [path] = .ok ⟨[files.identify path], []⟩ :=
  ofPaths_eq files [path]

end ImportQueue

namespace Source

/-- How far reading has come: what waits to be read, the lines that are left of the open file, whether a block
comment is open and the end of the file that was opened last. -/
structure Reader where
  queue : ImportQueue
  inComment : Bool
  lines : List Lexer.Line
  last : Token

/-- What happens in a step of reading, and the items that come of it. -/
inductive Event
  /-- A file is taken out of the queue. -/
  | opened (name : FileName) (items : List (Except Diagnostic Token))
  /-- A line is read that imports a file. -/
  | imported (keyword : Token) (name : FileName) (items : List (Except Diagnostic Token))
  /-- Any other line is read. -/
  | passed (items : List (Except Diagnostic Token))

namespace Event

def items : Event → List (Except Diagnostic Token)
  | opened _ items | imported _ _ items | passed items => items

def opened? : Event → Option FileName
  | opened name _ => some name
  | imported .. | passed _ => none

def imported? : Event → Option FileName
  | imported _ name _ => some name
  | opened .. | passed _ => none

end Event

/-- The files that are opened, in order. -/
def openedIn (events : List Event) : List FileName :=
  events.filterMap Event.opened?

/-- The files that are imported, in order and as often as they are imported. -/
def importedIn (events : List Event) : List FileName :=
  events.filterMap Event.imported?

theorem openedIn_cons (e : Event) (events : List Event) : openedIn (e :: events) = e.opened?.toList ++ openedIn events := by
  rw [openedIn, List.filterMap_cons]
  cases e.opened? <;> rfl

theorem importedIn_cons (e : Event) (events : List Event) :
    importedIn (e :: events) = e.imported?.toList ++ importedIn events := by
  rw [importedIn, List.filterMap_cons]
  cases e.imported? <;> rfl

namespace Reader

def start (queue : ImportQueue) : Reader :=
  ⟨queue, false, [], fileEnd ⟨""⟩ 0⟩

/-- What it means for reading that a line is read. -/
def event (files : Files) (line : Lexer.Line) (items : List (Except Diagnostic Token)) :
    Except Diagnostic (List Token) → Event
  | .error _ => .passed items
  | .ok tokens =>
    match importTarget? tokens with
    | none => .passed items
    | some (keyword, target) => .imported keyword (files.identify (importPath ⟨line.file⟩ target)) items

/-- A step of reading. When no line is left the next file is opened; one that cannot be read is blamed. -/
def step (files : Files) (r : Reader) : Option (Event × Reader) :=
  match r.lines with
  | line :: later =>
    let (items, next) := readLine files ⟨r.queue, r.inComment⟩ line
    some (event files line items (line.tokens r.inComment).1, ⟨next.queue, next.inComment, later, r.last⟩)
  | [] =>
    r.queue.dequeue?.map fun (name, rest) =>
      match files.text name with
      | .error fault => (.opened name [.error (unreadable name.path fault)], ⟨rest, r.inComment, [], r.last⟩)
      | .ok text => (.opened name [], ⟨rest, false, linesOf name.path text, fileEnd name.path (linesOf name.path text).length⟩)

end Reader

/-- Some steps of reading, with what happens in them. -/
inductive Runs (files : Files) : Reader → List Event → Reader → Prop
  | stay (r : Reader) : Runs files r [] r
  | step {r r' r'' : Reader} {e : Event} {events : List Event} (first : r.step files = some (e, r'))
      (later : Runs files r' events r'') : Runs files r (e :: events) r''

variable {files : Files} {r r' r'' : Reader} {e : Event} {events later : List Event}

theorem Runs.append (first : Runs files r events r') (behind : Runs files r' later r'') : Runs files r (events ++ later) r'' := by
  induction first with
  | stay => exact behind
  | step first _ ih => exact .step first (ih behind)

/-- Steps are the same however often reading is begun, so any that are taken are the first ones of those up to the end. -/
theorem Runs.prefix_of_ended {ended : Reader} (all : Runs files r events ended) (ends : ended.step files = none)
    (some : Runs files r later r') : later <+: events := by
  induction some generalizing events with
  | stay => exact List.nil_prefix
  | step first _ ih =>
    cases all with
    | stay =>
      rw [ends] at first
      contradiction
    | step first' all =>
      rw [first] at first'
      cases first'
      exact (List.prefix_cons_inj _).mpr (ih all)

/-- What becomes of a queue when a line imports a file, and what comes of the line. -/
def imported (queue : ImportQueue) (keyword : Token) (name : FileName) : List (Except Diagnostic Token) × ImportQueue :=
  if queue.hasVisited name then ([.error ⟨.cyclicImport name.path.written, keyword.location⟩], queue)
  else ([], { queue with pending := meet queue.pending name })

/-- What a queue holds when some files were opened and some were asked for: those that were not opened yet. -/
structure Known (queue : ImportQueue) (opened requests : List FileName) : Prop where
  visited : queue.visited = opened.reverse
  found : opened ++ queue.pending = discovered requests

namespace Known

variable {queue rest : ImportQueue} {opened requests : List FileName} {name : FileName}

theorem hasVisited (known : Known queue opened requests) (name : FileName) :
    queue.hasVisited name = opened.any name.same := by
  rw [ImportQueue.hasVisited, known.visited, List.any_reverse]

/-- What is waited for was not opened under any name. -/
theorem new_of_pending (known : Known queue opened requests) (pending : queue.isPending name = true) :
    queue.hasVisited name = false := by
  obtain ⟨other, waits, same⟩ := List.any_eq_true.mp pending
  have distinct := distinct_discovered requests
  rw [← known.found] at distinct
  obtain ⟨_, _, apart⟩ := List.pairwise_append.mp distinct
  rw [known.hasVisited, List.any_eq_false]
  intro before member again
  have both : before.same other = true :=
    FileName.same_iff.mpr ((FileName.same_iff.mp again).symm.trans (FileName.same_iff.mp same))
  rw [apart before member other waits] at both
  contradiction

theorem new_of_dequeued (known : Known queue opened requests) (dequeued : queue.dequeue? = some (name, rest)) :
    queue.hasVisited name = false := by
  obtain ⟨pending, visited⟩ := queue
  cases pending with
  | nil => contradiction
  | cons first others =>
    cases dequeued
    exact known.new_of_pending (List.any_eq_true.mpr ⟨name, List.mem_cons_self .., name.same_self⟩)

theorem dequeue (known : Known queue opened requests) (dequeued : queue.dequeue? = some (name, rest)) :
    Known rest (opened ++ [name]) requests := by
  obtain ⟨pending, visited⟩ := queue
  cases pending with
  | nil => contradiction
  | cons first others =>
    cases dequeued
    have before := known.visited
    exact ⟨by simpa using before, by rw [← known.found, List.append_assoc]; rfl⟩

/-- A file that is imported was found before, or is found last. -/
theorem request (known : Known queue opened requests) (keyword : Token) (name : FileName) :
    Known (imported queue keyword name).2 opened (requests ++ [name]) := by
  have behind : discovered (requests ++ [name]) = meet (opened ++ queue.pending) name := by
    rw [discovered_concat, ← known.found]
  unfold imported
  rw [known.hasVisited]
  split
  · rename_i before
    exact ⟨known.visited, by rw [behind, meet, List.any_append, before, Bool.true_or, if_pos rfl]⟩
  · rename_i new
    refine ⟨known.visited, ?_⟩
    rw [behind]
    unfold meet
    rw [List.any_append, eq_false_of_ne_true new, Bool.false_or]
    split
    · rfl
    · exact (List.append_assoc ..).symm

end Known

/-- Whether a reader has come to a line that imports a file. `next` is where it would be if nothing stood there. -/
inductive Reader.AtImport (files : Files) : Reader → Token → FileName → Reader → Prop
  | intro {queue : ImportQueue} {target : Path} {inComment after : Bool} {line : Lexer.Line} {lines : List Lexer.Line}
      {tokens : List Token} {keyword last : Token} (read : line.tokens inComment = (.ok tokens, after))
      (isImport : importTarget? tokens = some (keyword, target)) :
      AtImport files ⟨queue, inComment, line :: lines, last⟩ keyword (files.identify (importPath ⟨line.file⟩ target))
        ⟨queue, after, lines, last⟩

/-- The steps of reading, one by one. -/
inductive Step (files : Files) : Reader → Event → Reader → Prop
  | opens {queue rest : ImportQueue} {name : FileName} {inComment : Bool} {last : Token} {text : String}
      (dequeued : queue.dequeue? = some (name, rest)) (readable : files.text name = .ok text) :
      Step files ⟨queue, inComment, [], last⟩ (.opened name [])
        ⟨rest, false, linesOf name.path text, fileEnd name.path (linesOf name.path text).length⟩
  | fails {queue rest : ImportQueue} {name : FileName} {inComment : Bool} {last : Token} {fault : ReadFault}
      (dequeued : queue.dequeue? = some (name, rest)) (blocked : files.text name = .error fault) :
      Step files ⟨queue, inComment, [], last⟩ (.opened name [.error (unreadable name.path fault)])
        ⟨rest, inComment, [], last⟩
  | imports {r next : Reader} {keyword : Token} {name : FileName} (atImport : r.AtImport files keyword name next) :
      Step files r (.imported keyword name (imported r.queue keyword name).1)
        { next with queue := (imported r.queue keyword name).2 }
  | passes {queue : ImportQueue} {inComment : Bool} {line : Lexer.Line} {lines : List Lexer.Line} {last : Token}
      (other : ∀ tokens, (line.tokens inComment).1 = .ok tokens → importTarget? tokens = none) :
      Step files ⟨queue, inComment, line :: lines, last⟩ (.passed (readLine files ⟨queue, inComment⟩ line).1)
        ⟨queue, (line.tokens inComment).2, lines, last⟩

variable {queue rest : ImportQueue} {inComment after : Bool} {line : Lexer.Line} {lines : List Lexer.Line}
  {last keyword : Token} {tokens : List Token} {name : FileName} {target : Path}

theorem readLine_import (read : line.tokens inComment = (.ok tokens, after))
    (isImport : importTarget? tokens = some (keyword, target)) :
    readLine files ⟨queue, inComment⟩ line =
      ((imported queue keyword (files.identify (importPath ⟨line.file⟩ target))).1,
        ⟨(imported queue keyword (files.identify (importPath ⟨line.file⟩ target))).2, after⟩) := by
  cases tokens with
  | nil => contradiction
  | cons first others =>
    unfold readLine imported
    rw [read]
    dsimp only
    rw [isImport]
    dsimp only
    cases visited : queue.hasVisited (files.identify (importPath ⟨line.file⟩ target)) with
    | true =>
      rw [ImportQueue.enqueue, visited]
      rfl
    | false =>
      rw [ImportQueue.enqueue_new visited]
      rfl

/-- A line that imports nothing is read in the same way whatever waits to be read, and that goes on waiting. -/
theorem readLine_passed (other : ∀ tokens, (line.tokens inComment).1 = .ok tokens → importTarget? tokens = none)
    (queue queue' : ImportQueue) :
    readLine files ⟨queue, inComment⟩ line =
      ((readLine files ⟨queue', inComment⟩ line).1, ⟨queue, (line.tokens inComment).2⟩) := by
  unfold readLine
  cases read : line.tokens inComment with
  | mk result after =>
    cases result with
    | error fault => rfl
    | ok tokens =>
      cases tokens with
      | nil => rfl
      | cons token others =>
        dsimp only
        rw [other _ (congrArg Prod.fst read)]

theorem Reader.step_of_import (read : line.tokens inComment = (.ok tokens, after))
    (isImport : importTarget? tokens = some (keyword, target)) :
    Reader.step files ⟨queue, inComment, line :: lines, last⟩ =
      some (.imported keyword (files.identify (importPath ⟨line.file⟩ target))
          (imported queue keyword (files.identify (importPath ⟨line.file⟩ target))).1,
        ⟨(imported queue keyword (files.identify (importPath ⟨line.file⟩ target))).2, after, lines, last⟩) := by
  unfold Reader.step
  dsimp only
  rw [readLine_import read isImport, read]
  dsimp only [Reader.event]
  rw [isImport]

theorem Reader.step_of_other (other : ∀ tokens, (line.tokens inComment).1 = .ok tokens → importTarget? tokens = none) :
    Reader.step files ⟨queue, inComment, line :: lines, last⟩ =
      some (.passed (readLine files ⟨queue, inComment⟩ line).1, ⟨queue, (line.tokens inComment).2, lines, last⟩) := by
  unfold Reader.step
  dsimp only
  rw [congrArg Prod.snd (readLine_passed other queue queue)]
  cases result : (line.tokens inComment).1 with
  | error fault => rfl
  | ok tokens =>
    dsimp only [Reader.event]
    rw [other tokens result]

theorem Reader.step_of_readable {text : String} (dequeued : queue.dequeue? = some (name, rest))
    (readable : files.text name = .ok text) :
    Reader.step files ⟨queue, inComment, [], last⟩ = some (.opened name [],
      ⟨rest, false, linesOf name.path text, fileEnd name.path (linesOf name.path text).length⟩) := by
  unfold Reader.step
  dsimp only
  rw [dequeued, Option.map_some, readable]

theorem Reader.step_of_unreadable {fault : ReadFault} (dequeued : queue.dequeue? = some (name, rest))
    (blocked : files.text name = .error fault) :
    Reader.step files ⟨queue, inComment, [], last⟩ =
      some (.opened name [.error (unreadable name.path fault)], ⟨rest, inComment, [], last⟩) := by
  unfold Reader.step
  dsimp only
  rw [dequeued, Option.map_some, blocked]

theorem Reader.step_inv (taken : r.step files = some (e, r')) : Step files r e r' := by
  obtain ⟨queue, inComment, lines, last⟩ := r
  cases lines with
  | nil =>
    obtain ⟨⟨name, rest⟩, dequeued, decided⟩ := Option.map_eq_some_iff.mp taken
    dsimp only at dequeued decided
    split at decided
    · rename_i fault blocked
      cases decided
      exact .fails dequeued blocked
    · rename_i text readable
      cases decided
      exact .opens dequeued readable
  | cons line lines =>
    by_cases isImport : ∃ tokens found, (line.tokens inComment).1 = .ok tokens ∧ importTarget? tokens = some found
    · obtain ⟨tokens, ⟨keyword, target⟩, read, isImport⟩ := isImport
      have whole : line.tokens inComment = (.ok tokens, (line.tokens inComment).2) := Prod.ext read rfl
      rw [step_of_import whole isImport] at taken
      cases taken
      exact .imports (.intro whole isImport)
    · have other (tokens : List Token) (read : (line.tokens inComment).1 = .ok tokens) : importTarget? tokens = none :=
        Option.eq_none_iff_forall_ne_some.mpr fun found same => isImport ⟨tokens, found, read, same⟩
      rw [step_of_other other] at taken
      cases taken
      exact .passes other

theorem Reader.AtImport.step {next : Reader} (atImport : r.AtImport files keyword name next) :
    next.queue = r.queue ∧ r.step files = some (.imported keyword name (imported r.queue keyword name).1,
      { next with queue := (imported r.queue keyword name).2 }) := by
  cases atImport with
  | intro read isImport => exact ⟨rfl, Reader.step_of_import read isImport⟩

namespace Known

variable {opened requests : List FileName}

theorem step (known : Known r.queue opened requests) (taken : Step files r e r') :
    Known r'.queue (opened ++ e.opened?.toList) (requests ++ e.imported?.toList) := by
  cases taken with
  | opens dequeued => simpa [Event.opened?, Event.imported?] using known.dequeue dequeued
  | fails dequeued => simpa [Event.opened?, Event.imported?] using known.dequeue dequeued
  | @imports _ next keyword name => simpa [Event.opened?, Event.imported?] using known.request keyword name
  | passes => simpa [Event.opened?, Event.imported?] using known

/-- What is known of a queue stays known while its files are read. -/
theorem run (known : Known r.queue opened requests) (run : Runs files r events r') :
    Known r'.queue (opened ++ openedIn events) (requests ++ importedIn events) := by
  induction run generalizing opened requests with
  | stay => simpa [openedIn, importedIn] using known
  | step first _ ih =>
    have later := ih (known.step (Reader.step_inv first))
    rwa [List.append_assoc, List.append_assoc, ← openedIn_cons, ← importedIn_cons] at later

end Known

end Source

end Satzbau

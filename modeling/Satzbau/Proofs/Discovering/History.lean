import Satzbau.Proofs.Discovering.Reader

namespace Satzbau.Source

variable {files : Files} {queue : ImportQueue} {events : List Event} {r r' : Reader}

/-- The tokens of lines without those of import lines. -/
def ownTokens (inComment : Bool) : List Lexer.Line → List Token
  | [] => []
  | line :: later =>
    (match (line.tokens inComment).1 with
      | .error _ => []
      | .ok tokens => if (importTarget? tokens).isSome then [] else ended line tokens) ++
      ownTokens (line.tokens inComment).2 later

/-- The tokens of a file without those of import lines. -/
def fileTokens (files : Files) (name : FileName) : List Token :=
  match files.text name with
  | .error _ => []
  | .ok text => ownTokens false (linesOf name.path text)

theorem Reader.items_event (line : Lexer.Line) (items : List (Except Diagnostic Token)) (result : Except Diagnostic (List Token)) :
    (event files line items result).items = items := by
  unfold event
  split
  · rfl
  · split <;> rfl

/-- The lines of an open file are read one after the other. -/
theorem runs_lines (queue : ImportQueue) (inComment : Bool) (lines : List Lexer.Line) (last : Token) :
    ∃ events after, Runs files ⟨queue, inComment, lines, last⟩ events
        ⟨(readLines files ⟨queue, inComment⟩ lines).2, after, [], last⟩ ∧
      events.flatMap Event.items = (readLines files ⟨queue, inComment⟩ lines).1 := by
  induction lines generalizing queue inComment with
  | nil => exact ⟨[], inComment, .stay _, rfl⟩
  | cons line later ih =>
    obtain ⟨events, after, run, behind⟩ := ih (readLine files ⟨queue, inComment⟩ line).2.queue
      (readLine files ⟨queue, inComment⟩ line).2.inComment
    exact ⟨_, after, .step rfl run, by rw [List.flatMap_cons, Reader.items_event, behind]; rfl⟩

/-- Reading what a queue holds comes to an end, and what was read is what came of the steps. -/
theorem readQueue_runs (files : Files) (queue : ImportQueue) (last : Token) {opened requests : List FileName}
    (known : Known queue opened requests) (inComment : Bool) :
    ∃ events ended, Runs files ⟨queue, inComment, [], last⟩ events ended ∧ ended.step files = none ∧
      readQueue files queue last = ⟨events.flatMap Event.items, ended.last⟩ := by
  fun_induction readQueue files queue last generalizing opened requests inComment
  case case1 nothing =>
    exact ⟨[], _, .stay _, by rw [Reader.step, nothing]; rfl, rfl⟩
  case case2 dequeued seen ih =>
    rw [known.new_of_dequeued dequeued] at seen
    contradiction
  case case3 dequeued _ _ blocked later ih =>
    obtain ⟨events, ended, run, ends, read⟩ := ih (known.dequeue dequeued) inComment
    refine ⟨_, ended, .step (Reader.step_of_unreadable dequeued blocked) run, ends, ?_⟩
    rw [List.flatMap_cons, show later = _ from read]
    rfl
  case case4 queue last name rest dequeued _ text readable lines inFile later ih =>
    obtain ⟨first, after, run, items⟩ := runs_lines rest false lines (fileEnd name.path lines.length)
    obtain ⟨events, ended, behind, ends, read⟩ := ih ((known.dequeue dequeued).run run) after
    refine ⟨_, ended, .step (Reader.step_of_readable dequeued readable) (run.append behind), ends, ?_⟩
    rw [List.flatMap_cons, List.flatMap_append, items, show later = _ from read]
    rfl

theorem Runs.fileEnd (run : Runs files r events r') (atEnd : r.last.kind = .fileEnd) : r'.last.kind = .fileEnd := by
  induction run with
  | stay => exact atEnd
  | step first _ ih =>
    refine ih ?_
    cases Reader.step_inv first with
    | opens => rfl
    | fails | passes => exact atEnd
    | imports atImport =>
      cases atImport
      exact atEnd

theorem map_ok_ne_error {tokens : List Token} {fault : Diagnostic} :
    tokens.map .ok ≠ ([.error fault] : List (Except Diagnostic Token)) := by
  cases tokens <;> simp

/-- If nothing goes wrong, the tokens that are read are those of the open file and of the files that are opened. -/
theorem Runs.tokens {ended : Reader} (run : Runs files r events ended) (ends : ended.step files = none) {tokens : List Token}
    (faultless : events.flatMap Event.items = tokens.map .ok) :
    tokens = ownTokens r.inComment r.lines ++ (openedIn events).flatMap (fileTokens files) := by
  induction run generalizing tokens with
  | stay r =>
    obtain ⟨queue, inComment, lines, last⟩ := r
    cases lines with
    | nil => exact List.map_eq_nil_iff.mp faultless.symm
    | cons line lines => contradiction
  | step first later ih =>
    rw [List.flatMap_cons] at faultless
    obtain ⟨here, behind, rfl, itemsHere, itemsBehind⟩ := List.map_eq_append_iff.mp faultless.symm
    rw [ih ends itemsBehind.symm]
    cases Reader.step_inv first with
    | opens dequeued readable =>
      obtain rfl := List.map_eq_nil_iff.mp itemsHere
      simp [ownTokens, openedIn_cons, Event.opened?, fileTokens, readable]
    | fails dequeued blocked => exact absurd itemsHere map_ok_ne_error
    | imports atImport =>
      cases atImport with
      | intro read isImport =>
        have nothing : here = [] := by
          rw [Event.items, imported] at itemsHere
          split at itemsHere
          · exact absurd itemsHere map_ok_ne_error
          · exact List.map_eq_nil_iff.mp itemsHere
        simp [nothing, ownTokens, openedIn_cons, Event.opened?, read, isImport]
    | @passes queue inComment line lines last other =>
      have own : ownTokens inComment (line :: lines) = here ++ ownTokens (line.tokens inComment).2 lines := by
        rw [Event.items] at itemsHere
        cases read : line.tokens inComment with
        | mk result after =>
          cases result with
          | error fault =>
            rw [@readLine_fault files ⟨queue, inComment⟩ line fault after read] at itemsHere
            exact absurd itemsHere map_ok_ne_error
          | ok tokens =>
            have noImport := other tokens (congrArg Prod.fst read)
            rw [@readLine_ended files ⟨queue, inComment⟩ line tokens after read noImport] at itemsHere
            rw [ownTokens, read, (List.map_inj_right fun _ _ => Except.ok.inj).mp itemsHere]
            simp [noImport]
      rw [own, List.append_assoc]
      rfl

/-- Reading some files and all that they import. -/
structure History (files : Files) (paths : List Path) (queue : ImportQueue) (events : List Event) (ended : Reader) : Prop where
  seeded : ImportQueue.ofPaths files paths = .ok queue
  run : Runs files (.start queue) events ended
  ends : ended.step files = none
  /-- There are no other steps than those up to the end. -/
  only : ∀ before r, Runs files (.start queue) before r → before <+: events
  stream : TokenStream.ofQueue files queue = ⟨events.flatMap Event.items, ended.last⟩
  once : Distinct (openedIn events)
  ordered : openedIn events = discovered (paths.map files.identify ++ importedIn events)
  /-- An import of a file that was opened is a fault. -/
  cyclic : ∀ before r keyword name next, Runs files (.start queue) before r → r.AtImport files keyword name next →
    (openedIn before).any name.same = true →
    r.step files = some (.imported keyword name [.error ⟨.cyclicImport name.path.written, keyword.location⟩], next)
  /-- An import of a file that waits changes nothing. -/
  waiting : ∀ before r keyword name next, Runs files (.start queue) before r → r.AtImport files keyword name next →
    r.queue.isPending name = true → r.step files = some (.imported keyword name [], next)
  /-- Any other file that is imported waits behind those that do. -/
  new : ∀ before r keyword name next, Runs files (.start queue) before r → r.AtImport files keyword name next →
    (openedIn before).any name.same = false → r.queue.isPending name = false →
    r.step files = some (.imported keyword name [],
      { next with queue := { r.queue with pending := r.queue.pending ++ [name] } })
  tokens : ∀ all, (TokenStream.ofQueue files queue).allTokens = .ok all →
    all = (openedIn events).flatMap (fileTokens files) ++ [ended.last]
  fileEnd : ended.last.kind = .fileEnd

theorem Reader.pending_of_ended (ends : r.step files = none) : r.queue.pending = [] := by
  obtain ⟨⟨pending, visited⟩, inComment, lines, last⟩ := r
  cases lines with
  | nil =>
    cases pending with
    | nil => rfl
    | cons name later => contradiction
  | cons line lines => contradiction

end Satzbau.Source

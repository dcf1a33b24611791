import Satzbau.Proofs.Respelling.Streams

namespace Satzbau

/-- No block comment goes on into the line of a request or out of it. -/
def LookupRequest.IsOutsideComments (files : Files) (r : LookupRequest) : Prop :=
  ∀ text, files.read ⟨r.statement.file⟩ = .ok text →
    Source.inCommentBehind false ((Source.linesOf ⟨r.statement.file⟩ text).take (r.statement.span.line - 1)) = false ∧
      Source.inCommentBehind false ((Source.linesOf ⟨r.statement.file⟩ text).take r.statement.span.line) = false

/-- What is written into the lines of a tree: just one answer for each request. -/
structure Files.AnsweredBy (answers : String → Declension → Prop) (requests : List LookupRequest)
    (w : Place → Nat → Option Declension) (files : Files) : Prop where
  written : ∀ r ∈ requests, ∃ place, files.resolve ⟨r.statement.file⟩ = .ok place ∧ place.IsProper ∧
    r.statement.file = (FileName.found place).path.written ∧ (w place r.statement.span.line).isSome
  asked : ∀ place number d, w place number = some d → place.IsProper ∧ ∃ r ∈ requests, answers r.word.text d ∧
    r.statement.file = (FileName.found place).path.written ∧ r.statement.span.line = number
  nouns : ∀ place number d, w place number = some d → ∀ form ∈ d.forms, Lexer.IsNoun form
  outside : ∀ r ∈ requests, r.IsOutsideComments files

namespace Source

variable {files files' : Files} {answers : String → Declension → Prop} {requests : List LookupRequest}
  {w : Place → Nat → Option Declension} {queue : ImportQueue} {last : Token}

/-- What is read of a file stands in it. -/
theorem linesOf_located {progress : Progress} {path : Path} {text : String} {t : Token}
    (member : .ok t ∈ (readLines files progress (linesOf path text)).1) : t.file = path.written := by
  obtain ⟨line, among, file, _⟩ := readLines_located member
  obtain ⟨index, there⟩ := List.mem_iff_getElem?.mp among
  rw [file, (linesOf_getElem? there).1]

/-- A file that was not read has the path of none that was. -/
theorem path_ne_of_new {name other : FileName} (new : ¬queue.hasVisited name = true) (visited : other ∈ queue.visited) :
    name.path.written ≠ other.path.written := by
  intro same
  refine new (List.any_eq_true.mpr ⟨other, visited, ?_⟩)
  have samePath : name.path = other.path := congrArg Path.mk same
  unfold FileName.same
  rw [samePath]
  exact FileName.same_self other

theorem visited_of_dequeued {rest : ImportQueue} {name other : FileName} (dequeued : queue.dequeue? = some (name, rest))
    (visited : other ∈ queue.visited) : other ∈ rest.visited := by
  rw [(ImportQueue.dequeue?_eq_some dequeued).2]
  exact List.mem_cons_of_mem _ visited

theorem visited_of_opened {rest : ImportQueue} {name other : FileName} (dequeued : queue.dequeue? = some (name, rest))
    (files : Files) (lines : List Lexer.Line) (visited : other ∈ queue.visited) :
    other ∈ (readLines files ⟨rest, false⟩ lines).2.visited := by
  rw [readLines_visited]
  exact visited_of_dequeued dequeued visited

/-- What is read stands in files of the tree, and in none that was read before. -/
theorem readQueue_located (files : Files) (queue : ImportQueue) (last : Token) :
    ∀ t, .ok t ∈ (readQueue files queue last).items →
      (∃ entry ∈ files.contents, t.file = (FileName.found entry.1).path.written) ∧
        ∀ other ∈ queue.visited, t.file ≠ other.path.written := by
  fun_induction readQueue files queue last
  case case1 =>
    intro t impossible
    contradiction
  case case2 dequeued _ ih =>
    intro t member
    obtain ⟨inTree, new⟩ := ih t member
    exact ⟨inTree, fun other visited => new other (visited_of_dequeued dequeued visited)⟩
  case case3 dequeued _ _ _ later ih =>
    intro t member
    obtain impossible | inLater := List.mem_cons.mp member
    · contradiction
    · obtain ⟨inTree, new⟩ := ih t inLater
      exact ⟨inTree, fun other visited => new other (visited_of_dequeued dequeued visited)⟩
  case case4 dequeued new _ readable lines opened later ih =>
    intro t member
    obtain inFile | inLater := List.mem_append.mp member
    · have file := linesOf_located inFile
      obtain ⟨entry, inTree, rfl⟩ := Files.mem_of_text readable
      exact ⟨⟨entry, inTree, file⟩, fun other visited => file ▸ path_ne_of_new new visited⟩
    · obtain ⟨inTree, new⟩ := ih t inLater
      exact ⟨inTree, fun other visited => new other (visited_of_opened dequeued files lines visited)⟩

/-- What is read ends with the end of a line or with a fault, if there is anything, and the last token ends the input. -/
theorem readQueue_closed (files : Files) (queue : ImportQueue) (last : Token) (id : NodeId) (atEnd : last.kind = .fileEnd) :
    ((readQueue files queue last).items = [] ∨
      ∃ close, Parser.State.Closed close ⟨(readQueue files queue last).items, id⟩) ∧
      (readQueue files queue last).fileEnd.kind = .fileEnd := by
  fun_induction readQueue files queue last
  case case1 => exact ⟨Or.inl rfl, atEnd⟩
  case case2 ih => exact ih atEnd
  case case3 later ih =>
    obtain ⟨closed, ends⟩ := ih atEnd
    exact ⟨closed_append (Or.inr ⟨_, closed_fault _ id⟩) closed, ends⟩
  case case4 lines opened later ih =>
    obtain ⟨closed, ends⟩ := ih rfl
    exact ⟨closed_append (readLines_closed _ _ id) closed, ends⟩

/-- What is written into the lines of a file, as it is read. -/
theorem Answered.ofFile (known : files.AnsweredBy answers requests w) {place : Place} (proper : place.IsProper)
    {text : String} (readable : files.textAt place = .ok text) (progress : Progress) (noComment : progress.inComment = false)
    {more : List (Except Diagnostic Token)}
    (here : ∀ r ∈ requests, r.statement.file = (FileName.found place).path.written →
      r.OccursIn ((readLines files progress (linesOf (FileName.found place).path text)).1 ++ more) ∧
        .ok r.statement ∉ more) :
    Answered answers requests (w place) files progress (linesOf (FileName.found place).path text) more := by
  have atPlace {r : LookupRequest} (asked : r ∈ requests) (file : r.statement.file = (FileName.found place).path.written) :
      files.resolve ⟨r.statement.file⟩ = .ok place ∧ (w place r.statement.span.line).isSome := by
    obtain ⟨other, resolved, proper', file', written⟩ := known.written r asked
    obtain rfl := FileName.path_injective proper' proper (congrArg Path.mk (file'.symm.trans file))
    exact ⟨resolved, written⟩
  have inFile {line : Lexer.Line} (member : line ∈ linesOf (FileName.found place).path text) :
      line.file = (FileName.found place).path.written := by
    obtain ⟨index, there⟩ := List.mem_iff_getElem?.mp member
    exact (linesOf_getElem? there).1
  refine ⟨nodup_numbers _ _, fun line member unwritten r asked file onLine => ?_, fun line _ d => known.nouns place _ d,
    fun line member d written => ?_, fun index line there written => ?_⟩
  · have written := (atPlace asked (file.trans (inFile member))).2
    rw [onLine, unwritten] at written
    contradiction
  · obtain ⟨_, r, asked, answer, file, onLine⟩ := known.asked place _ d written
    obtain ⟨occurs, apart⟩ := here r asked file
    exact ⟨r, asked, answer, file.trans (inFile member).symm, onLine, occurs, apart⟩
  · obtain ⟨d, written⟩ := Option.ne_none_iff_exists'.mp written
    obtain ⟨_, r, asked, _, file, onLine⟩ := known.asked place _ d written
    have read : files.read ⟨r.statement.file⟩ = .ok text := by
      unfold Files.read
      rw [(atPlace asked file).1]
      exact readable
    have outside := known.outside r asked text read
    rw [onLine, (linesOf_getElem? there).2, Nat.add_sub_cancel, file] at outside
    rw [noComment]
    exact outside

/-- The files of a queue are read as before but for the declensions that are spelled out. -/
theorem readQueue_respelled (proper : files.IsProper) (respelled : files.RespelledBy w files')
    (known : files.AnsweredBy answers requests w)
    (occur : ∀ r ∈ requests, (∀ other ∈ queue.visited, r.statement.file ≠ other.path.written) →
      r.OccursIn (readQueue files queue last).items) :
    Respelled answers (fun t => ∃ r ∈ requests, r.statement = t) (readQueue files queue last).items
        (readQueue files' queue last).items ∧
      (readQueue files' queue last).fileEnd = (readQueue files queue last).fileEnd := by
  revert occur
  fun_induction readQueue files queue last
  case case1 nothing =>
    intro _
    rw [readQueue_of_none files' nothing]
    exact ⟨.nil, rfl⟩
  case case2 dequeued seen ih =>
    intro occur
    rw [readQueue_of_dequeued files' dequeued, if_pos seen]
    exact ih fun r asked new => occur r asked fun other visited => new other (visited_of_dequeued dequeued visited)
  case case3 name rest dequeued new fault unreadable later ih =>
    intro occur
    rw [readQueue_of_dequeued files' dequeued, if_neg new, respelled.text_error unreadable]
    dsimp only
    obtain ⟨others, fileEnd⟩ := ih fun r asked new =>
      @LookupRequest.OccursIn.of_append r [_] _
        (occur r asked fun other visited => new other (visited_of_dequeued dequeued visited)) (by simp)
    exact ⟨.keep (fun _ impossible => by contradiction) others, fileEnd⟩
  case case4 name rest dequeued new text readable lines opened later ih =>
    intro occur
    obtain ⟨entry, inTree, rfl⟩ := Files.mem_of_text readable
    have opens : FileName.found entry.1 ∈ opened.2.visited := by
      rw [readLines_visited, (ImportQueue.dequeue?_eq_some dequeued).2]
      exact List.mem_cons_self ..
    have writable : Writable (w entry.1) := fun number d written => 
      isContent_text fun form member => (known.nouns _ _ d written form member).noEnd
    have related := linesOf_respelled writable (FileName.found entry.1).path text
    obtain ⟨first, sameQueue⟩ := readLines_respelled (funext respelled.identify) related
      (Answered.ofFile known (proper entry inTree) readable ⟨rest, false⟩ rfl fun r asked file =>
        ⟨occur r asked fun other visited => file ▸ path_ne_of_new new visited, fun member =>
          (readQueue_located files opened.2 _ _ member).2 _ opens file⟩)
    obtain ⟨others, fileEnd⟩ := ih fun r asked newer =>
      (occur r asked fun other visited => newer other (visited_of_opened dequeued files lines visited)).of_append fun member =>
        newer _ opens (linesOf_located member)
    rw [readQueue_of_dequeue files' dequeued (Bool.eq_false_iff.mpr new) (respelled.text_ok readable), sameQueue,
      ← related.length_eq]
    exact ⟨first.append others, fileEnd⟩

end Source

/-- Spelling out makes lines no shorter. -/
theorem Respelled.length_le {answers : String → Declension → Prop} {asked : Token → Prop}
    {items items' : List (Except Diagnostic Token)} (respelled : Respelled answers asked items items') :
    items.length ≤ items'.length := by
  induction respelled with
  | nil => exact Nat.le_refl _
  | keep _ _ ih => exact Nat.succ_le_succ ih
  | spell written _ _ _ _ _ reads _ _ ih =>
    have count := congrArg List.length reads
    simp only [List.length_map, Declension.reading, Forms.reading, List.length_cons, List.length_append, List.length_nil] at count
    cases written
    simp only [Parser.closedBy, List.length_append, List.length_map, List.length_cons, List.length_nil]
    omega

namespace TokenStream

variable {files files' : Files} {queue : ImportQueue} {p : Program}

/-- Every request of a program that was read of files has a line of its own. -/
theorem occursIn_of_ofQueue (parsed : (ofQueue files queue).program = .ok p) :
    ∀ r ∈ p.lookupRequests, r.OccursIn (ofQueue files queue).items := by
  obtain ⟨t, run⟩ := program_eq_ok.mp parsed
  obtain ⟨closed, atEnd⟩ := Source.readQueue_closed files queue (Source.fileEnd ⟨""⟩ 0) 0 rfl
  rcases closed with empty | ⟨close, closed⟩
  · exact @Parser.occursIn_of_program ⟨[], _⟩ _ t (.ok (Source.fileEnd ⟨""⟩ 0)) atEnd _ p (Or.inl empty) run
  · exact @Parser.occursIn_of_program ⟨[], _⟩ _ t close atEnd _ p (Or.inr closed) run

/-- The files of a tree in which the requests of a program are answered are read as that program, with all
declensions spelled out. -/
theorem program_respelled {answers : String → Declension → Prop} {w : Place → Nat → Option Declension}
    (proper : files.IsProper) (respelled : files.RespelledBy w files') (known : files.AnsweredBy answers p.lookupRequests w)
    (parsed : (ofQueue files queue).program = .ok p) :
    ∃ p', (ofQueue files' queue).program = .ok p' ∧ p.Respelled answers p' := by
  have occur := occursIn_of_ofQueue parsed
  obtain ⟨_, atEnd⟩ := Source.readQueue_closed files queue (Source.fileEnd ⟨""⟩ 0) 0 rfl
  obtain ⟨t, run⟩ := program_eq_ok.mp parsed
  obtain ⟨related, sameEnd⟩ := Source.readQueue_respelled proper respelled known fun r asked _ => occur r asked
  obtain ⟨p', t', run', spelled⟩ :=
    @Parser.program_respelled ⟨[], _⟩ _ _ atEnd _ _ related.length_le ⟨_, 0⟩ t _ related p run fun r asked => ⟨r, asked, rfl⟩
  refine ⟨p', program_eq_ok.mpr ⟨t', ?_⟩, spelled⟩
  rw [show (ofQueue files' queue).fileEnd = _ from sameEnd]
  exact run'

end TokenStream

end Satzbau

import Satzbau.Proofs.Repeating.Appending
import Satzbau.Proofs.Respelling.Tree

namespace Satzbau

open Satzbau.Parser

variable {r : LookupRequest} {items later : List (Except Diagnostic Token)}

/-- What a request is written with stands on one line. -/
theorem LookupRequest.WrittenAs.inside {tokens : List Token} (written : r.WrittenAs tokens) :
    ∀ t ∈ tokens, t.kind ≠ .lineEnd := by
  obtain ⟨statement, asks, opens, noun, closes⟩ := written
  simp [statement, asks, opens, noun, closes]

/-- Two lines at the same front are the same line. -/
theorem closedBy_inj {tokens tokens' : List Token} {lineEnd lineEnd' : Token} {rest rest' : List (Except Diagnostic Token)}
    (inside : ∀ t ∈ tokens, t.kind ≠ .lineEnd) (inside' : ∀ t ∈ tokens', t.kind ≠ .lineEnd)
    (ends : lineEnd.kind = .lineEnd) (ends' : lineEnd'.kind = .lineEnd)
    (same : closedBy lineEnd tokens ++ rest = closedBy lineEnd' tokens' ++ rest') :
    tokens = tokens' ∧ lineEnd = lineEnd' := by
  induction tokens generalizing tokens' with
  | nil =>
    cases tokens' with
    | nil =>
      cases same
      exact ⟨rfl, rfl⟩
    | cons first others =>
      cases same
      exact absurd ends (inside' _ (List.mem_cons_self ..))
  | cons first others ih =>
    cases tokens' with
    | nil =>
      cases same
      exact absurd ends' (inside _ (List.mem_cons_self ..))
    | cons first' others' =>
      obtain ⟨sameFirst, sameLater⟩ := List.cons.inj same
      cases sameFirst
      obtain ⟨rfl, rfl⟩ := ih (fun t member => inside t (List.mem_cons_of_mem _ member))
        (fun t member => inside' t (List.mem_cons_of_mem _ member)) sameLater
      exact ⟨rfl, rfl⟩

/-- A request begins its line. -/
theorem LookupRequest.WrittenAs.closedBy {tokens : List Token} (written : r.WrittenAs tokens) (lineEnd : Token) :
    ∃ others, closedBy lineEnd tokens = .ok r.statement :: others := by
  cases written
  exact ⟨_, rfl⟩

theorem LookupRequest.OccursIn.mem (occurs : r.OccursIn items) : .ok r.statement ∈ items := by
  obtain ⟨before, tokens, lineEnd, after, rfl, _, written, _⟩ := occurs
  obtain ⟨others, first⟩ := written.closedBy lineEnd
  rw [first]
  simp

/-- A request that is not among the first items occurs behind them. -/
theorem LookupRequest.OccursIn.of_append (occurs : r.OccursIn (items ++ later)) (apart : .ok r.statement ∉ items) :
    r.OccursIn later := by
  obtain ⟨before, tokens, lineEnd, after, same, ends, written, atLineEnd⟩ := occurs
  rcases List.append_eq_append_iff.mp same with ⟨middle, rfl, rfl⟩ | ⟨middle, rfl, others⟩
  · exact ⟨middle, tokens, lineEnd, after, rfl, ends.of_append, written, atLineEnd⟩
  · cases middle with
    | nil => exact ⟨[], tokens, lineEnd, after, others.symm, endsWithLine_nil, written, atLineEnd⟩
    | cons item middle =>
      refine absurd ?_ apart
      obtain ⟨rest, first⟩ := written.closedBy lineEnd
      rw [first] at others
      rw [(List.cons.inj others).1]
      simp

/-- A request that is not behind the first line has that line. -/
theorem LookupRequest.OccursIn.writtenAs {tokens : List Token} {lineEnd : Token}
    (occurs : r.OccursIn (Parser.closedBy lineEnd tokens ++ later)) (apart : .ok r.statement ∉ later)
    (inside : ∀ t ∈ tokens, t.kind ≠ .lineEnd) (ends : lineEnd.kind = .lineEnd) : r.WrittenAs tokens := by
  obtain ⟨before, tokens', lineEnd', after, same, endsBefore, written, atLineEnd⟩ := occurs
  obtain ⟨rest, first⟩ := written.closedBy lineEnd'
  have within (others : List (Except Diagnostic Token)) : .ok r.statement ∈ others ++ (Parser.closedBy lineEnd' tokens' ++ after) := by
    rw [first]
    simp
  rcases List.append_eq_append_iff.mp same with ⟨middle, _, rfl⟩ | ⟨middle, cut, whole⟩
  · exact absurd (within middle) apart
  · cases middle with
    | nil =>
      rw [List.nil_append] at whole
      exact absurd (whole ▸ within []) apart
    | cons item middle =>
      have nothing : before = [] := by
        cases last : before.getLast? with
        | none => exact List.getLast?_eq_none_iff.mp last
        | some close =>
          have isEnd := endsBefore close last
          have among : close ∈ tokens.map Except.ok := by
            have short := congrArg List.dropLast cut
            rw [Parser.closedBy, List.map_append, List.map_singleton, List.dropLast_concat,
              List.dropLast_append_cons] at short
            rw [short]
            exact List.mem_append_left _ (List.mem_of_getLast? last)
          obtain ⟨token, member, rfl⟩ := List.mem_map.mp among
          exact absurd (beq_iff_eq.mp isEnd) (inside token member)
      rw [nothing, List.nil_append] at cut
      rw [← cut] at whole
      obtain ⟨rfl, _⟩ := closedBy_inj written.inside inside atLineEnd ends whole
      exact written

variable {answers : String → Declension → Prop} {asked : Token → Prop} {items' later' : List (Except Diagnostic Token)}

theorem Respelled.append (first : Respelled answers asked items items') (behind : Respelled answers asked later later') :
    Respelled answers asked (items ++ later) (items' ++ later') := by
  induction first with
  | nil => exact behind
  | keep other _ ih => exact .keep other ih
  | spell written ends answered same file line reads ends' _ ih =>
    rw [List.append_assoc, List.append_assoc]
    exact .spell written ends answered same file line reads ends' ih

/-- Items among which nothing is asked for stay. -/
theorem Respelled.refl (others : ∀ t, .ok t ∈ items → ¬asked t) : Respelled answers asked items items := by
  induction items with
  | nil => exact .nil
  | cons item rest ih =>
    refine .keep (fun t same => others t ?_) (ih fun t member => others t (List.mem_cons_of_mem _ member))
    rw [← same]
    exact List.mem_cons_self ..

/-- A line of a text and the line that it becomes. -/
structure LineRespelled (v : Nat → Option Declension) (line line' : Lexer.Line) : Prop where
  file : line'.file = line.file
  number : line'.number = line.number
  kept : v line.number = none → line'.text = line.text
  spelled : ∀ d, v line.number = some d → ∃ physical, line'.text = withoutLineEnd (replaceContent d.text.toList physical)

theorem forall₂_mapIdx {α β γ : Type} {R : β → γ → Prop} {f : Nat → α → β} {g : Nat → α → γ} (xs : List α)
    (related : ∀ index x, R (f index x) (g index x)) : List.Forall₂ R (xs.mapIdx f) (xs.mapIdx g) := by
  induction xs generalizing f g with
  | nil => exact .nil
  | cons x later ih =>
    rw [List.mapIdx_cons, List.mapIdx_cons]
    exact .cons (related 0 x) (ih fun index => related (index + 1))

namespace Source

theorem linesOf_eq_mapIdx (path : Path) (text : String) : linesOf path text =
    (linesWithEnds text.toList).mapIdx fun index line => ⟨path.written, index + 1, withoutLineEnd line⟩ := by
  refine List.ext_getElem? fun index => ?_
  rw [linesOf, textLines, List.getElem?_mapIdx, List.getElem?_mapIdx, List.getElem?_map, Option.map_map]
  rfl

theorem linesOf_respelled {v : Nat → Option Declension} (writable : Writable v) (path : Path) (text : String) :
    List.Forall₂ (LineRespelled v) (linesOf path text) (linesOf path (respell v text)) := by
  rw [linesOf_eq_mapIdx, linesOf_eq_mapIdx, linesWithEnds_respell writable, List.mapIdx_mapIdx]
  refine forall₂_mapIdx _ fun index line => ⟨rfl, rfl, fun none => ?_, fun d some => ⟨line, ?_⟩⟩
  · simp only [Function.comp_apply, respelledLine, show v (index + 1) = .none from none]
  · simp only [Function.comp_apply, respelledLine, show v (index + 1) = .some d from some]

/-- The line with some index. -/
theorem linesOf_getElem? {path : Path} {text : String} {index : Nat} {line : Lexer.Line}
    (there : (linesOf path text)[index]? = some line) : line.file = path.written ∧ line.number = index + 1 := by
  rw [linesOf, List.getElem?_mapIdx] at there
  obtain ⟨body, _, rfl⟩ := Option.map_eq_some_iff.mp there
  exact ⟨rfl, rfl⟩

theorem nodup_numbers (path : Path) (text : String) : ((linesOf path text).map Lexer.Line.number).Nodup := by
  have numbers : (linesOf path text).map Lexer.Line.number = List.range' 1 (textLines text.toList).length := by
    refine List.ext_getElem (by simp [linesOf]) fun index _ _ => ?_
    simp [linesOf, Nat.add_comm]
  rw [numbers]
  exact List.nodup_range'

variable {files files' : Files} {progress : Progress} {line : Lexer.Line}

theorem readLine_tokens {tokens : List Token} {inComment : Bool}
    (read : line.tokens progress.inComment = (.ok tokens, inComment)) (nonempty : tokens ≠ [])
    (noImport : importTarget? tokens = none) :
    readLine files progress line = (Parser.closedBy (line.lineEnd tokens) tokens, ⟨progress.queue, inComment⟩) := by
  unfold readLine
  rw [read]
  cases tokens with
  | nil => contradiction
  | cons first others =>
    dsimp only
    rw [noImport]
    rfl

/-- A line has no items, or a fault, or its tokens and its end. -/
theorem readLine_cases (files : Files) (progress : Progress) (line : Lexer.Line) :
    (readLine files progress line).1 = [] ∨ (∃ fault, (readLine files progress line).1 = [.error fault]) ∨
      ∃ tokens, (line.tokens progress.inComment).1 = .ok tokens ∧
        (readLine files progress line).1 = Parser.closedBy (line.lineEnd tokens) tokens ∧
        (readLine files progress line).2 = ⟨progress.queue, (line.tokens progress.inComment).2⟩ := by
  unfold readLine
  split
  · exact Or.inr (Or.inl ⟨_, rfl⟩)
  · exact Or.inl rfl
  · rename_i tokens inComment _ read
    split
    · exact Or.inr (Or.inr ⟨tokens, by rw [read], rfl, by rw [read]⟩)
    · split
      · exact Or.inr (Or.inl ⟨_, rfl⟩)
      · exact Or.inl rfl

theorem inComment_readLine (files : Files) (progress : Progress) (line : Lexer.Line) :
    (readLine files progress line).2.inComment = (line.tokens progress.inComment).2 := by
  unfold readLine
  split
  · rename_i read
    rw [read]
  · rename_i read
    rw [read]
  · rename_i read
    rw [read]
    split
    · rfl
    · split <;> rfl

/-- What is read of a line stands on it. -/
theorem readLine_located {t : Token} (member : .ok t ∈ (readLine files progress line).1) :
    t.file = line.file ∧ t.span.line = line.number := by
  rcases readLine_cases files progress line with empty | ⟨fault, single⟩ | ⟨tokens, read, items, _⟩
  · rw [empty] at member
    contradiction
  · rw [single] at member
    cases List.mem_singleton.mp member
  · rw [items] at member
    obtain ⟨u, inside, same⟩ := List.mem_map.mp member
    cases same
    obtain inLine | atEnd := List.mem_append.mp inside
    · exact Lexer.tokensFrom_located line 1 progress.inComment line.text read t inLine
    · rw [List.mem_singleton.mp atEnd]
      exact ⟨rfl, rfl⟩

theorem readLines_located {lines : List Lexer.Line} {t : Token} (member : .ok t ∈ (readLines files progress lines).1) :
    ∃ line ∈ lines, t.file = line.file ∧ t.span.line = line.number := by
  induction lines generalizing progress with
  | nil => contradiction
  | cons line later ih =>
    obtain inLine | inLater := List.mem_append.mp member
    · exact ⟨line, List.mem_cons_self .., readLine_located inLine⟩
    · obtain ⟨other, among, located⟩ := ih inLater
      exact ⟨other, List.mem_cons_of_mem _ among, located⟩

/-- A line is read alike in a tree where paths have the same names. -/
theorem readLine_of_identify (same : files'.identify = files.identify) (progress : Progress) (line : Lexer.Line) :
    readLine files' progress line = readLine files progress line := by
  unfold readLine
  rw [same]

theorem readLines_of_identify (same : files'.identify = files.identify) (progress : Progress) (lines : List Lexer.Line) :
    readLines files' progress lines = readLines files progress lines := by
  induction lines generalizing progress with
  | nil => rfl
  | cons line later ih =>
    rw [readLines, readLines, readLine_of_identify same]
    dsimp only
    rw [ih]

/-- A line with a request that stands nowhere behind it. -/
theorem readLine_request (occurs : r.OccursIn ((readLine files progress line).1 ++ later)) (apart : .ok r.statement ∉ later) :
    ∃ tokens, r.WrittenAs tokens ∧ r.statement.Lexed ∧
      (readLine files progress line).1 = Parser.closedBy (line.lineEnd tokens) tokens ∧
      (readLine files progress line).2 = ⟨progress.queue, (line.tokens progress.inComment).2⟩ := by
  rcases readLine_cases files progress line with empty | ⟨fault, single⟩ | ⟨tokens, read, items, next⟩
  · rw [empty] at occurs
    exact absurd occurs.mem apart
  · rw [single] at occurs
    rcases List.mem_cons.mp occurs.mem with same | inLater
    · contradiction
    · exact absurd inLater apart
  · rw [items] at occurs
    have notEnd := Lexer.tokensFrom_not_end line 1 progress.inComment line.text read
    have written := occurs.writtenAs apart (fun t member ends => notEnd t member (Or.inr ends)) rfl
    refine ⟨tokens, written, readLine_lexed files progress line _ ?_, items, next⟩
    obtain ⟨others, first⟩ := written.closedBy (line.lineEnd tokens)
    rw [items, first]
    exact List.mem_cons_self ..

/-- A line with the text of a declension. -/
theorem readLine_declension {d : Declension} (nouns : ∀ form ∈ d.forms, Lexer.IsNoun form) {physical : List Char}
    (text : line.text = withoutLineEnd (replaceContent d.text.toList physical)) (files : Files) (queue : ImportQueue) :
    ∃ statement tokens, statement.kind = .keyword .declension ∧ statement.text = Keyword.declension.spelling ∧
      tokens.map Token.reading = d.reading ∧ readLine files ⟨queue, false⟩ line =
        (Parser.closedBy (line.lineEnd (statement :: tokens)) (statement :: tokens), ⟨queue, false⟩) := by
  obtain ⟨indentation, ending, spelled, blank, blank'⟩ :=
    withoutLineEnd_replaceContent (isContent_text fun form member => (nouns form member).noEnd) physical
  have behind : line.Reads ending [] := List.append_nil ending ▸ .blanks blank' .nil
  obtain ⟨tokens, read, reading⟩ := Lexer.Line.Reads.blanks blank (.declension nouns behind) 1
  rw [← spelled, ← text] at read
  obtain ⟨statement, others, rfl, kind, same, reads⟩ := Parser.cons_of_reading reading
  refine ⟨statement, others, kind, same, reads, readLine_tokens read (List.cons_ne_nil _ _) ?_⟩
  unfold importTarget?
  split
  · rename_i split
    rw [← (List.cons.inj split).1, kind]
  · rfl

/-- Whether a block comment is open behind some lines. -/
def inCommentBehind (inComment : Bool) (lines : List Lexer.Line) : Bool :=
  lines.foldl (fun inComment line => (line.tokens inComment).2) inComment

/-- Requests among the items of some lines and of more behind them, and the answers that are written into the
lines. -/
structure Answered (answers : String → Declension → Prop) (requests : List LookupRequest)
    (v : Nat → Option Declension) (files : Files) (progress : Progress) (lines : List Lexer.Line)
    (more : List (Except Diagnostic Token)) : Prop where
  distinct : (lines.map Lexer.Line.number).Nodup
  kept : ∀ line ∈ lines, v line.number = none → ∀ r ∈ requests, r.statement.file = line.file →
    r.statement.span.line ≠ line.number
  nouns : ∀ line ∈ lines, ∀ d, v line.number = some d → ∀ form ∈ d.forms, Lexer.IsNoun form
  answered : ∀ line ∈ lines, ∀ d, v line.number = some d → ∃ r ∈ requests, answers r.word.text d ∧
    r.statement.file = line.file ∧ r.statement.span.line = line.number ∧
    r.OccursIn ((readLines files progress lines).1 ++ more) ∧ .ok r.statement ∉ more
  outside : ∀ index line, lines[index]? = some line → v line.number ≠ none →
    inCommentBehind progress.inComment (lines.take index) = false ∧
      inCommentBehind progress.inComment (lines.take (index + 1)) = false

variable {answers : String → Declension → Prop} {requests : List LookupRequest} {v : Nat → Option Declension}
  {lines lines' : List Lexer.Line} {more : List (Except Diagnostic Token)}

/-- What stands on a line stands on no other one. -/
theorem not_mem_readLines {t : Token} (distinct : ((line :: lines).map Lexer.Line.number).Nodup)
    (onLine : t.span.line = line.number) : .ok t ∉ (readLines files progress lines).1 := by
  intro member
  obtain ⟨other, among, _, same⟩ := readLines_located member
  refine (List.nodup_cons.mp distinct).1 ?_
  rw [← onLine, same]
  exact List.mem_map_of_mem among

theorem Answered.tail (known : Answered answers requests v files progress (line :: lines) more) :
    Answered answers requests v files (readLine files progress line).2 lines more := by
  refine ⟨(List.nodup_cons.mp known.distinct).2, fun other member => known.kept other (List.mem_cons_of_mem _ member),
    fun other member => known.nouns other (List.mem_cons_of_mem _ member), fun other member d written => ?_,
    fun index other there written => ?_⟩
  · obtain ⟨r, asked, answer, file, onLine, occurs, apart⟩ := known.answered other (List.mem_cons_of_mem _ member) d written
    refine ⟨r, asked, answer, file, onLine, ?_, apart⟩
    rw [readLines, List.append_assoc] at occurs
    refine occurs.of_append fun among => ?_
    have same := (readLine_located among).2
    rw [onLine] at same
    exact (List.nodup_cons.mp known.distinct).1 (same ▸ List.mem_map_of_mem member)
  · rw [inComment_readLine]
    exact known.outside (index + 1) other there written

/-- Declensions are read where answers to requests were written into lines, and nothing else is read otherwise. -/
theorem readLines_respelled (identify : files'.identify = files.identify)
    (related : List.Forall₂ (LineRespelled v) lines lines')
    (known : Answered answers requests v files progress lines more) :
    Respelled answers (fun t => ∃ r ∈ requests, r.statement = t) (readLines files progress lines).1
        (readLines files' progress lines').1 ∧
      (readLines files' progress lines').2 = (readLines files progress lines).2 := by
  induction related generalizing progress with
  | nil => exact ⟨.nil, rfl⟩
  | @cons line line' lines lines' first _ ih =>
    obtain ⟨others, queue⟩ := ih known.tail
    rw [readLines, readLines]
    cases written : v line.number with
    | none =>
      have same : line' = line := by
        obtain ⟨file, number, kept⟩ := first
        cases line
        cases line'
        cases file
        cases number
        cases kept written
        rfl
      rw [same, readLine_of_identify identify]
      refine ⟨.append (.refl ?_) others, queue⟩
      rintro t member ⟨r, asked, rfl⟩
      obtain ⟨file, onLine⟩ := readLine_located member
      exact known.kept line (List.mem_cons_self ..) written r asked file onLine
    | some d =>
      obtain ⟨r, asked, answer, file, onLine, occurs, apart⟩ := known.answered line (List.mem_cons_self ..) d written
      obtain ⟨noComment, noComment'⟩ := known.outside 0 line rfl (by rw [written]; exact Option.some_ne_none d)
      have begins : progress = ⟨progress.queue, false⟩ := congrArg (Progress.mk progress.queue) noComment
      have goesOn : (line.tokens progress.inComment).2 = false := noComment'
      rw [readLines, List.append_assoc] at occurs
      have nowhere : .ok r.statement ∉ (readLines files (readLine files progress line).2 lines).1 ++ more := by
        rw [List.mem_append, not_or]
        exact ⟨not_mem_readLines known.distinct onLine, apart⟩
      obtain ⟨tokens, asks, lexed, items, next⟩ := readLine_request occurs nowhere
      obtain ⟨physical, text⟩ := first.spelled d written
      obtain ⟨statement, tokens', kind, spelling, reads, read⟩ :=
        readLine_declension (known.nouns line (List.mem_cons_self ..) d written) text files' progress.queue
      have isStatement : r.statement.kind = .keyword .declension := by
        cases asks
        assumption
      have same : r.statement.Same statement := ⟨isStatement.trans kind.symm, (lexed.text_of_keyword isStatement).trans spelling.symm⟩
      have located : .ok statement ∈ (readLine files' ⟨progress.queue, false⟩ line').1 := by
        rw [read]
        exact List.mem_cons_self ..
      obtain ⟨file', onLine'⟩ := readLine_located located
      rw [goesOn] at next
      have whole : readLine files progress line =
          (Parser.closedBy (line.lineEnd tokens) tokens, ⟨progress.queue, false⟩) := Prod.ext items next
      have whole' : readLine files' progress line' = _ := (congrArg (readLine files' · line') begins).trans read
      rw [next] at others queue
      rw [whole, whole']
      refine ⟨.spell asks rfl answer same ?_ ?_ reads rfl others, queue⟩
      · rw [file', first.file, file]
      · rw [onLine', first.number, onLine]

end Source

end Satzbau

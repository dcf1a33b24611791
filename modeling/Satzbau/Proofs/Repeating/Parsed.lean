import Satzbau.Proofs.Parsing.TopLevel
import Satzbau.Proofs.Repeating.Appending
import Satzbau.Proofs.Repeating.Reading

namespace Satzbau

variable {r : Roles}

theorem Roles.readable (written : r.Written Token.Lexed) (notReflexive : ∀ token, r.object ≠ .reflexive token)
    (articles : ∀ p ∈ r.phrases, p.HasArticle) : r.Readable where
  verb := written.verb.1
  notReflexive := notReflexive
  articles p inside := articles p (List.mem_append_left _ inside)
  nouns p inside := (written.object p inside).2.1.1
  groups g member := {
    introduces := (written.groups g member).1.1
    nonempty := (written.groups g member).2.1
    articles := fun p inside => articles p (List.mem_append_right _ (List.mem_flatMap.mpr ⟨g, member, inside⟩))
    nouns := fun p inside => ((written.groups g member).2.2 p inside).2.1.1 }
  suffix token member := (written.suffix token member).1

/-- The line of a call is words, blanks and commas. -/
theorem Roles.line_characters (written : r.Written Token.Lexed) (notReflexive : ∀ token, r.object ≠ .reflexive token) :
    ∀ c ∈ r.line.toList, Lexer.isWordCharacter c = true ∨ c = ' ' ∨ c = ',' := by
  have plain := r.plain_marks written notReflexive
  intro c inside
  rw [Roles.line, String.toList_ofList] at inside
  obtain inVerb | inMarks := List.mem_append.mp inside
  · exact Or.inl (written.verb.2.characters (Mark.plain_word written.verb).2 c inVerb)
  · obtain ⟨m, member, spelled⟩ := List.mem_flatMap.mp inMarks
    cases m with
    | comma => exact Or.inr (Or.inr (List.mem_singleton.mp spelled))
    | word t =>
      obtain ⟨lexed, isPlain⟩ := plain (.word t) member
      obtain rfl | inWord := List.mem_cons.mp spelled
      · exact Or.inr (Or.inl rfl)
      · exact Or.inl (lexed.characters isPlain c inWord)

theorem Roles.line_noEnd (written : r.Written Token.Lexed) (notReflexive : ∀ token, r.object ≠ .reflexive token) :
    '\n' ∉ r.line.toList ∧ ¬∃ body, r.line.toList = body ++ ['\r'] := by
  have lineFeed : ¬(Lexer.isWordCharacter '\n' = true ∨ '\n' = ' ' ∨ '\n' = ',') := by decide +kernel
  have carriageReturn : ¬(Lexer.isWordCharacter '\r' = true ∨ '\r' = ' ' ∨ '\r' = ',') := by decide +kernel
  have characters := r.line_characters written notReflexive
  refine ⟨fun inside => lineFeed (characters _ inside), ?_⟩
  rintro ⟨body, spelled⟩
  refine carriageReturn (characters _ ?_)
  rw [spelled]
  exact List.mem_append_right body (List.mem_singleton_self _)

/-- What the line of a call gives where it is read outside a comment. -/
theorem Source.readLine_line (written : r.Written Token.Lexed) (notReflexive : ∀ token, r.object ≠ .reflexive token)
    (files : Files) {progress : Progress} (noComment : progress.inComment = false) (file : String) (number : Nat) :
    ∃ verb tokens lineEnd, r.verb.Same verb ∧ List.Forall₂ Mark.Reads r.marks tokens ∧ lineEnd.kind = .lineEnd ∧
      readLine files progress ⟨file, number, r.line.toList⟩ =
        (Parser.closedBy lineEnd (verb :: tokens), ⟨progress.queue, false⟩) := by
  obtain ⟨verb, tokens, read, same, reads⟩ :=
    @Roles.tokens_line r written notReflexive ⟨file, number, r.line.toList⟩ rfl
  have noImport : importTarget? (verb :: tokens) = none := by
    unfold importTarget?
    split
    · rename_i keyword target split
      obtain ⟨rfl, _⟩ := List.cons.inj split
      rw [← same.kind, written.verb.1]
    · rfl
  refine ⟨verb, tokens, Lexer.Line.lineEnd ⟨file, number, r.line.toList⟩ (verb :: tokens), same, reads, rfl, ?_⟩
  unfold readLine
  rw [noComment, read]
  dsimp only
  rw [noImport]
  rfl

namespace Parser

/-- The line of a call does not go on with a conditional. -/
theorem startsAfresh_closedBy {verb : Token} (isWord : verb.kind = .word) (last lineEnd : Token) (tokens : List Token) :
    StartsAfresh last (closedBy lineEnd (verb :: tokens)) :=
  ⟨verb, rfl, by rw [Token.isKeyword, isWord]; rfl⟩

/-- A program is read of an input that goes on with the line of a call as it was read without it, and
the call is read behind it. -/
theorem program_closedBy {items : List (Except Diagnostic Token)} {scope : Scope} {last : Token} {p : Program} {t : State}
    (readable : r.Readable) {verb lineEnd : Token} {tokens : List Token} (isVerb : r.verb.Same verb)
    (reads : List.Forall₂ Mark.Reads r.marks tokens) (atLineEnd : lineEnd.kind = .lineEnd)
    (closed : items = [] ∨ ∃ close, State.Closed close ⟨items, 0⟩) (atEnd : scope.fileEnd.kind = .fileEnd)
    (atLast : last.kind = .fileEnd) (parsed : program (inner items.length) scope ⟨items, 0⟩ = .ok (p, t)) :
    (∀ close, items.getLast? = some close → ∃ token, close = .ok token) ∧
      ∃ found id u, r.Same found ∧
        program (inner (items ++ closedBy lineEnd (verb :: tokens)).length) (scope.endingWith last)
          ⟨items ++ closedBy lineEnd (verb :: tokens), 0⟩ = .ok (p.followedBy ⟨[], [.call (found.call id)]⟩, u) := by
  obtain ⟨found, u, same, runCall⟩ :=
    @program_reads (scope.endingWith last) t.nextId r readable verb isVerb tokens reads lineEnd atLineEnd atLast
  have isWord : verb.kind = .word := isVerb.kind ▸ readable.verb
  have enough : r.marks.length < (closedBy lineEnd (verb :: tokens)).length := by
    simp only [closedBy, List.length_map, List.length_append, List.length_cons, reads.length_eq]
    omega
  have resumes (close : Except Diagnostic Token) (closed : items = [] ∨ State.Closed close ⟨items, 0⟩) :=
    @program_append _ last (closedBy lineEnd (verb :: tokens)).length _ close scope t u
      (startsAfresh_closedBy isWord last lineEnd tokens) atEnd
      (fun size bound => runCall size (Nat.lt_of_lt_of_le enough bound)) items.length ⟨items, 0⟩ closed p parsed
  rcases closed with empty | ⟨close, closed⟩
  · obtain ⟨_, run⟩ := resumes (.ok lineEnd) (Or.inl empty)
    rw [List.length_append]
    refine ⟨fun close atLast => ?_, found, t.nextId, u, same, run⟩
    rw [empty] at atLast
    contradiction
  · obtain ⟨faultless, run⟩ := resumes close (Or.inr closed)
    rw [List.length_append]
    refine ⟨fun other atLast => ?_, found, t.nextId, u, same, run⟩
    obtain ⟨before, spelled⟩ := closed.ends
    have isClose : items.getLast? = some close := by
      rw [show items = before ++ [close] from spelled, List.getLast?_concat]
    rw [isClose] at atLast
    cases atLast
    exact faultless closed.nonempty

end Parser

/-- A text that imports nothing and is read as a program is read as the same program with the line of
a call behind it, and with that call as its last statement. -/
theorem TokenStream.program_withLine (written : r.Written Token.Lexed)
    (notReflexive : ∀ token, r.object ≠ .reflexive token) (articles : ∀ p ∈ r.phrases, p.HasArticle) {files : Files}
    {path : Path} {text : String} (alone : (Source.after files path text).queue.pending = [])
    (noComment : (Source.after files path text).inComment = false) {p : Program}
    (parsed : (ofText files path text).program = .ok p) :
    ∃ found id, r.Same found ∧
      (ofText files path (withLine text r.line)).program = .ok (p.followedBy ⟨[], [.call (found.call id)]⟩) := by
  obtain ⟨noEnd, noReturn⟩ := r.line_noEnd written notReflexive
  have readable := r.readable written notReflexive articles
  have closed : (Source.opened files path text).1 = [] ∨
      ∃ close, Parser.State.Closed close ⟨(Source.opened files path text).1, 0⟩ := Source.readLines_closed _ _ 0
  rw [← Source.opened_queue] at alone
  rw [ofText_eq files path text alone, program_eq_ok] at parsed
  obtain ⟨t, run⟩ := parsed
  have continued (last : Token) (atLast : last.kind = .fileEnd) (number : Nat) :
      (∀ close, (Source.opened files path text).1.getLast? = some close → ∃ token, close = .ok token) ∧
        ∃ found id u, r.Same found ∧ (Source.readLine files (Source.after files path text)
            ⟨path.written, number, r.line.toList⟩).2.queue = (Source.after files path text).queue ∧
          Parser.program (Parser.inner ((Source.opened files path text).1 ++ (Source.readLine files
              (Source.after files path text) ⟨path.written, number, r.line.toList⟩).1).length) ⟨[], last⟩
            ⟨(Source.opened files path text).1 ++ (Source.readLine files (Source.after files path text)
              ⟨path.written, number, r.line.toList⟩).1, 0⟩ =
            .ok (p.followedBy ⟨[], [.call (found.call id)]⟩, u) := by
    obtain ⟨verb, tokens, lineEnd, isVerb, reads, atLineEnd, line⟩ :=
      Source.readLine_line written notReflexive files noComment path.written number
    obtain ⟨faultless, found, id, u, same, runMore⟩ :=
      Parser.program_closedBy readable isVerb reads atLineEnd closed rfl atLast run
    rw [line]
    exact ⟨faultless, found, id, u, same, rfl, runMore⟩
  have faultless := (continued (Source.fileEnd path 0) rfl 0).1
  obtain ⟨number, items, queue⟩ := Source.opened_withLine noEnd noReturn faultless
  obtain ⟨_, found, id, u, same, unchanged, runMore⟩ :=
    continued (Source.fileEnd path (Source.linesOf path (withLine text r.line)).length) rfl number
  refine ⟨found, id, same, ?_⟩
  have alone' : (Source.opened files path (withLine text r.line)).2.pending = [] := by
    rw [queue, unchanged, ← Source.opened_queue, alone]
  rw [ofText_eq files path _ alone', program_eq_ok, items]
  exact ⟨u, runMore⟩

end Satzbau

import Satzbau.Proofs.Lexing
import Satzbau.Proofs.Parsing.Extension
import Satzbau.Proofs.Repeating.CarriageReturn
import Satzbau.Proofs.Repeating.Lines
import Satzbau.Proofs.Text

namespace Satzbau.Source

variable {files : Files} {progress : Progress}

/-- How far reading comes with some lines. -/
def progressAfter (files : Files) (progress : Progress) : List Lexer.Line → Progress
  | [] => progress
  | line :: later => progressAfter files (readLine files progress line).2 later

theorem readLines_append (progress : Progress) (lines later : List Lexer.Line) :
    (readLines files progress (lines ++ later)).1 =
      (readLines files progress lines).1 ++ (readLines files (progressAfter files progress lines) later).1 := by
  induction lines generalizing progress with
  | nil => rfl
  | cons line others ih =>
    simp only [List.cons_append, readLines, progressAfter, List.append_assoc]
    rw [ih]

theorem progressAfter_append (progress : Progress) (lines later : List Lexer.Line) :
    progressAfter files progress (lines ++ later) = progressAfter files (progressAfter files progress lines) later := by
  induction lines generalizing progress with
  | nil => rfl
  | cons line others ih => exact ih _

theorem readLines_queue (progress : Progress) (lines : List Lexer.Line) :
    (readLines files progress lines).2 = (progressAfter files progress lines).queue := by
  induction lines generalizing progress with
  | nil => rfl
  | cons line others ih => exact ih _

/-- How far reading a text comes before any file that it imports is opened. -/
def after (files : Files) (path : Path) (text : String) : Progress :=
  progressAfter files ⟨ImportQueue.empty.visit (files.identify path), false⟩ (linesOf path text)

theorem opened_queue (path : Path) (text : String) : (opened files path text).2 = (after files path text).queue :=
  readLines_queue _ _

theorem closed_fault (d : Diagnostic) (id : NodeId) : Parser.State.Closed (.error d) ⟨[.error d], id⟩ :=
  ⟨⟨[], rfl⟩, fun _ impossible => by contradiction, by simp⟩

/-- The items of a line end with the end of the line or with a fault, if there are any. -/
theorem readLine_closed (progress : Progress) (line : Lexer.Line) (id : NodeId) :
    (readLine files progress line).1 = [] ∨ ∃ close, Parser.State.Closed close ⟨(readLine files progress line).1, id⟩ := by
  unfold readLine
  split
  · exact Or.inr ⟨_, closed_fault _ _⟩
  · exact Or.inl rfl
  · rename_i tokens inComment _ read
    have notEnd := Lexer.tokensFrom_not_end line 1 progress.inComment line.text (congrArg Prod.fst read)
    split
    · refine Or.inr ⟨.ok (line.lineEnd tokens), ⟨tokens.map .ok, List.map_append⟩, ?_, ?_⟩
      · rintro token ⟨⟩
        rfl
      · intro token member
        obtain ⟨other, inside, same⟩ := List.mem_map.mp member
        cases same
        obtain inLine | atEnd := List.mem_append.mp inside
        · exact fun ends => notEnd token inLine (Or.inl ends)
        · rw [List.mem_singleton.mp atEnd]
          exact nofun
    · split
      · exact Or.inr ⟨_, closed_fault _ _⟩
      · exact Or.inl rfl

/-- Items behind others end as they do alone. -/
theorem closed_append {items later : List (Except Diagnostic Token)} {id : NodeId}
    (first : items = [] ∨ ∃ close, Parser.State.Closed close ⟨items, id⟩)
    (behind : later = [] ∨ ∃ close, Parser.State.Closed close ⟨later, id⟩) :
    items ++ later = [] ∨ ∃ close, Parser.State.Closed close ⟨items ++ later, id⟩ := by
  have notFileEnd : ∀ token, .ok token ∈ items → token.kind ≠ .fileEnd := by
    rcases first with rfl | ⟨_, closed⟩
    · exact nofun
    · exact closed.inside
  rcases behind with rfl | ⟨close, closed⟩
  · rwa [List.append_nil]
  · obtain ⟨before, rfl⟩ := closed.ends
    refine Or.inr ⟨close, ⟨items ++ before, (List.append_assoc ..).symm⟩, closed.lineEnd, fun token member => ?_⟩
    rcases List.mem_append.mp member with atFirst | atLater
    · exact notFileEnd token atFirst
    · exact closed.inside token atLater

theorem readLines_closed (progress : Progress) (lines : List Lexer.Line) (id : NodeId) :
    (readLines files progress lines).1 = [] ∨
      ∃ close, Parser.State.Closed close ⟨(readLines files progress lines).1, id⟩ := by
  induction lines generalizing progress with
  | nil => exact Or.inl rfl
  | cons line later ih => exact closed_append (readLine_closed progress line id) (ih (readLine files progress line).2)

/-- What a line gives is the same without a carriage return at its end, if it is read without a fault. -/
theorem readLine_return {file : String} {number : Nat} {body : List Char}
    (faultless : ∀ fault, (readLine files progress ⟨file, number, body ++ ['\r']⟩).1 ≠ [.error fault]) :
    readLine files progress ⟨file, number, body⟩ = readLine files progress ⟨file, number, body ++ ['\r']⟩ := by
  have same : Lexer.Line.tokens ⟨file, number, body ++ ['\r']⟩ progress.inComment =
      Lexer.Line.tokens ⟨file, number, body⟩ progress.inComment := by
    cases read : Lexer.Line.tokens ⟨file, number, body ++ ['\r']⟩ progress.inComment with
    | mk result inComment =>
      cases result with
      | error fault =>
        refine absurd ?_ (faultless fault)
        rw [readLine, read]
      | ok tokens =>
        have unchanged := Lexer.tokensFrom_return ⟨file, number, body ++ ['\r']⟩ 1 progress.inComment body
          (congrArg Prod.fst read)
        rw [← read, Lexer.Line.tokens, unchanged]
        exact Lexer.tokensFrom_congr ..
  unfold readLine
  rw [same]
  rfl

theorem linesOf_eq {path : Path} {text : String} {lines : List (List Char)} {last : List Char}
    (split : textLines text.toList = lines ++ [last]) :
    linesOf path text = lines.mapIdx (fun index line => ⟨path.written, index + 1, line⟩) ++
      [⟨path.written, lines.length + 1, last⟩] := by
  rw [linesOf, split, List.mapIdx_append, List.mapIdx_singleton, Nat.zero_add]

/-- The line that is put behind a text is read where reading the text ends. -/
theorem opened_withLine {path : Path} {text : String} {line : String} (noEnd : '\n' ∉ line.toList)
    (noReturn : ¬∃ body, line.toList = body ++ ['\r'])
    (faultless : ∀ close, (opened files path text).1.getLast? = some close → ∃ token, close = .ok token) :
    ∃ number, (opened files path (withLine text line)).1 = (opened files path text).1 ++
        (readLine files (after files path text) ⟨path.written, number, line.toList⟩).1 ∧
      (opened files path (withLine text line)).2 =
        (readLine files (after files path text) ⟨path.written, number, line.toList⟩).2.queue := by
  have single (progress : Progress) (line : Lexer.Line) :
      (readLines files progress [line]).1 = (readLine files progress line).1 := List.append_nil _
  rcases textLines_withLine text noEnd noReturn with lines | ⟨before, body, lines, lines'⟩
  · refine ⟨(textLines text.toList).length + 1, ?_, ?_⟩
    · rw [opened, linesOf_eq lines, readLines_append, single]
      rfl
    · rw [opened_queue, after, linesOf_eq lines, progressAfter_append]
      rfl
  · rw [opened, linesOf_eq lines, readLines_append, single] at faultless
    have unchanged : readLine files _ _ = readLine files _ _ := readLine_return fun fault only => by
      obtain ⟨_, impossible⟩ := faultless (.error fault) (by rw [only, List.getLast?_concat])
      contradiction
    refine ⟨(before ++ [body]).length + 1, ?_, ?_⟩
    · rw [opened, linesOf_eq lines', readLines_append, single, List.mapIdx_concat, readLines_append, single, unchanged,
        progressAfter_append, opened, after, linesOf_eq lines, readLines_append, single, progressAfter_append]
      simp only [progressAfter, unchanged]
    · rw [opened_queue, after, after, linesOf_eq lines', linesOf_eq lines, List.mapIdx_concat, progressAfter_append,
        progressAfter_append, progressAfter_append]
      simp only [progressAfter, unchanged]

end Satzbau.Source

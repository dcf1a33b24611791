import Satzbau.Lines

namespace Satzbau

/-- A text whose last line has an end. -/
def ended (text : List Char) : List Char :=
  if text.getLast?.any (· != '\n') then text ++ ['\n'] else text

/-- A text with one more line behind the lines it has. -/
def withLine (text line : String) : String :=
  String.ofList (ended text.toList ++ (line.toList ++ ['\n']))

theorem linesWithEnds_append (text later : List Char) :
    linesWithEnds (text ++ '\n' :: later) = linesWithEnds (text ++ ['\n']) ++ linesWithEnds later := by
  induction text with
  | nil => rfl
  | cons c rest ih =>
    by_cases isEnd : c = '\n'
    · simp only [List.cons_append, linesWithEnds, if_pos isEnd, ih]
    · have nonempty : linesWithEnds (rest ++ ['\n']) ≠ [] := by
        intro empty
        have whole := flatten_linesWithEnds (rest ++ ['\n'])
        rw [empty] at whole
        simp at whole
      obtain ⟨line, lines, split⟩ := List.exists_cons_of_ne_nil nonempty
      simp only [List.cons_append, linesWithEnds, if_neg isEnd, ih, split]

/-- The beginning of a text that is nothing but whole lines. -/
def WholeLines (text : List Char) : Prop :=
  text = [] ∨ ∃ before, text = before ++ ['\n']

theorem WholeLines.linesWithEnds_append {text : List Char} (whole : WholeLines text) (later : List Char) :
    linesWithEnds (text ++ later) = linesWithEnds text ++ linesWithEnds later := by
  obtain rfl | ⟨before, rfl⟩ := whole
  · rfl
  · rw [List.append_assoc]
    exact Satzbau.linesWithEnds_append before later

/-- Every text is whole lines and what stands behind the last line feed. -/
theorem exists_wholeLines (text : List Char) :
    ∃ whole last, text = whole ++ last ∧ WholeLines whole ∧ '\n' ∉ last := by
  induction text with
  | nil => exact ⟨[], [], rfl, Or.inl rfl, List.not_mem_nil⟩
  | cons c rest ih =>
    obtain ⟨whole, last, rfl, isWhole, noEnd⟩ := ih
    obtain rfl | ⟨before, rfl⟩ := isWhole
    · by_cases isEnd : c = '\n'
      · exact ⟨['\n'], last, by rw [isEnd]; rfl, Or.inr ⟨[], rfl⟩, noEnd⟩
      · refine ⟨[], c :: last, rfl, Or.inl rfl, ?_⟩
        rw [List.mem_cons, not_or]
        exact ⟨fun same => isEnd same.symm, noEnd⟩
    · exact ⟨c :: before ++ ['\n'], last, rfl, Or.inr ⟨c :: before, rfl⟩, noEnd⟩

theorem linesWithEnds_of_not_mem {line : List Char} (noEnd : '\n' ∉ line) :
    linesWithEnds (line ++ ['\n']) = [line ++ ['\n']] ∧ (line ≠ [] → linesWithEnds line = [line]) := by
  induction line with
  | nil => exact ⟨rfl, fun nonempty => absurd rfl nonempty⟩
  | cons c rest ih =>
    rw [List.mem_cons, not_or] at noEnd
    obtain ⟨ends, alone⟩ := ih noEnd.2
    have notEnd : c ≠ '\n' := fun same => noEnd.1 same.symm
    refine ⟨?_, fun _ => ?_⟩
    · simp only [List.cons_append, linesWithEnds, if_neg notEnd, ends]
    · cases rest with
      | nil => simp only [linesWithEnds, if_neg notEnd]
      | cons d later => 
        have known := alone (List.cons_ne_nil _ _)
        rw [linesWithEnds, if_neg notEnd, known]

theorem withoutLineEnd_of_not_mem {line : List Char} (noEnd : '\n' ∉ line) : withoutLineEnd line = line := by
  rw [← List.mem_reverse] at noEnd
  unfold withoutLineEnd
  split
  · rename_i reversed
    rw [reversed] at noEnd
    exact absurd (List.mem_cons_self ..) noEnd
  · rename_i reversed
    rw [reversed] at noEnd
    exact absurd (List.mem_cons_self ..) noEnd
  · rfl

/-- The end of a line is its line feed, and a carriage return before it. -/
theorem withoutLineEnd_append (line : List Char) :
    withoutLineEnd (line ++ ['\n']) = line ∨
      ∃ body, line = body ++ ['\r'] ∧ withoutLineEnd (line ++ ['\n']) = body := by
  have reversed : (line ++ ['\n']).reverse = '\n' :: line.reverse := List.reverse_append
  unfold withoutLineEnd
  rw [reversed]
  cases behind : line.reverse with
  | nil =>
    rw [List.reverse_eq_nil_iff] at behind
    exact Or.inl behind.symm
  | cons c rest =>
    have line_eq : line = rest.reverse ++ [c] := by
      rw [← List.reverse_reverse line, behind, List.reverse_cons]
    by_cases isReturn : c = '\r'
    · subst isReturn
      exact Or.inr ⟨rest.reverse, line_eq, rfl⟩
    · left
      split
      · rename_i same
        cases same
        exact absurd rfl isReturn
      · rename_i same
        cases same
        rw [line_eq, List.reverse_cons]
      · rename_i other
        exact absurd rfl (other _)

theorem textLines_of_wholeLines {whole : List Char} (isWhole : WholeLines whole) (later : List Char) :
    textLines (whole ++ later) = textLines whole ++ textLines later := by
  rw [textLines, isWhole.linesWithEnds_append, List.map_append]
  rfl

theorem ended_wholeLines {whole : List Char} (isWhole : WholeLines whole) : ended whole = whole := by
  unfold ended
  obtain rfl | ⟨before, rfl⟩ := isWhole
  · rfl
  · rw [List.getLast?_concat, if_neg (by decide)]

theorem ended_of_not_mem {last : List Char} (whole : List Char) (noEnd : '\n' ∉ last) (nonempty : last ≠ []) :
    ended (whole ++ last) = whole ++ (last ++ ['\n']) := by
  have atLast : last.getLast nonempty ≠ '\n' := fun same => noEnd (same ▸ List.getLast_mem nonempty)
  have behind : (whole ++ last).getLast? = some (last.getLast nonempty) := by
    rw [List.getLast?_append, List.getLast?_eq_some_getLast nonempty]
    rfl
  unfold ended
  rw [behind]
  simp only [Option.any_some, bne_iff_ne, ne_eq, atLast, not_false_eq_true, if_true, List.append_assoc]

/-- One more line behind the lines of a text. If the last line of the text has no end but a carriage
return at its end, that counts as a part of the new end. -/
theorem textLines_withLine (text : String) {line : String} (noEnd : '\n' ∉ line.toList)
    (noReturn : ¬∃ body, line.toList = body ++ ['\r']) :
    textLines (withLine text line).toList = textLines text.toList ++ [line.toList] ∨
      ∃ before body, textLines text.toList = before ++ [body ++ ['\r']] ∧
        textLines (withLine text line).toList = before ++ [body] ++ [line.toList] := by
  obtain ⟨whole, last, split, isWhole, noEndInLast⟩ := exists_wholeLines text.toList
  have ofLine : textLines (line.toList ++ ['\n']) = [line.toList] := by
    rw [textLines, (linesWithEnds_of_not_mem noEnd).1, List.map_singleton]
    rcases withoutLineEnd_append line.toList with same | ⟨body, other, _⟩
    · rw [same]
    · exact absurd ⟨body, other⟩ noReturn
  rw [withLine, String.toList_ofList, split]
  by_cases nonempty : last = []
  · left
    rw [nonempty, List.append_nil, ended_wholeLines isWhole, textLines_of_wholeLines isWhole, ofLine]
  · have closed : WholeLines (whole ++ (last ++ ['\n'])) := Or.inr ⟨whole ++ last, (List.append_assoc ..).symm⟩
    rw [ended_of_not_mem whole noEndInLast nonempty, textLines_of_wholeLines closed, ofLine,
      textLines_of_wholeLines isWhole, textLines_of_wholeLines isWhole]
    have atLast : textLines last = [last] := by
      rw [textLines, (linesWithEnds_of_not_mem noEndInLast).2 nonempty, List.map_singleton,
        withoutLineEnd_of_not_mem noEndInLast]
    have atEnded : textLines (last ++ ['\n']) = [withoutLineEnd (last ++ ['\n'])] := by
      rw [textLines, (linesWithEnds_of_not_mem noEndInLast).1, List.map_singleton]
    rw [atLast, atEnded]
    rcases withoutLineEnd_append last with same | ⟨body, spelled, cut⟩
    · left
      rw [same]
    · right
      exact ⟨textLines whole, body, by rw [spelled], by rw [cut]⟩

end Satzbau

namespace Satzbau

/-- The lines of a text, each with the line feed that ends it. -/
def linesWithEnds : List Char → List (List Char)
  | [] => []
  | c :: rest =>
    if c = '\n' then [c] :: linesWithEnds rest
    else
      match linesWithEnds rest with
      | [] => [[c]]
      | line :: lines => (c :: line) :: lines

theorem flatten_linesWithEnds (text : List Char) : (linesWithEnds text).flatten = text := by
  induction text with
  | nil => rfl
  | cons c rest ih =>
    unfold linesWithEnds
    split
    · simp [ih]
    · split
      · rename_i empty
        simp only [empty, List.flatten_nil] at ih
        simp [← ih]
      · rename_i line lines cut
        simp only [cut, List.flatten_cons] at ih
        simp [← ih]

/-- Removes the line feed at the end of a line together with a carriage return before it. A
carriage return at the end of a text that lacks the line feed belongs to the line. -/
def withoutLineEnd (line : List Char) : List Char :=
  match line.reverse with
  | '\n' :: '\r' :: body => body.reverse
  | '\n' :: body => body.reverse
  | _ => line

def textLines (text : List Char) : List (List Char) :=
  (linesWithEnds text).map withoutLineEnd

end Satzbau

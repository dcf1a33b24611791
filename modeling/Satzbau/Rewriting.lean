import Satzbau.Character.Blank
import Satzbau.Declension
import Satzbau.Diagnostic
import Satzbau.Files
import Satzbau.Lines

namespace Satzbau

def isLineSign (c : Char) : Bool :=
  c == '\n' || c == '\r'

/-- The line feeds and carriage returns at the end of a line. -/
def lineEnding (line : List Char) : List Char :=
  (line.reverse.takeWhile isLineSign).reverse

def lineContent (line : List Char) : List Char :=
  (line.reverse.dropWhile isLineSign).reverse

/-- Puts another content in the place of a line's own. The blanks before it and the signs that end
the line stay. -/
def replaceContent (content line : List Char) : List Char :=
  (lineContent line).takeWhile isBlank ++ content ++ lineEnding line

/-- Replaces the content of the line with some number, none if there is no such line. -/
def replaceLine (text : List Char) (number : Nat) (content : List Char) : Option (List Char) :=
  let lines := linesWithEnds text
  if number = 0 ∨ lines.length < number then none
  else some (lines.modify (number - 1) (replaceContent content)).flatten

/-- Writes a declension into a line of a file, in the place of the statement that stands there. -/
def Files.writeDeclension (files : Files) (path : Path) (line : Nat) (declension : Declension) :
    Except Diagnostic Files :=
  let failure (message : String) : Diagnostic := .unlocated (.sourceRewrite path.written message)
  match files.resolve path with
  | .error fault => .error (failure fault.message)
  | .ok place =>
    match files.textAt place with
    | .error fault => .error (failure fault.message)
    | .ok text =>
      match replaceLine text.toList line declension.text.toList with
      | none => .error (failure s!"line {line} does not exist")
      | some changed => .ok (files.writeAt place (String.ofList changed))

end Satzbau

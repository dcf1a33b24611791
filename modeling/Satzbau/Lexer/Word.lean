import Satzbau.Character.Letter
import Satzbau.Character.Numeral
import Satzbau.Character.Uppercase
import Satzbau.Token

namespace Satzbau.Lexer

def isWordCharacter (c : Char) : Bool :=
  isLetter c || isNumeral c || c == '_'

/-- The kind of a word that is no operator. -/
def plainWordKind (word : String) : TokenKind :=
  if word = "wahr" then .boolean true
  else if word = "falsch" then .boolean false
  else
    match Keyword.ofWord? word, Determiner.ofWord? word with
    | some keyword, _ => .keyword keyword
    | none, some determiner => .determiner determiner
    | none, none => if word.toList.head?.any isUppercase then .noun else .word

def isSpaceOrTab (c : Char) : Bool :=
  c == ' ' || c == '\t'

/-- The number of characters by which `größer` or `kleiner` is longer because ` gleich` follows,
or nothing if it does not. -/
def orEqualTail? (rest : List Char) : Option Nat :=
  let blanks := rest.takeWhile isSpaceOrTab
  let next := (rest.dropWhile isSpaceOrTab).takeWhile isWordCharacter
  if blanks ≠ [] ∧ String.ofList next = Operator.equal.word then some (blanks.length + next.length)
  else none

/-- The kind of the word at the front of a text and the number of its characters. -/
def word (text : List Char) : TokenKind × Nat :=
  let letters := text.takeWhile isWordCharacter
  let spelling := String.ofList letters
  match Operator.ofWord? spelling with
  | none => (plainWordKind spelling, letters.length)
  | some operator =>
    match operator.orEqual?, orEqualTail? (text.dropWhile isWordCharacter) with
    | some compound, some tail => (.operator compound, letters.length + tail)
    | _, _ => (.operator operator, letters.length)

end Satzbau.Lexer

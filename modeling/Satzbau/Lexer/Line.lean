import Satzbau.Character.Blank
import Satzbau.Lexer.Number
import Satzbau.Lexer.Quoted
import Satzbau.Lexer.Sign
import Satzbau.Lexer.Word

namespace Satzbau.Lexer

/-- A fault in the characters of a line, `before` characters behind the place where a token
starts. -/
structure Flaw where
  fault : Fault
  before : Nat
  length : Nat

/-- The kind of the token that starts with a character and the number of its characters. -/
def lexeme (c : Char) (rest : List Char) : Except Flaw (TokenKind × Nat) :=
  if c = '"' then
    match quoted rest with
    | .ok q => .ok (.string (String.ofList q.value), q.length + 1)
    | .error .unterminated => .error ⟨.unterminatedString, 0, rest.length + 1⟩
    | .error (.badEscape before escape) => .error ⟨.invalidEscape escape, before + 1, 2⟩
  else if c.isDigit then
    let length := numberTail false rest + 1
    .ok (.number (numberValue ((c :: rest).take length)), length)
  else if isLetter c then .ok (word (c :: rest))
  else
    match sign? c rest.head? with
    | some sign => .ok sign
    | none => .error ⟨.invalidCharacter c, 0, 1⟩

/-- A line of a file. -/
structure Line where
  file : String
  number : Nat
  text : List Char

/-- What stands in some columns of a line. -/
def Line.location (line : Line) (column : Nat) (text : List Char) : Location :=
  ⟨some line.file, some (.onLine line.number column (column + text.length)), some (String.ofList text)⟩

def Line.token (line : Line) (column : Nat) (kind : TokenKind) (text : List Char) : Token :=
  ⟨kind, String.ofList text, line.file, .onLine line.number column (column + text.length)⟩

def Line.flaw (line : Line) (column : Nat) (flaw : Flaw) (text : List Char) : Diagnostic :=
  .located (line.location (column + flaw.before) ((text.drop flaw.before).take flaw.length)) flaw.fault

/-- The tokens of a line from a column on, and whether the line ends within a block comment. -/
def Line.tokensFrom (line : Line) (column : Nat) (inComment : Bool) :
    List Char → Except Diagnostic (List Token) × Bool
  | [] => (.ok [], inComment)
  | c :: rest =>
    if inComment then
      if c = '*' ∧ rest.head? = some '/' then line.tokensFrom (column + 2) false rest.tail
      else line.tokensFrom (column + 1) true rest
    else if isBlank c then line.tokensFrom (column + 1) false rest
    else if c = '/' ∧ rest.head? = some '/' then (.ok [], false)
    else if c = '/' ∧ rest.head? = some '*' then line.tokensFrom (column + 2) true rest.tail
    else
      match lexeme c rest with
      | .error flaw => (.error (line.flaw column flaw (c :: rest)), false)
      | .ok (kind, length) =>
        let token := line.token column kind ((c :: rest).take length)
        let later := line.tokensFrom (column + length) false (rest.drop (length - 1))
        (later.1.map (token :: ·), later.2)
termination_by text => text.length
decreasing_by
  all_goals simp only [List.length_cons, List.length_tail, List.length_drop]; omega

def Line.tokens (line : Line) (inComment : Bool) : Except Diagnostic (List Token) × Bool :=
  line.tokensFrom 1 inComment line.text

/-- The token that ends a line, right behind the last one on it. -/
def Line.lineEnd (line : Line) (tokens : List Token) : Token :=
  let column := tokens.getLast?.elim 1 fun t => t.span.stop.column
  ⟨.lineEnd, "\n", line.file, .onLine line.number column column⟩

end Satzbau.Lexer

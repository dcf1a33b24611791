import Satzbau.Decimal
import Satzbau.Determiner
import Satzbau.Diagnostic
import Satzbau.Keyword
import Satzbau.Operator

namespace Satzbau

inductive TokenKind
  | openParenthesis
  | closeParenthesis
  | openBracket
  | closeBracket
  | comma
  /-- Opens a block. -/
  | colon
  | doubleColon
  /-- Closes a block. -/
  | period
  /-- Closes a method block. -/
  | bang
  | lineEnd
  | operator (o : Operator)
  | number (value : Decimal)
  | string (value : String)
  | boolean (value : Bool)
  | keyword (k : Keyword)
  | determiner (d : Determiner)
  /-- A word with a capital first letter. -/
  | noun
  /-- Any other word. -/
  | word
  | fileEnd
deriving DecidableEq, Repr, Inhabited

namespace TokenKind

def name : TokenKind → String
  | openParenthesis => "'('"
  | closeParenthesis => "')'"
  | openBracket => "'['"
  | closeBracket => "']'"
  | comma => "','"
  | colon => "':'"
  | doubleColon => "'::'"
  | period => "'.'"
  | bang => "'!'"
  | lineEnd => "end of line"
  | operator _ => "operator"
  | number _ => "number"
  | string _ => "string"
  | boolean _ => "boolean"
  | keyword _ => "keyword"
  | determiner _ => "determiner"
  | noun => "noun"
  | word => "word"
  | fileEnd => "end of file"

def isLiteral : TokenKind → Bool
  | number _ | string _ | boolean _ => true
  | _ => false

def operator? : TokenKind → Option Operator
  | operator o => some o
  | _ => none

def determiner? : TokenKind → Option Determiner
  | determiner d => some d
  | _ => none

end TokenKind

/-- A piece of a program's text. `text` is what was written, not what it means. -/
structure Token where
  kind : TokenKind
  text : String
  file : String
  span : Span
deriving DecidableEq, Repr, Inhabited

namespace Token

def location (t : Token) : Location :=
  ⟨some t.file, some t.span, some t.text⟩

/-- A fault found at a token. -/
def blame (t : Token) (fault : Fault) : Diagnostic :=
  .located t.location fault

/-- How a token is called in messages. -/
def description (t : Token) : String :=
  match t.kind with
  | .fileEnd => "end of file"
  | .lineEnd => "end of line"
  | _ => "'" ++ t.text ++ "'"

def unexpected (t : Token) (expected : String) : Diagnostic :=
  t.blame (.unexpectedToken expected t.description)

def isKeyword (t : Token) (k : Keyword) : Bool :=
  t.kind == .keyword k

def determiner? (t : Token) : Option Determiner :=
  t.kind.determiner?

def operator? (t : Token) : Option Operator :=
  t.kind.operator?

end Token

end Satzbau

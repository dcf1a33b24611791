import Satzbau.Diagnostic

namespace Satzbau.Lexer

/-- The characters that are written behind a backslash, each with what it stands for. -/
def escapes : List (Char × Char) :=
  [('n', '\n'), ('t', '\t'), ('r', '\r'), ('\\', '\\'), ('"', '"')]

def unescape? (c : Char) : Option Char :=
  escapes.lookup c

def escape? (c : Char) : Option Char :=
  (escapes.find? fun pair => pair.2 == c).map Prod.fst

/-- The content of a string literal, as it is written between the quotes. -/
def escaped : List Char → List Char
  | [] => []
  | c :: rest =>
    match escape? c with
    | some letter => '\\' :: letter :: escaped rest
    | none => c :: escaped rest

/-- Why a string literal cannot be read. An escape is told by the number of characters before its
backslash. -/
inductive QuotedFault
  | unterminated
  | badEscape (before : Nat) (c : Char)
deriving DecidableEq, Repr

def QuotedFault.shift (n : Nat) : QuotedFault → QuotedFault
  | unterminated => unterminated
  | badEscape before c => badEscape (before + n) c

/-- What follows an opening quote. -/
structure Quoted where
  value : List Char
  /-- The number of characters up to and with the closing quote. -/
  length : Nat
deriving DecidableEq, Repr

/-- A character of the value, written with `n` characters, before the rest of a literal. -/
def Quoted.extend (n : Nat) (c : Char) : Except QuotedFault Quoted → Except QuotedFault Quoted
  | .ok q => .ok ⟨c :: q.value, q.length + n⟩
  | .error fault => .error (fault.shift n)

/-- Reads the rest of a line behind an opening quote. -/
def quoted : List Char → Except QuotedFault Quoted
  | [] => .error .unterminated
  | ['\\'] => .error .unterminated
  | '\\' :: c :: rest =>
    match unescape? c with
    | some value => Quoted.extend 2 value (quoted rest)
    | none => .error (.badEscape 0 c)
  | c :: rest => if c = '"' then .ok ⟨[], 1⟩ else Quoted.extend 1 c (quoted rest)

end Satzbau.Lexer

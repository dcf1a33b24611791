import Satzbau.Decimal

namespace Satzbau.Lexer

/-- How many characters at the front of a text continue a number whose first digit stands before
it. Points group the digits and one comma opens the fraction, but only between two digits, so that
a number can stand before the point that closes a block. -/
def numberTail (inFraction : Bool) : List Char → Nat
  | [] => 0
  | c :: rest =>
    if c.isDigit then numberTail inFraction rest + 1
    else if inFraction || !rest.head?.any Char.isDigit then 0
    else if c = '.' then numberTail false rest + 1
    else if c = ',' then numberTail true rest + 1
    else 0

def digitValue (c : Char) : Nat :=
  c.toNat - '0'.toNat

def naturalOfDigits (digits : List Char) : Nat :=
  digits.foldl (fun value c => 10 * value + digitValue c) 0

/-- The value of a written number: grouping points do not count, and the comma is where the
fraction starts. -/
def numberValue (text : List Char) : Decimal where
  digits := naturalOfDigits (text.filter Char.isDigit)
  places := ((text.dropWhile (· ≠ ',')).filter Char.isDigit).length

end Satzbau.Lexer

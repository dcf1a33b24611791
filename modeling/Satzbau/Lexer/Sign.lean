import Satzbau.Token

namespace Satzbau.Lexer

def doubleSigns : List ((Char × Char) × TokenKind) :=
  [(('=', '='), .operator .equal), (('!', '='), .operator .notEqual),
    (('>', '='), .operator .greaterEqual), (('<', '='), .operator .lessEqual),
    (('&', '&'), .operator .and), (('|', '|'), .operator .or), ((':', ':'), .doubleColon)]

def singleSigns : List (Char × TokenKind) :=
  [('(', .openParenthesis), (')', .closeParenthesis), ('[', .openBracket), (']', .closeBracket),
    (',', .comma), (':', .colon), ('.', .period), ('!', .bang), ('+', .operator .plus),
    ('-', .operator .minus), ('*', .operator .times), ('/', .operator .divide),
    ('%', .operator .modulo), ('^', .operator .power), ('>', .operator .greater),
    ('<', .operator .less)]

def doubleSign? (c : Char) (next : Option Char) : Option TokenKind :=
  next.bind fun d => doubleSigns.lookup (c, d)

/-- The kind of the sign that starts with a character and its length. Two characters that form a
sign are never read as two signs. -/
def sign? (c : Char) (next : Option Char) : Option (TokenKind × Nat) :=
  match doubleSign? c next with
  | some kind => some (kind, 2)
  | none => (singleSigns.lookup c).map fun kind => (kind, 1)

end Satzbau.Lexer

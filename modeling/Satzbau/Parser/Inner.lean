import Satzbau.Parser.Basic

namespace Satzbau.Parser

/-- The parsers for whatever may stand inside a construct, or behind the part of it that was read.
A construct uses them only when it has taken a token, so a chain of uses is never longer than the
input. -/
structure Inner where
  /-- An expression whose operators hold their left side at least that firmly. -/
  expression : Nat → Parser Expression
  operators : Nat → Expression → Parser Expression
  conversions : Expression → Parser Expression
  phrase : Token → Determiner → Token → Parser Expression
  items : Parser (List Expression)
  arguments : Parser (List Argument)
  groups : Parser (List (PrepositionGroup Argument))
  statements : TokenKind → String → Parser Block
  alternatives : Parser (List Branch × Option Block)
  parameters : Parser (List Parameter)
  headerGroups : Parser (List (PrepositionGroup Parameter))
  members : Parser (List FunctionDefinition × List ConversionDefinition)
  program : Parser Program

/-- The parsers for an input that is used up. -/
def Inner.none : Inner where
  expression _ := unexpected "an expression"
  operators _ _ := unexpected "an expression"
  conversions _ := unexpected "an expression"
  phrase _ _ _ := unexpected "an expression"
  items := unexpected "an expression"
  arguments := unexpected "an article"
  groups := unexpected "an article"
  statements _ expected := unexpected expected
  alternatives := unexpected "an expression"
  parameters := unexpected "an article"
  headerGroups := unexpected "an article"
  members := unexpected "a definition"
  program := unexpected "a definition"

end Satzbau.Parser

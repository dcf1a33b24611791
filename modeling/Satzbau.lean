import Satzbau.Span
import Satzbau.Case
import Satzbau.Gender
import Satzbau.Diagnostic
import Satzbau.Decimal
import Satzbau.Character.Letter
import Satzbau.Character.Uppercase
import Satzbau.Character.Numeral
import Satzbau.Character.Blank
import Satzbau.Operator
import Satzbau.Keyword
import Satzbau.Determiner
import Satzbau.Preposition
import Satzbau.Token
import Satzbau.Lexer.Line
import Satzbau.Lines
import Satzbau.Files
import Satzbau.ImportQueue
import Satzbau.Source
import Satzbau.Collation
import Satzbau.Declension
import Satzbau.Dictionary
import Satzbau.Expression
import Satzbau.Program
import Satzbau.Visit
import Satzbau.Parser.Basic
import Satzbau.Parser.Expression
import Satzbau.Parser.Definition
import Satzbau.Parser.Run
import Satzbau.Loading
import Satzbau.Agreement
import Satzbau.Checker
import Satzbau.Compilation
import Satzbau.CommandLine.Run
import Satzbau.Main
import Satzbau.Proofs.Journal
import Satzbau.Proofs.Occurrence
import Satzbau.Proofs.Parsing.Delivery
import Satzbau.Proofs.Parsing.NumberedExpressions
import Satzbau.Proofs.Parsing.NumberedStatements
import Satzbau.Proofs.Parsing.NumberedDefinitions
import Satzbau.Proofs.Checking.Agrees
import Satzbau.Proofs.Checking.Settles
import Satzbau.Proofs.Checking.Reading
import Satzbau.Proofs.Checking.Search
import Satzbau.Proofs.Backtracking
import Satzbau.Proofs.Text
import Satzbau.Proofs.Checking.Occurring
import Satzbau.Proofs.Lexing
import Satzbau.Proofs.Checking.Noted
import Satzbau.Proofs.Signature.Words
import Satzbau.Proofs.Signature.Shape
import Satzbau.Proofs.Signature.Canonical
import Satzbau.Proofs.Signature.Confusion
import Satzbau.Proofs.Signature.Syncretism
import Satzbau.Proofs.Parsing.ExtendedExpressions
import Satzbau.Proofs.Parsing.ExtendedStatements
import Satzbau.Proofs.Parsing.ExtendedDefinitions
import Satzbau.Proofs.Parsing.Continued
import Satzbau.Proofs.Repeating.Spelling
import Satzbau.Proofs.Repeating.CarriageReturn
import Satzbau.Proofs.Repeating.Lines
import Satzbau.Proofs.Repeating.Reading
import Satzbau.Proofs.Repeating.Appending
import Satzbau.Proofs.Parsing.TopLevel
import Satzbau.Proofs.Repeating.Parsed
import Satzbau.Proofs.Defining.Appended
import Satzbau.Proofs.Repeating.Readings
import Satzbau.Proofs.Repeating.Cases
import Satzbau.Proofs.Repeating.Calling
import Satzbau.Proofs.Repeating.Header
import Satzbau.Proofs.Lookup.Unrelated
import Satzbau.Proofs.Internal.Resolving
import Satzbau.Proofs.Checking.Annotated
import Satzbau.Proofs.Defining.Resolution
import Satzbau.Proofs.Defining.Verification
import Satzbau.Proofs.Defining.Reordered
import Satzbau.Proofs.Parsing.AllowedDefinitions
import Satzbau.Proofs.Respelling.Rewritten
import Satzbau.Proofs.Precedence.Climbing
import Satzbau.Proofs.Precedence.Entrances
import Satzbau.Proofs.Determiners.Definitions
import Satzbau.Proofs.Checking.Operands
import Satzbau.Proofs.Partition.Streams
import Satzbau.Proofs.Constituents.Identity
import Satzbau.Proofs.Constituents.Order
import Satzbau.Proofs.Composing.Files
import Satzbau.Proofs.Discovering.History
import Satzbau.Proofs.Loading.Barrier
import Satzbau.Proofs.Loading.Overwriting
import Satzbau.Proofs.Preceding.Programs
import Satzbau.Proofs.Pointing.Texts
import Satzbau.Proofs.Checking.Suggested
import Satzbau.Proofs.Respelling.Printed
import Satzbau.Proofs.Progress.Layers
import Satzbau.Proofs.Visiting.Traced
import Satzbau.Proofs.Partition.Spacing
import Satzbau.Proofs.Literals.Strings
import Satzbau.Proofs.Literals.Numbers
import Satzbau.Proofs.Respelling.Replacing
import Satzbau.Proofs.Recording

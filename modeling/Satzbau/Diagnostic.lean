import Satzbau.Span
import Satzbau.Case

namespace Satzbau

/-- What a diagnostic points at, as far as it is known. -/
structure Location where
  file : Option String
  span : Option Span
  token : Option String
deriving DecidableEq, Repr, Inhabited

namespace Location

def unknown : Location :=
  ⟨none, none, none⟩

def ofFile (file : String) : Location :=
  ⟨some file, none, none⟩

def text (place : Location) : String :=
  match place.file, place.span with
  | some file, some span => file ++ ":" ++ span.text
  | some file, none => file
  | none, some span => span.text
  | none, none => "<unknown>"

end Location

/-- Why an external dictionary could not answer. -/
inductive LookupFailure
  | notFound (word : String)
  | unreadable (word : String)
  | noConnectivity
  | timeout (word : String)
  | serverError (message : String)
deriving DecidableEq, Repr, Inhabited

def LookupFailure.message : LookupFailure → String
  | notFound word => s!"'{word}' not found"
  | unreadable word => s!"could not parse the declension of '{word}'"
  | noConnectivity => "no connectivity"
  | timeout word => s!"declension lookup of '{word}' timed out"
  | serverError message => s!"declension service error: {message}"

/-- The kinds of things a program may define once only. -/
inductive Definable
  | function
  | method
  | noun
  | conversion
deriving DecidableEq, Repr, Inhabited

def Definable.name : Definable → String
  | function => "function"
  | method => "method"
  | noun => "class"
  | conversion => "conversion"

/-- What is wrong with a program. -/
inductive Fault
  | invalidCharacter (character : Char)
  | unterminatedString
  | invalidEscape (character : Char)
  | invalidNumber (literal : String)
  | cyclicImport (path : String)
  | sourceUnreadable (path message : String)
  | unexpectedToken (expected found : String)
  | misplacedConstruct (construct required : String)
  | wrongDeterminer (found expected : String)
  | wrongNounForm (found expected : String) (cases : CaseSet)
  | wrongNumber (found expected : String)
  | wrongAssignmentForm (found expected : String)
  | unknownWord (word : String)
  | externalWordNotFound (word : String)
  | noConnectivity (word : String)
  | external (failure : LookupFailure)
  | duplicateDeclension (word : String)
  | sourceRewrite (path message : String)
  | duplicateDefinition (what : Definable) (signature : String) (first : Location)
  | reservedTypeName (name : String)
  | undefinedFunction (signature : String)
  | undefinedMethod (owner signature : String)
  | undefinedType (name : String)
  | undefinedConversion (owner target : String)
  | internal (message : String)
deriving DecidableEq, Repr, Inhabited

/-- The stage of a compilation to which a fault belongs. -/
inductive Category
  | lexical
  | syntactic
  | grammatical
  | lookup
  | definition
  | resolution
  | internal
deriving DecidableEq, Repr, Inhabited

def Category.name : Category → String
  | lexical => "lexical"
  | syntactic => "syntax"
  | grammatical => "grammar"
  | lookup => "lookup"
  | definition => "definition"
  | resolution => "resolution"
  | internal => "internal"

namespace Fault

def category : Fault → Category
  | invalidCharacter .. | unterminatedString | invalidEscape .. | invalidNumber ..
  | cyclicImport .. | sourceUnreadable .. => .lexical
  | unexpectedToken .. | misplacedConstruct .. => .syntactic
  | wrongDeterminer .. | wrongNounForm .. | wrongNumber .. | wrongAssignmentForm .. => .grammatical
  | unknownWord .. | externalWordNotFound .. | noConnectivity .. | external ..
  | duplicateDeclension .. | sourceRewrite .. => .lookup
  | duplicateDefinition .. | reservedTypeName .. => .definition
  | undefinedFunction .. | undefinedMethod .. | undefinedType .. | undefinedConversion .. => .resolution
  | internal .. => .internal

def message : Fault → String
  | invalidCharacter character => s!"invalid character '{character}'"
  | unterminatedString => "unterminated string literal"
  | invalidEscape character => "invalid escape sequence '\\" ++ s!"{character}'"
  | invalidNumber literal => s!"invalid number literal '{literal}'"
  | cyclicImport path => s!"cyclic import of '{path}'"
  | sourceUnreadable path message => s!"cannot read '{path}': {message}"
  | unexpectedToken expected found => s!"expected {expected}, found {found}"
  | misplacedConstruct construct required => s!"'{construct}' may only be used inside {required}"
  | wrongDeterminer found expected => s!"wrong determiner '{found}', expected '{expected}'"
  | wrongNounForm found expected cases =>
    s!"wrong form '{found}' (" ++ cases.text ++ s!" expected), expected '{expected}'"
  | wrongNumber found expected => s!"wrong number for '{found}', expected '{expected}'"
  | wrongAssignmentForm found expected => s!"wrong assignment form '{found}', expected '{expected}'"
  | unknownWord word => s!"unknown word '{word}': no declension is known for it"
  | externalWordNotFound word => s!"word '{word}' not found in the external dictionary"
  | noConnectivity word => s!"no network connectivity while looking up '{word}'"
  | external failure => failure.message
  | duplicateDeclension word => s!"duplicate declension for '{word}'"
  | sourceRewrite path message => s!"cannot rewrite '{path}': {message}"
  | duplicateDefinition what signature first =>
    s!"duplicate {what.name} '{signature}', first defined at {first.text}"
  | reservedTypeName name => s!"'{name}' is a reserved type name"
  | undefinedFunction signature => s!"undefined function '{signature}'"
  | undefinedMethod owner signature => s!"undefined method '{signature}' for '{owner}'"
  | undefinedType name => s!"undefined type '{name}'"
  | undefinedConversion owner target => s!"undefined conversion from '{owner}' to '{target}'"
  | internal message => s!"internal error: {message}"

end Fault

/-- A fault and the place where it was found. -/
structure Diagnostic where
  fault : Fault
  location : Option Location
deriving DecidableEq, Repr, Inhabited

namespace Diagnostic

def unlocated (fault : Fault) : Diagnostic :=
  ⟨fault, none⟩

def located (place : Location) (fault : Fault) : Diagnostic :=
  ⟨fault, some place⟩

/-- The line shown to the author of a program. -/
def report (d : Diagnostic) : String :=
  let body := d.fault.category.name ++ " error: " ++ d.fault.message
  match d.location with
  | some place => place.text ++ ": " ++ body
  | none => body

end Diagnostic

end Satzbau

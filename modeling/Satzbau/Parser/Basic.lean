import Satzbau.Program
import Satzbau.Source

namespace Satzbau

/-- The constructs around a place in a program, as far as something depends on them. -/
inductive Construct
  | function
  | method
  | noun
  | implementation
  | conversion
  | declension
  | declaration
  | conditional
  | whileLoop
  | forEach
  | give
  | methodBlock
  | call
  | argument
  | binary
deriving DecidableEq, Repr, Inhabited

namespace Parser

/-- What is fixed while a construct is read: the constructs around it, the innermost first, and the
token that stands for the end of the input. -/
structure Scope where
  around : List Construct
  fileEnd : Token

/-- What reading changes: the items that are left and the next free id. -/
structure State where
  items : List (Except Diagnostic Token)
  nextId : NodeId

end Parser

/-- A parser takes tokens from the front of its state. It never recovers from a fault. -/
abbrev Parser := ReaderT Parser.Scope (StateT Parser.State (Except Diagnostic))

namespace Parser

/-- The token at the front, which stays there. -/
def peek : Parser Token := fun scope state =>
  match state.items with
  | [] => .ok (scope.fileEnd, state)
  | .ok token :: _ => .ok (token, state)
  | .error fault :: _ => .error fault

/-- The token behind the front one. Both stay. -/
def peekSecond : Parser Token := fun scope state =>
  match state.items with
  | [] | [.ok _] => .ok (scope.fileEnd, state)
  | .error fault :: _ | .ok _ :: .error fault :: _ => .error fault
  | .ok _ :: .ok token :: _ => .ok (token, state)

/-- Takes the token at the front. The end of the input stays where it is. -/
def advance : Parser Token := do
  let token ← peek
  modify fun state => { state with items := state.items.tail }
  return token

def within {α : Type} (construct : Construct) (p : Parser α) : Parser α := fun scope =>
  p { scope with around := construct :: scope.around }

/-- Fails at a token unless one of some constructs is around. -/
def require (token : Token) (constructs : List Construct) (required : String) : Parser Unit := do
  if !(← read).around.any constructs.contains then
    throw (token.blame (.misplacedConstruct token.text required))

def requireBody (token : Token) : Parser Unit :=
  require token [.function, .method, .conversion] "a function, method or conversion"

/-- Where there is an object that can be spoken of as `ich`. -/
def requireSelf (token : Token) : Parser Unit :=
  require token [.method, .conversion, .noun] "a method, conversion or constructor"

/-- Where there is a subject that can be spoken to as `du`. -/
def requireMethodBlock (token : Token) : Parser Unit :=
  require token [.methodBlock] "a method block"

def requireLoop (token : Token) : Parser Unit :=
  require token [.whileLoop, .forEach] "a 'solange' or 'für' loop"

/-- What a possessive asks of its place. -/
def requireOwner (token : Token) : Determiner → Parser Unit
  | .firstPossessive => requireSelf token
  | .secondPossessive => requireMethodBlock token
  | _ => return

def misplaced {α : Type} (token : Token) (required : String) : Parser α :=
  throw (token.blame (.misplacedConstruct token.text required))

/-- Fails at the token at the front. -/
def unexpected {α : Type} (expected : String) : Parser α := do
  throw ((← peek).unexpected expected)

def at? (kind : TokenKind) : Parser Bool :=
  return (← peek).kind == kind

def atKeyword (keyword : Keyword) : Parser Bool :=
  at? (.keyword keyword)

/-- Takes a token of a kind if it is there. -/
def eat (kind : TokenKind) : Parser Bool := do
  if ← at? kind then
    let _ ← advance
    return true
  return false

def expect (kind : TokenKind) (expected : String) : Parser Token := do
  if ← at? kind then advance else unexpected expected

def expectKeyword (keyword : Keyword) : Parser Token :=
  expect (.keyword keyword) ("'" ++ keyword.spelling ++ "'")

def expectNoun : Parser Token :=
  expect .noun "a noun"

def expectVerb : Parser Token :=
  expect .word "a verb"

def expectDeterminer : Parser (Token × Determiner) := do
  let token ← peek
  match token.determiner? with
  | some kind => return (← advance, kind)
  | none => throw (token.unexpected "an article")

def skipLineEnds : Parser Unit := do
  modify fun state => { state with
    items := state.items.dropWhile fun
      | .ok token => token.kind == .lineEnd
      | .error _ => false }
  let _ ← peek

def freshId : Parser NodeId := do
  let id := (← get).nextId
  modify fun state => { state with nextId := id + 1 }
  return id

def nounPhrase (determiner : Option Token) (noun : Token) : Parser NounPhrase :=
  return ⟨← freshId, determiner, noun⟩

def determinedNoun : Parser NounPhrase := do
  let (determiner, _) ← expectDeterminer
  let noun ← expectNoun
  nounPhrase (some determiner) noun

/-- A word, if one stands at the front. -/
def optionalWord : Parser (Option Token) := do
  if ← at? .word then return some (← advance) else return none

/-- What must stand behind a statement: the end of its line, or the sign that closes the block. -/
def endStatement (close : TokenKind) : Parser Unit := do
  let token ← peek
  if token.kind = .lineEnd then
    let _ ← advance
  else if token.kind ≠ close then
    throw (token.unexpected "end of line")

/-- Whether a preposition and its first role stand at the front. -/
def atPreposition : Parser Bool := do
  match (← peek).kind with
  | .word | .keyword .along | .keyword .forEach => return (← peekSecond).determiner?.isSome
  | _ => return false

/-- Whether an owner stands at the front, as in `der Name des Baumes`. -/
def atOwner : Parser Bool := do
  let token ← peek
  return token.determiner?.isSome && Determiner.opensOwner token.text

end Parser

end Satzbau

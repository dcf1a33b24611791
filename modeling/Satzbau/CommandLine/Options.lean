import Satzbau.Lexer.Number
import Satzbau.Path

namespace Satzbau.CommandLine

inductive Action
  | check
  | signatures
deriving DecidableEq, Repr

def Action.ofName? : String → Option Action
  | "check" => some check
  | "signatures" => some signatures
  | _ => none

/-- The options given in front of the action, or those given behind it. -/
structure Options where
  verbosity : Nat
  standardLibrary : Option Path
  withoutLibrary : Bool
  seconds : Option Nat
  withoutRewrite : Bool
  withoutColour : Bool
deriving DecidableEq, Repr

def Options.unset : Options :=
  ⟨0, none, false, none, false, false⟩

/-- Options behind the action come before those in front of it. -/
def Options.orElse (behind front : Options) : Options where
  verbosity := if behind.verbosity = 0 then front.verbosity else behind.verbosity
  standardLibrary := behind.standardLibrary.or front.standardLibrary
  withoutLibrary := behind.withoutLibrary || front.withoutLibrary
  seconds := behind.seconds.or front.seconds
  withoutRewrite := behind.withoutRewrite || front.withoutRewrite
  withoutColour := behind.withoutColour || front.withoutColour

/-- Whether options asked for in one place exclude each other. -/
def Options.consistent (o : Options) : Bool :=
  !(o.withoutLibrary && o.standardLibrary.isSome)

/-- Why a command line is not carried out as it stands: it is wrong, or it asks about the program. -/
inductive Stop
  | misuse
  | version
  | help
deriving DecidableEq, Repr

/-- The largest number of seconds that can be asked for. -/
def secondsLimit : Nat :=
  Nat.pow 2 64 - 1

/-- A number of seconds: digits, perhaps behind a plus sign. -/
def seconds? (text : String) : Option Nat :=
  let digits := match text.toList with
    | '+' :: rest => rest
    | all => all
  if digits.isEmpty || !digits.all Char.isDigit then none
  else
    let value := Lexer.naturalOfDigits digits
    if value ≤ secondsLimit then some value else none

def setLibrary (o : Options) (value : String) : Except Stop Options :=
  if value = "" ∨ o.standardLibrary.isSome then .error .misuse
  else .ok { o with standardLibrary := some ⟨value⟩ }

def setSeconds (o : Options) (value : String) : Except Stop Options :=
  match seconds? value, o.seconds with
  | some seconds, none => .ok { o with seconds := some seconds }
  | _, _ => .error .misuse

/-- The options that take a value. -/
def valued? (name : String) : Option (Options → String → Except Stop Options) :=
  match name with
  | "--stdlib" => some setLibrary
  | "--timeout" => some setSeconds
  | _ => none

/-- Sets an option that is given by its name alone. It can be given once, but for the verbosity. -/
def setFlag (versioned : Bool) (o : Options) (name : String) : Except Stop Options :=
  match name with
  | "--verbose" => .ok { o with verbosity := o.verbosity + 1 }
  | "--no-stdlib" => if o.withoutLibrary then .error .misuse else .ok { o with withoutLibrary := true }
  | "--no-rewrite" => if o.withoutRewrite then .error .misuse else .ok { o with withoutRewrite := true }
  | "--no-color" => if o.withoutColour then .error .misuse else .ok { o with withoutColour := true }
  | "--help" => .error .help
  | "--version" => .error (if versioned then .version else .misuse)
  | _ => .error .misuse

/-- The option for which a letter stands. -/
def nameOfLetter : Char → String
  | 'v' => "--verbose"
  | 'h' => "--help"
  | 'V' => "--version"
  | _ => ""

def setLetters (versioned : Bool) (o : Options) (letters : List Char) : Except Stop Options :=
  letters.foldlM (fun o letter => setFlag versioned o (nameOfLetter letter)) o

/-- How an argument is to be understood. -/
inductive Argument
  /-- Two hyphens, behind which there are no options. -/
  | divider
  | long (name : String) (value : Option String)
  | letters (letters : List Char)
  | plain (text : String)

def Argument.ofText (text : String) : Argument :=
  match text.toList with
  | ['-', '-'] => .divider
  | '-' :: '-' :: rest =>
    let name := "--" ++ String.ofList (rest.takeWhile (· ≠ '='))
    match rest.dropWhile (· ≠ '=') with
    | _ :: value => .long name (some (String.ofList value))
    | [] => .long name none
  | '-' :: letter :: rest => .letters (letter :: rest)
  | _ => .plain text

/-- Takes an argument if it is an option, and says whether the next argument was taken as its value. -/
def takeOption? (versioned : Bool) (o : Options) (text : String) (next : Option String) :
    Except Stop (Option (Options × Bool)) :=
  match Argument.ofText text with
  | .divider | .plain _ => return none
  | .letters letters => return some (← setLetters versioned o letters, false)
  | .long name value =>
    match valued? name, value with
    | some set, some value => return some (← set o value, false)
    | some set, none =>
      match next.map Argument.ofText with
      | some (.plain value) => return some (← set o value, true)
      | _ => throw .misuse
    | none, some _ => throw .misuse
    | none, none => return some (← setFlag versioned o name, false)

/-- Takes the options at the front of some arguments. What is left begins with something else. -/
def takeOptions (versioned : Bool) (o : Options) : List String → Except Stop (Options × List String)
  | [] => return (o, [])
  | text :: rest =>
    match takeOption? versioned o text rest.head? with
    | .error stop => .error stop
    | .ok none => return (o, text :: rest)
    | .ok (some (o, tookNext)) => takeOptions versioned o (if tookNext then rest.tail else rest)
termination_by arguments => arguments.length
decreasing_by
  split
  · simp only [List.length_tail, List.length_cons]
    omega
  · simp

/-- Reads what stands behind an action: its file, with options on either side. -/
def takeFile (arguments : List String) : Except Stop (Options × Path) := do
  let (before, rest) ← takeOptions false .unset arguments
  let (after, file) ← match rest with
    | "--" :: file :: [] => pure (before, file)
    | file :: later =>
      if file = "--" ∨ file = "" then throw .misuse
      match ← takeOptions false before later with
      | (after, []) | (after, ["--"]) => pure (after, file)
      | _ => throw .misuse
    | [] => throw .misuse
  if file = "" ∨ !after.consistent then throw .misuse
  return (after, ⟨file⟩)

/-- Whether help can be asked for about some arguments. -/
def isHelpTopic (arguments : List String) : Bool :=
  match arguments with
  | [] | ["help"] => true
  | [name] => (Action.ofName? name).isSome
  | _ => false

def read (arguments : List String) : Except Stop (Action × Path × Options) := do
  let (front, rest) ← takeOptions true .unset arguments
  match rest with
  | "help" :: topic => throw (if isHelpTopic topic then .help else .misuse)
  | name :: later =>
    match Action.ofName? name with
    | none => throw .misuse
    | some action =>
      let (behind, file) ← takeFile later
      if !front.consistent then throw .misuse
      return (action, file, behind.orElse front)
  | [] => throw .misuse

end Satzbau.CommandLine

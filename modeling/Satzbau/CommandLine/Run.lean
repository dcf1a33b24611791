import Satzbau.CommandLine.Options
import Satzbau.Configuration

namespace Satzbau.CommandLine

def configuration (library entry : Path) (o : Options) : Configuration :=
  { Configuration.usual library entry with
    standardLibrary := if o.withoutLibrary then none else some (o.standardLibrary.getD library)
    timeout := o.seconds.elim LoadingOptions.usualTimeout (1000 * ·)
    rewrite := !o.withoutRewrite
    colour := !o.withoutColour }

/-- What a run of the program leaves behind. -/
structure Outcome where
  exitCode : Nat
  output : String
  errors : String
  files : Files

def versionLine : String :=
  "germanscript 0.1.0\n"

def usage : String :=
  "Usage: germanscript [OPTIONS] <check|signatures> <FILE>\n"

/-- The exit codes of a run that found a fault, found a fault of its own, or was called wrongly. -/
def faultCode : Nat := 1
def internalCode : Nat := 70
def misuseCode : Nat := 2

/-- A report as it is shown, in red if colours are wanted. -/
def shownReport (colour : Bool) (d : Diagnostic) : String :=
  if colour then "\x1b[31m" ++ d.report ++ "\x1b[0m\n" else d.report ++ "\n"

def answer (action : Action) (compiled : CompiledProgram) : String :=
  match action with
  | .check => "ok\n"
  | .signatures => String.join (compiled.signatures.map (· ++ "\n"))

/-- Runs the program over a tree of files, in which the standard library has a path. Declensions are
looked up without a connection. -/
def run (library : Path) (files : Files) (arguments : List String) : Outcome :=
  match read arguments with
  | .error .misuse => ⟨misuseCode, "", usage, files⟩
  | .error .version => ⟨0, versionLine, "", files⟩
  | .error .help => ⟨0, usage, "", files⟩
  | .ok (action, entry, options) =>
    let c := configuration library entry options
    match ((c.compile .offline).run files : Except Diagnostic CompiledProgram × Files) with
    | (.ok compiled, files) => ⟨0, answer action compiled, "", files⟩
    | (.error fault, files) =>
      let code := if fault.fault.category = .internal then internalCode else faultCode
      ⟨code, "", shownReport c.colour fault, files⟩

/-- The paths that a run would read and cannot, as far as the tree tells. -/
def unread (library : Path) (files : Files) (arguments : List String) : List Path :=
  match read arguments with
  | .error _ => []
  | .ok (_, entry, options) =>
    match (configuration library entry options).stream files with
    | .ok stream => stream.unread
    | .error _ => []

end Satzbau.CommandLine

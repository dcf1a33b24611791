import Satzbau.Compilation

namespace Satzbau

/-- What to compile and how. Times are in milliseconds. -/
structure Configuration where
  standardLibrary : Option Path
  entry : Path
  timeout : Nat
  rewrite : Bool
  colour : Bool
deriving DecidableEq, Repr

namespace Configuration

/-- The configuration that a program has unless something else is asked for. -/
def usual (library entry : Path) : Configuration :=
  ⟨some library, entry, LoadingOptions.usualTimeout, true, true⟩

/-- A configuration under which a program stands alone and nothing is written. -/
def isolated (entry : Path) : Configuration :=
  ⟨none, entry, LoadingOptions.usualTimeout, false, false⟩

/-- The files with which reading begins. -/
def sources (c : Configuration) : List Path :=
  c.standardLibrary.toList ++ [c.entry]

/-- What the files of a program hold. -/
def stream (c : Configuration) (files : Files) : Except Diagnostic TokenStream :=
  return .ofQueue files (← ImportQueue.ofPaths files c.sources)

/-- Reads, loads and checks a program. -/
def compile (c : Configuration) (service : LookupService) : Loading CompiledProgram := do
  let stream ← c.stream (← get)
  let program ← stream.program
  let dictionary ← program.dictionary ⟨service, c.timeout, c.rewrite⟩
  program.analyze dictionary

end Configuration

end Satzbau

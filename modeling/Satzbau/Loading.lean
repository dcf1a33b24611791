import Satzbau.Dictionary
import Satzbau.Lookup
import Satzbau.Program
import Satzbau.Rewriting

namespace Satzbau

/-- How the declensions of a program are loaded: whom to ask for those that are left open, how long
to wait for each, and whether answers are written into the program. -/
structure LoadingOptions where
  service : LookupService
  timeout : Nat
  rewrite : Bool

/-- The number of milliseconds that a lookup is given if nothing else is said. -/
def LoadingOptions.usualTimeout : Nat :=
  10000

/-- A load may fail and may change files, also when it fails later. -/
abbrev Loading := ExceptT Diagnostic (StateM Files)

def Program.declensions (p : Program) : List DeclensionDefinition :=
  p.definitions.filterMap fun
    | .declension d => some d
    | _ => none

/-- The declensions that a program spells out, each with the keyword of its statement. -/
def Program.inlineDeclensions (p : Program) : List (Token × Declension) :=
  p.declensions.filterMap fun d =>
    match d.source with
    | .inline declension => some (d.token, declension)
    | .external _ => none

/-- The declensions that a program leaves to a service. -/
def Program.lookupRequests (p : Program) : List LookupRequest :=
  p.declensions.filterMap fun d =>
    match d.source with
    | .inline _ => none
    | .external word => some ⟨d.token, word⟩

namespace Dictionary

/-- Inserts an entry for which a token stands. -/
def insertAt (dictionary : Dictionary) (blamed : Token) (entry : Declension) : Except Diagnostic Dictionary :=
  match dictionary.insert entry with
  | .ok grown => .ok grown
  | .error fault => .error (blamed.blame fault)

def ofInline (declensions : List (Token × Declension)) : Except Diagnostic Dictionary :=
  declensions.foldlM (fun dictionary (token, entry) => dictionary.insertAt token entry) empty

/-- Takes in the outcome of a lookup. -/
def takeIn (rewrite : Bool) (dictionary : Dictionary) (request : LookupRequest)
    (outcome : Except LookupFailure Declension) : Loading Dictionary := do
  match outcome with
  | .error failure => throw (failure.diagnostic request.word)
  | .ok declension =>
    if rewrite then
      set (← (← get).writeDeclension ⟨request.statement.file⟩ request.statement.span.line declension)
    dictionary.insertAt request.word declension

/-- Takes in the outcomes of lookups in the order in which they were asked for. Lookups end in any
order; those that end early wait here. -/
def drain (rewrite : Bool) (arrivals : List Arrival) :
    Dictionary → List (LookupRequest × Nat) → Loading Dictionary
  | dictionary, [] => return dictionary
  | dictionary, (request, index) :: later => do
    match arrivals.find? fun arrival => arrival.index == index with
    | none => throw (.unlocated (.internal "declension lookup task failed"))
    | some arrival => drain rewrite arrivals (← takeIn rewrite dictionary request arrival.outcome) later

end Dictionary

/-- The dictionary of a program: first all declensions that it spells out, then those that the
service knows. -/
def Program.dictionary (p : Program) (options : LoadingOptions) : Loading Dictionary := do
  let inline ← Dictionary.ofInline p.inlineDeclensions
  let requests := p.lookupRequests
  inline.drain options.rewrite (options.service.arrivals options.timeout requests) requests.zipIdx

end Satzbau

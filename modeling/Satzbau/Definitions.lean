import Satzbau.Signature
import Satzbau.Visit

namespace Satzbau

/-- Where a program defines something that can be called: the index of a definition, and of a
method within it. -/
inductive Callable
  | function (definition : Nat)
  | method (definition method : Nat)
deriving DecidableEq, Repr

/-- The function or method at some place of a program. -/
def Callable.definition? (p : Program) : Callable → Option FunctionDefinition
  | function index =>
    match p.definitions[index]? with
    | some (.function f) => some f
    | _ => none
  | method index position =>
    match p.definitions[index]? with
    | some (.implementation i) => i.methods[position]?
    | _ => none

/-- The index of a definition and of a conversion within it. -/
structure ConversionPlace where
  definition : Nat
  conversion : Nat
deriving DecidableEq, Repr

def ConversionPlace.definition? (p : Program) (place : ConversionPlace) : Option ConversionDefinition :=
  match p.definitions[place.definition]? with
  | some (.implementation i) => i.conversions[place.conversion]?
  | _ => none

/-- What was defined under a key, and where. -/
structure Entry (α : Type) where
  target : α
  origin : Location

/-- Things under different keys, in the order in which they were defined. -/
abbrev Table (α : Type) := List (String × α)

namespace Table

def keys {α : Type} (t : Table α) : List String :=
  (t.map Prod.fst).mergeSort fun a b => a ≤ b

/-- Defines something under a key. A key that is taken is a fault at the later definition, which
tells where the earlier one is. -/
def define {α : Type} (t : Table (Entry α)) (what : Definable) (key : String) (target : α) (origin : Location) :
    Except Diagnostic (Table (Entry α)) :=
  match t.lookup key with
  | some earlier => .error (.located origin (.duplicateDefinition what key earlier.origin))
  | none => .ok (t ++ [(key, ⟨target, origin⟩)])

end Table

structure ClassEntry where
  definition : Nat
  origin : Location
  methods : Table (Entry Callable)
  conversions : Table (Entry ConversionPlace)

def ClassEntry.definition? (p : Program) (entry : ClassEntry) : Option ClassDefinition :=
  match p.definitions[entry.definition]? with
  | some (.noun c) => some c
  | _ => none

/-- All that a program defines, and the signatures of its calls. -/
structure Definitions where
  functions : Table (Entry Callable)
  classes : Table ClassEntry
  calls : List (NodeId × String)

namespace Definitions

def empty : Definitions :=
  ⟨[], [], []⟩

/-- The names of the types that every program has. -/
def reservedTypeNames : List String :=
  ["Zahl", "Zeichenfolge", "Boolean"]

def defineClass (annotations : Annotations) (definitions : Definitions) (index : Nat) (c : ClassDefinition) :
    Except Diagnostic Definitions := do
  let name ← annotations.typeName c.name
  if reservedTypeNames.contains name then throw (c.name.noun.blame (.reservedTypeName name))
  match definitions.classes.lookup name with
  | some earlier => throw (c.name.noun.blame (.duplicateDefinition .noun name earlier.origin))
  | none =>
    return { definitions with
      classes := definitions.classes ++ [(name, ⟨index, c.name.location, [], []⟩)] }

def defineFunction (annotations : Annotations) (definitions : Definitions) (index : Nat)
    (f : FunctionDefinition) : Except Diagnostic Definitions := do
  let signature ← f.header.signature annotations
  let functions ← definitions.functions.define .function signature.text (.function index) f.header.verb.location
  return { definitions with functions := functions }

def defineMethod (annotations : Annotations) (index : Nat) (c : ClassEntry)
    (entry : FunctionDefinition × Nat) : Except Diagnostic ClassEntry := do
  let signature ← entry.1.header.signature annotations
  let methods ← c.methods.define .method signature.text (.method index entry.2) entry.1.header.verb.location
  return { c with methods := methods }

def defineConversion (annotations : Annotations) (index : Nat) (c : ClassEntry)
    (entry : ConversionDefinition × Nat) : Except Diagnostic ClassEntry := do
  let target ← annotations.typeName entry.1.target
  let conversions ← c.conversions.define .conversion target ⟨index, entry.2⟩ entry.1.token.location
  return { c with conversions := conversions }

/-- Adds the members of an implementation to the class that it names. -/
def defineImplementation (annotations : Annotations) (definitions : Definitions) (index : Nat)
    (i : ImplementationDefinition) : Except Diagnostic Definitions := do
  let name ← annotations.typeName i.owner
  match definitions.classes.lookup name with
  | none => throw (i.owner.noun.blame (.undefinedType name))
  | some c =>
    let withMethods ← i.methods.zipIdx.foldlM (defineMethod annotations index) c
    let complete ← i.conversions.zipIdx.foldlM (defineConversion annotations index) withMethods
    return { definitions with
      classes := definitions.classes.map fun entry =>
        if entry.1 = name then (name, complete) else entry }

/-- Classes come first, so that an implementation can stand before its class. -/
def defineIfClass (annotations : Annotations) (definitions : Definitions) (entry : Definition × Nat) :
    Except Diagnostic Definitions :=
  match entry.1 with
  | .noun c => defineClass annotations definitions entry.2 c
  | _ => return definitions

def defineUnlessClass (annotations : Annotations) (definitions : Definitions) (entry : Definition × Nat) :
    Except Diagnostic Definitions :=
  match entry.1 with
  | .function f => defineFunction annotations definitions entry.2 f
  | .implementation i => defineImplementation annotations definitions entry.2 i
  | .noun _ | .declension _ => return definitions

def callSignature (annotations : Annotations) (c : Call) : Except Diagnostic (NodeId × String) :=
  return (c.id, (← c.signature annotations).text)

def ofProgram (annotations : Annotations) (p : Program) : Except Diagnostic Definitions := do
  let classes ← p.definitions.zipIdx.foldlM (defineIfClass annotations) empty
  let definitions ← p.definitions.zipIdx.foldlM (defineUnlessClass annotations) classes
  let calls ← p.calls.mapM (callSignature annotations)
  return { definitions with calls := calls }

def signature? (definitions : Definitions) (c : Call) : Option String :=
  definitions.calls.lookup c.id

def signature (definitions : Definitions) (c : Call) : Except Diagnostic String :=
  match definitions.signature? c with
  | some signature => .ok signature
  | none => .error (c.verb.blame (.internal s!"no signature computed for '{c.verb.text}'"))

/-- The function that a call names. -/
def function (definitions : Definitions) (c : Call) : Except Diagnostic Callable := do
  let signature ← definitions.signature c
  match definitions.functions.lookup signature with
  | some entry => return entry.target
  | none => throw (c.verb.blame (.undefinedFunction signature))

/-- The method of a class that a call names. -/
def method (definitions : Definitions) (owner : String) (c : Call) : Except Diagnostic Callable := do
  let signature ← definitions.signature c
  match definitions.classes.lookup owner with
  | none => throw (c.verb.blame (.undefinedType owner))
  | some entry =>
    match entry.methods.lookup signature with
    | some found => return found.target
    | none => throw (c.verb.blame (.undefinedMethod owner signature))

/-- The classes in the order of their names. -/
def sortedClasses (definitions : Definitions) : List (String × ClassEntry) :=
  definitions.classes.mergeSort fun a b => a.1 ≤ b.1

/-- The method that a call names in the first class, by name, that has one. -/
def anyMethod? (definitions : Definitions) (c : Call) : Option Callable :=
  (definitions.signature? c).bind fun signature =>
    definitions.sortedClasses.findSome? fun entry =>
      (entry.2.methods.lookup signature).map Entry.target

/-- The class with some name, which a phrase mentions. -/
def type (definitions : Definitions) (name : String) (p : NounPhrase) : Except Diagnostic ClassEntry :=
  match definitions.classes.lookup name with
  | some entry => .ok entry
  | none => .error (p.noun.blame (.undefinedType name))

def conversion (definitions : Definitions) (owner target : String) (p : NounPhrase) :
    Except Diagnostic ConversionPlace := do
  let entry ← definitions.type owner p
  match entry.conversions.lookup target with
  | some found => return found.target
  | none => throw (p.noun.blame (.undefinedConversion owner target))

/-- Where calls may name methods of a class that is not known: within implementations and method
blocks. -/
def opensMethods : Node → Bool
  | .definition (.implementation _) | .statement (.methodBlock ..) => true
  | _ => false

/-- Why a call names nothing, if it does not. -/
def unresolved? (definitions : Definitions) (withMethods : Bool) (c : Call) : Option Diagnostic :=
  match definitions.function c with
  | .ok _ => none
  | .error fault =>
    if withMethods && (definitions.anyMethod? c).isSome then none else some fault

/-- Whether every call of a program names something, else the first fault. -/
def verify (definitions : Definitions) (p : Program) : Except Diagnostic Unit :=
  let unresolved := (p.visits (fun node inherited => inherited || opensMethods node) false).findSome? fun
    | (withMethods, .call c) => definitions.unresolved? withMethods c
    | _ => none
  match unresolved with
  | some fault => .error fault
  | none => .ok ()

end Definitions

end Satzbau

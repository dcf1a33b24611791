import Satzbau.Checker
import Satzbau.Definitions
import Satzbau.Loading
import Satzbau.Parser.Run

namespace Satzbau

/-- A program that was checked, with all that is known about it. -/
structure CompiledProgram where
  program : Program
  dictionary : Dictionary
  annotations : Annotations
  definitions : Definitions

/-- Checks a program whose words are known. -/
def Program.analyze (p : Program) (dictionary : Dictionary) : Except Diagnostic CompiledProgram := do
  let annotations ← p.annotations dictionary
  let definitions ← Definitions.ofProgram annotations p
  definitions.verify p
  return ⟨p, dictionary, annotations, definitions⟩

namespace CompiledProgram

/-- What stands at a place of the definition tables. -/
def atPlace {α : Type} (name : String) : Option α → Except Diagnostic α
  | some found => .ok found
  | none =>
    .error (.unlocated (.internal s!"definition table entry for '{name}' points outside the program"))

/-- The function that a call runs. -/
def function (compiled : CompiledProgram) (c : Call) : Except Diagnostic FunctionDefinition := do
  let callable ← compiled.definitions.function c
  atPlace c.verb.text (callable.definition? compiled.program)

/-- The method that a call runs on an instance. -/
def method (compiled : CompiledProgram) (instanceOf : NounPhrase) (c : Call) :
    Except Diagnostic FunctionDefinition := do
  let owner ← compiled.annotations.typeName instanceOf
  let callable ← compiled.definitions.method owner c
  atPlace c.verb.text (callable.definition? compiled.program)

/-- The class that a phrase names. -/
def type (compiled : CompiledProgram) (p : NounPhrase) : Except Diagnostic ClassDefinition := do
  let name ← compiled.annotations.typeName p
  let entry ← compiled.definitions.type name p
  atPlace name (entry.definition? compiled.program)

/-- How an instance becomes what a phrase names. -/
def conversion (compiled : CompiledProgram) (instanceOf target : NounPhrase) :
    Except Diagnostic ConversionDefinition := do
  let owner ← compiled.annotations.typeName instanceOf
  let name ← compiled.annotations.typeName target
  let place ← compiled.definitions.conversion owner name target
  atPlace name (place.definition? compiled.program)

def classLines (entry : String × ClassEntry) : List String :=
  ("Nomen " ++ entry.1) :: entry.2.methods.keys.map ("  Verb " ++ ·) ++ entry.2.conversions.keys.map ("  Als " ++ ·)

/-- A line for everything that the program defines: functions by signature, then classes by name,
each with its methods and conversions. -/
def signatures (compiled : CompiledProgram) : List String :=
  compiled.definitions.functions.keys.map ("Verb " ++ ·) ++
    compiled.definitions.sortedClasses.flatMap classLines

end CompiledProgram

end Satzbau

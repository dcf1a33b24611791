import Satzbau.Case
import Satzbau.Gender
import Satzbau.NounPhrase

namespace Satzbau

/-- What the grammar of a program says about a noun phrase. A phrase whose noun is a symbol is not
declined, so it has neither gender nor nominative. -/
structure Annotation where
  cases : CaseSet
  number : Number
  gender : Option Gender
  nominative : Option String
  determiner : Option String
  immutable : Bool
deriving DecidableEq, Repr, Inhabited

namespace Annotation

def grammaticalCase (a : Annotation) : Option Case :=
  a.cases.first?

def isSymbol (a : Annotation) : Bool :=
  a.nominative.isNone

end Annotation

/-- The annotations of the phrases met so far, in the order of their ids. The journal lists the ids
as they were recorded, the latest first. -/
structure Annotations where
  table : List (NodeId × Annotation)
  journal : List NodeId
deriving DecidableEq, Repr

/-- A moment to which annotations can return: the length that the journal had. -/
abbrev Checkpoint := Nat

namespace Annotations

def empty : Annotations :=
  ⟨[], []⟩

def get? (a : Annotations) (id : NodeId) : Option Annotation :=
  a.table.lookup id

def size (a : Annotations) : Nat :=
  a.table.length

/-- Puts an annotation into its place among the ids. -/
def insertById (id : NodeId) (reading : Annotation) :
    List (NodeId × Annotation) → List (NodeId × Annotation)
  | [] => [(id, reading)]
  | entry :: later =>
    if id < entry.1 then (id, reading) :: entry :: later
    else entry :: insertById id reading later

/-- Notes an annotation unless the phrase has one already. -/
def record (a : Annotations) (id : NodeId) (reading : Annotation) : Annotations :=
  match a.get? id with
  | some _ => a
  | none => ⟨insertById id reading a.table, id :: a.journal⟩

def checkpoint (a : Annotations) : Checkpoint :=
  a.journal.length

/-- Forgets what was recorded since a checkpoint. -/
def rollback (a : Annotations) (moment : Checkpoint) : Annotations :=
  let later := a.journal.take (a.journal.length - moment)
  ⟨a.table.filter fun entry => !later.contains entry.1, a.journal.drop (a.journal.length - moment)⟩

/-- The annotation of a phrase, which must have been checked. -/
def phrase (a : Annotations) (p : NounPhrase) : Except Diagnostic Annotation :=
  match a.get? p.id with
  | some reading => .ok reading
  | none => .error (.located p.location (.internal s!"'{p.word}' was not grammar checked"))

/-- The type that a phrase names: its noun in the nominative singular, or a symbol as it is. -/
def typeName (a : Annotations) (p : NounPhrase) : Except Diagnostic String :=
  return (← a.phrase p).nominative.getD p.word

end Annotations

end Satzbau

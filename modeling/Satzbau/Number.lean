namespace Satzbau

inductive Number
  | singular
  | plural
deriving DecidableEq, Repr, Inhabited

namespace Number

def all : List Number :=
  [singular, plural]

theorem mem_all (n : Number) : n ∈ all := by
  cases n <;> decide

def name : Number → String
  | singular => "Singular"
  | plural => "Plural"

/-- The verb of an assignment to a phrase of this number. -/
def assignmentVerb : Number → String
  | singular => "ist"
  | plural => "sind"

end Number

structure NumberSet where
  singular : Bool
  plural : Bool
deriving DecidableEq, Repr, Inhabited

namespace NumberSet

def all : NumberSet :=
  ⟨true, true⟩

def contains (s : NumberSet) : Number → Bool
  | .singular => s.singular
  | .plural => s.plural

instance : Membership Number NumberSet :=
  ⟨fun s n => s.contains n = true⟩

instance (n : Number) (s : NumberSet) : Decidable (n ∈ s) :=
  inferInstanceAs (Decidable (s.contains n = true))

/-- The numbers that satisfy a test. -/
def ofTest (accepts : Number → Bool) : NumberSet :=
  ⟨accepts .singular, accepts .plural⟩

theorem contains_ofTest (accepts : Number → Bool) (n : Number) :
    (ofTest accepts).contains n = accepts n := by
  cases n <;> rfl

def single (n : Number) : NumberSet :=
  ofTest (· == n)

def inter (s t : NumberSet) : NumberSet :=
  ofTest fun n => s.contains n && t.contains n

/-- The members, singular before plural. -/
def toList (s : NumberSet) : List Number :=
  Number.all.filter s.contains

theorem mem_toList {s : NumberSet} {n : Number} : n ∈ s.toList ↔ n ∈ s := by
  show n ∈ Number.all.filter s.contains ↔ s.contains n = true
  simp [Number.mem_all]

theorem mem_inter {s t : NumberSet} {n : Number} : n ∈ s.inter t ↔ n ∈ s ∧ n ∈ t := by
  show (s.inter t).contains n = true ↔ s.contains n = true ∧ t.contains n = true
  rw [inter, contains_ofTest, Bool.and_eq_true]

def isEmpty (s : NumberSet) : Bool :=
  s.toList.isEmpty

end NumberSet

end Satzbau

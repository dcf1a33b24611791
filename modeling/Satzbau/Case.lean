namespace Satzbau

/-- The four grammatical cases, in the order of a declension table. -/
inductive Case
  | nominative
  | genitive
  | dative
  | accusative
deriving DecidableEq, Repr, Inhabited

namespace Case

def all : List Case :=
  [nominative, genitive, dative, accusative]

theorem mem_all (c : Case) : c ∈ all := by
  cases c <;> decide

/-- The name of a case in messages. -/
def name : Case → String
  | nominative => "Nominativ"
  | genitive => "Genitiv"
  | dative => "Dativ"
  | accusative => "Akkusativ"

/-- The name of a case in English. -/
def englishName : Case → String
  | nominative => "Nominative"
  | genitive => "Genitive"
  | dative => "Dative"
  | accusative => "Accusative"

end Case

/-- A set of cases. Many forms fit several cases at once, and many places in a sentence accept
more than one. -/
structure CaseSet where
  nominative : Bool
  genitive : Bool
  dative : Bool
  accusative : Bool
deriving DecidableEq, Repr, Inhabited

namespace CaseSet

def empty : CaseSet :=
  ⟨false, false, false, false⟩

def all : CaseSet :=
  ⟨true, true, true, true⟩

def contains (s : CaseSet) : Case → Bool
  | .nominative => s.nominative
  | .genitive => s.genitive
  | .dative => s.dative
  | .accusative => s.accusative

instance : Membership Case CaseSet :=
  ⟨fun s c => s.contains c = true⟩

instance (c : Case) (s : CaseSet) : Decidable (c ∈ s) :=
  inferInstanceAs (Decidable (s.contains c = true))

/-- The cases that satisfy a test. -/
def ofTest (accepts : Case → Bool) : CaseSet :=
  ⟨accepts .nominative, accepts .genitive, accepts .dative, accepts .accusative⟩

theorem contains_ofTest (accepts : Case → Bool) (c : Case) :
    (ofTest accepts).contains c = accepts c := by
  cases c <;> rfl

theorem ext {s t : CaseSet} (same : ∀ c, s.contains c = t.contains c) : s = t := by
  obtain ⟨_, _, _, _⟩ := s
  obtain ⟨_, _, _, _⟩ := t
  simpa [contains] using
    And.intro (same .nominative) (And.intro (same .genitive) (And.intro (same .dative) (same .accusative)))

def single (c : Case) : CaseSet :=
  ofTest (· == c)

def ofList (cases : List Case) : CaseSet :=
  ofTest fun c => cases.contains c

def filter (accepts : Case → Bool) (s : CaseSet) : CaseSet :=
  ofTest fun c => s.contains c && accepts c

def inter (s t : CaseSet) : CaseSet :=
  s.filter t.contains

theorem mem_filter {accepts : Case → Bool} {s : CaseSet} {c : Case} :
    c ∈ s.filter accepts ↔ c ∈ s ∧ accepts c = true := by
  show (s.filter accepts).contains c = true ↔ s.contains c = true ∧ accepts c = true
  rw [filter, contains_ofTest, Bool.and_eq_true]

theorem mem_inter {s t : CaseSet} {c : Case} : c ∈ s.inter t ↔ c ∈ s ∧ c ∈ t :=
  mem_filter

theorem mem_single {c d : Case} : d ∈ single c ↔ d = c := by
  show (single c).contains d = true ↔ d = c
  rw [single, contains_ofTest, beq_iff_eq]

/-- The members in the order of a declension table. -/
def toList (s : CaseSet) : List Case :=
  Case.all.filter s.contains

theorem mem_toList {s : CaseSet} {c : Case} : c ∈ s.toList ↔ c ∈ s := by
  show c ∈ Case.all.filter s.contains ↔ s.contains c = true
  simp [Case.mem_all]

def size (s : CaseSet) : Nat :=
  s.toList.length

def isEmpty (s : CaseSet) : Bool :=
  s.toList.isEmpty

/-- The earliest member in the order of a declension table. -/
def first? (s : CaseSet) : Option Case :=
  s.toList.head?

theorem exists_mem {s : CaseSet} (nonempty : s.isEmpty = false) : ∃ c, c ∈ s := by
  obtain ⟨c, inside⟩ := List.exists_mem_of_ne_nil s.toList (by simpa [isEmpty] using nonempty)
  exact ⟨c, mem_toList.mp inside⟩

theorem isEmpty_eq_false {s : CaseSet} {c : Case} (member : c ∈ s) : s.isEmpty = false := by
  have nonempty := List.ne_nil_of_mem (mem_toList.mpr member)
  simpa [isEmpty] using nonempty

theorem first?_mem {s : CaseSet} {c : Case} (first : s.first? = some c) : c ∈ s :=
  mem_toList.mp (List.mem_of_head? first)

theorem eq_single {s : CaseSet} {c : Case} (nonempty : s.isEmpty = false) (only : ∀ d ∈ s, d = c) :
    s = single c := by
  obtain ⟨d, inside⟩ := exists_mem nonempty
  have member : c ∈ s := only d inside ▸ inside
  apply ext
  intro d
  rw [Bool.eq_iff_iff]
  show d ∈ s ↔ d ∈ single c
  rw [mem_single]
  exact ⟨only d, fun same => same ▸ member⟩

/-- The names of the members, such as `Dativ/Akkusativ`. -/
def text (s : CaseSet) : String :=
  "/".intercalate (s.toList.map Case.name)

end CaseSet

end Satzbau

import Satzbau.Agreement

namespace Satzbau.Agreement

/-- What a phrase is annotated with when its noun is declined: it is read in one number and in some
of the accepted cases, and in each of them noun and determiner are spelled as the case asks. -/
structure Fits (p : NounPhrase) (entry : Declension) (cases : CaseSet) (n : Number) (reading : Annotation) : Prop where
  number : reading.number = n
  gender : reading.gender = some entry.gender
  nominative : reading.nominative = some entry.nominative
  nonempty : reading.cases.isEmpty = false
  accepted : ∀ c ∈ reading.cases, c ∈ cases
  noun : ∀ c ∈ reading.cases, entry.form c n = p.word
  determiner : ∀ token kind, declinedDeterminer? p = some (token, kind) →
    ∀ c ∈ reading.cases, kind.form c entry.gender n = token.text
  spelling : reading.determiner = (declinedDeterminer? p).map fun found => found.1.text

/-- Where only one case is accepted, that case is the one of the reading. -/
theorem Fits.cases_single {p : NounPhrase} {entry : Declension} {c : Case} {n : Number} {reading : Annotation}
    (fits : Fits p entry (.single c) n reading) : reading.cases = .single c :=
  CaseSet.eq_single fits.nonempty fun d inside => CaseSet.mem_single.mp (fits.accepted d inside)

theorem Fits.grammaticalCase {p : NounPhrase} {entry : Declension} {c : Case} {n : Number} {reading : Annotation}
    (fits : Fits p entry (.single c) n reading) : reading.grammaticalCase = some c := by
  rw [ Annotation.grammaticalCase, fits.cases_single]
  cases c <;> rfl

theorem mem_casesOf {entry : Declension} {word : String} {n : Number} {c : Case} :
    c ∈ entry.casesOf word n ↔ entry.form c n = word := by
  show (entry.casesOf word n).contains c = true ↔ entry.form c n = word
  rw [Declension.casesOf, CaseSet.contains_ofTest, beq_iff_eq]

theorem agree_fits {p : NounPhrase} {entry : Declension} {cases : CaseSet} {n : Number} {reading : Annotation}
    (read : agree p entry cases n = .ok reading) : Fits p entry cases n reading := by
  have within : ∀ c ∈ (entry.casesOf p.word n).inter cases, entry.form c n = p.word ∧ c ∈ cases := by
    intro c inside
    obtain ⟨spelled, accepted⟩ := CaseSet.mem_inter.mp inside
    exact ⟨mem_casesOf.mp spelled, accepted⟩
  unfold agree at read
  dsimp only at read
  split at read
  · contradiction
  · rename_i nonempty
    split at read
    · rename_i undetermined
      cases read
      exact {
        number := rfl
        gender := rfl
        nominative := rfl
        nonempty := Bool.eq_false_iff.mpr nonempty
        accepted := fun c inside => (within c inside).2
        noun := fun c inside => (within c inside).1
        determiner := fun token kind determined => by
          rw [undetermined] at determined
          contradiction
        spelling := by
          rw [undetermined]
          rfl }
    · rename_i token kind determined
      split at read
      · contradiction
      · rename_i c first
        cases read
        exact {
          number := rfl
          gender := rfl
          nominative := rfl
          nonempty := CaseSet.isEmpty_eq_false (CaseSet.first?_mem first)
          accepted := fun d inside => (within d (CaseSet.mem_filter.mp inside).1).2
          noun := fun d inside => (within d (CaseSet.mem_filter.mp inside).1).1
          determiner := fun token' kind' determined' d inside => by
            rw [determined] at determined'
            cases determined'
            exact beq_iff_eq.mp (CaseSet.mem_filter.mp inside).2
          spelling := by
            rw [determined]
            exact congrArg some (beq_iff_eq.mp (CaseSet.mem_filter.mp (CaseSet.first?_mem first)).2) }

theorem agreeInOne_eq_ok {p : NounPhrase} {entry : Declension} {cases : CaseSet} {numbers : List Number}
    {reading : Annotation} (read : agreeInOne p entry cases numbers = .ok reading) :
    ∃ n ∈ numbers, agree p entry cases n = .ok reading := by
  cases numbers with
  | nil => contradiction
  | cons n others =>
    rw [agreeInOne] at read
    split at read
    · rename_i agreed
      exact ⟨n, List.mem_cons_self .., read ▸ agreed⟩
    · split at read
      · rename_i found
        cases read
        obtain ⟨m, member, agreed⟩ := List.exists_of_findSome?_eq_some found
        refine ⟨m, List.mem_cons_of_mem _ member, ?_⟩
        cases result : agree p entry cases m with
        | ok other =>
          rw [result] at agreed
          cases agreed
          rfl
        | error fault =>
          rw [result] at agreed
          contradiction
      · contradiction

/-- A phrase whose noun is declined is read in an accepted number, and fits. -/
theorem decline_eq_ok {dictionary : Dictionary} {p : NounPhrase} {cases : CaseSet} {numbers : NumberSet}
    {reading : Annotation} (read : decline dictionary p cases numbers = .ok reading) :
    ∃ entry n, dictionary.lookup p.word = .ok entry ∧ n ∈ numbers ∧ Fits p entry cases n reading := by
  unfold decline at read
  split at read
  · contradiction
  · rename_i entry found
    dsimp only at read
    split at read
    · contradiction
    · obtain ⟨n, candidate, agreed⟩ := agreeInOne_eq_ok read
      exact ⟨entry, n, found, (NumberSet.mem_inter.mp (NumberSet.mem_toList.mp candidate)).2, agree_fits agreed⟩

/-- A phrase that is annotated is a symbol, or its noun is declined and the phrase fits. -/
theorem annotate_eq_ok {dictionary : Dictionary} {p : NounPhrase} {cases : CaseSet} {numbers : NumberSet}
    {reading : Annotation} (read : annotate dictionary p cases numbers = .ok reading) :
    (p.isSymbol = true ∧ reading = symbol p cases) ∨
      p.isSymbol = false ∧ ∃ entry n, dictionary.lookup p.word = .ok entry ∧ Fits p entry cases n reading := by
  unfold annotate at read
  split at read
  · rename_i isSymbol
    cases read
    exact Or.inl ⟨isSymbol, rfl⟩
  · rename_i notSymbol
    obtain ⟨entry, n, found, _, fits⟩ := decline_eq_ok read
    exact Or.inr ⟨Bool.eq_false_iff.mpr notSymbol, entry, n, found, fits⟩

/-- A phrase that is read where one case is accepted is read in that case. -/
theorem annotate_single {dictionary : Dictionary} {p : NounPhrase} {c : Case} {numbers : NumberSet}
    {reading : Annotation} (read : annotate dictionary p (.single c) numbers = .ok reading) :
    reading.cases = .single c := by
  obtain ⟨_, rfl⟩ | ⟨_, entry, n, _, fits⟩ := annotate_eq_ok read
  · rfl
  · exact fits.cases_single

end Satzbau.Agreement

import Satzbau.Proofs.Lookup.Entries

namespace Satzbau

open Collation

theorem Collation.folded_ofList (letters : List Char) : folded (String.ofList letters) = letters.map fold := by
  rw [folded, String.toList_ofList]

theorem Collation.folded_eq_nil_iff {word : String} : folded word = [] ↔ word = "" := by
  rw [← List.length_eq_zero_iff, length_folded, String.length_eq_zero_iff]

/-- Whether an entry is one that a word may be looked up under: the word is one of its forms, and word
and nominative are alike. -/
def Declension.Answers (e : Declension) (word : String) : Prop :=
  word ∈ e.forms ∧ Alike word e.nominative

namespace Dictionary

variable {entries : List Declension} {word : String}

/-- The halving goes by the order of the dictionary alone, past the entries that do not answer. -/
theorem searchBetween_step (word : String) {low high : Nat} {entry : Declension} (isOpen : low < high)
    (atMiddle : entries[low + (high - low) / 2]? = some entry) :
    searchBetween entries word low high = some entry ∧ entry.Answers word ∨
      ¬entry.Answers word ∧
        (compareWords word entry.nominative = .lt ∧
            searchBetween entries word low high = searchBetween entries word low (low + (high - low) / 2) ∨
          compareWords word entry.nominative ≠ .lt ∧
            searchBetween entries word low high = searchBetween entries word (low + (high - low) / 2 + 1) high) := by
  rw [searchBetween, if_pos isOpen]
  simp only [atMiddle]
  cases fronts : compareFronts word entry.nominative with
  | lt =>
    have differ : compareFronts word entry.nominative ≠ .eq := by rw [fronts]; decide
    have less := (compareFronts_eq_compareWords differ).symm.trans fronts
    exact Or.inr ⟨fun answers => differ (compareFronts_eq_eq_iff.mpr answers.2), Or.inl ⟨less, rfl⟩⟩
  | gt =>
    have differ : compareFronts word entry.nominative ≠ .eq := by rw [fronts]; decide
    have greater := (compareFronts_eq_compareWords differ).symm.trans fronts
    refine Or.inr ⟨fun answers => differ (compareFronts_eq_eq_iff.mpr answers.2), Or.inr ⟨?_, rfl⟩⟩
    rw [greater]
    decide
  | eq =>
    dsimp only
    split
    · rename_i isForm
      exact Or.inl ⟨rfl, Declension.contains_iff.mp isForm, compareFronts_eq_eq_iff.mp fronts⟩
    · rename_i notForm
      refine Or.inr ⟨fun answers => notForm (Declension.contains_iff.mpr answers.1), ?_⟩
      split
      · rename_i less
        exact Or.inl ⟨less, rfl⟩
      · rename_i notLess
        exact Or.inr ⟨notLess, rfl⟩

theorem searchBetween_closed {low high : Nat} (closed : ¬low < high) : searchBetween entries word low high = none := by
  rw [searchBetween, if_neg closed]

/-- What is found between two indices stands there and answers. -/
theorem searchBetween_sound {e : Declension} (low high : Nat) (bound : high ≤ entries.length)
    (found : searchBetween entries word low high = some e) :
    ∃ index, low ≤ index ∧ index < high ∧ entries[index]? = some e ∧ e.Answers word := by
  by_cases isOpen : low < high
  · have atMiddle := entries.getElem?_eq_getElem (i := low + (high - low) / 2) (by omega)
    obtain ⟨here, answers⟩ | ⟨_, ⟨_, step⟩ | ⟨_, step⟩⟩ := searchBetween_step word isOpen atMiddle
    · rw [here] at found
      cases found
      exact ⟨_, by omega, by omega, atMiddle, answers⟩
    · obtain ⟨index, above, below, rest⟩ := searchBetween_sound low (low + (high - low) / 2) (by omega) (step ▸ found)
      exact ⟨index, above, by omega, rest⟩
    · obtain ⟨index, above, below, rest⟩ := searchBetween_sound (low + (high - low) / 2 + 1) high bound (step ▸ found)
      exact ⟨index, by omega, below, rest⟩
  · rw [searchBetween_closed isOpen] at found
    contradiction
termination_by high - low

/-- The first entry is met when the word sorts before all others, unless another one answers. -/
theorem searchBetween_first {first : Declension} (high : Nat) (bound : high ≤ entries.length) (nonempty : 0 < high)
    (atFirst : entries[0]? = some first) (answers : first.Answers word)
    (before : ∀ index entry, 0 < index → index < high → entries[index]? = some entry →
      compareWords word entry.nominative = .lt) :
    ∃ e, searchBetween entries word 0 high = some e := by
  have atMiddle := List.getElem?_eq_getElem (l := entries) (i := 0 + (high - 0) / 2) (by omega)
  obtain ⟨here, _⟩ | ⟨silent, ⟨_, step⟩ | ⟨notLess, _⟩⟩ := searchBetween_step word nonempty atMiddle
  · exact ⟨_, here⟩
  · rw [step]
    by_cases least : (high - 0) / 2 = 0
    · simp only [least, Nat.add_zero] at atMiddle silent
      rw [atFirst] at atMiddle
      rw [← Option.some.inj atMiddle] at silent
      exact absurd answers silent
    · exact searchBetween_first _ (by omega) (by omega) atFirst answers fun index entry above below =>
        before index entry above (by omega)
  · by_cases least : (high - 0) / 2 = 0
    · simp only [least, Nat.add_zero] at atMiddle silent
      rw [atFirst] at atMiddle
      rw [← Option.some.inj atMiddle] at silent
      exact absurd answers silent
    · exact absurd (before _ _ (by omega) (by omega) atMiddle) notLess
termination_by high

/-- The halving comes to the first entry only past entries before which the word sorts. -/
theorem searchBetween_eq_first {first : Declension} (ordered : Ordered entries) (high : Nat)
    (bound : high ≤ entries.length) (atFirst : entries[0]? = some first)
    (found : searchBetween entries word 0 high = some first) :
    ∀ index entry, 0 < index → index < high → entries[index]? = some entry →
      compareWords word entry.nominative = .lt := by
  intro index entry above below atIndex
  have onlyFirst : ∀ i, entries[i]? = some first → i = 0 := by
    intro i atI
    refine Nat.eq_zero_of_not_pos fun later => ?_
    have impossible := ordered.compare_eq_lt later atFirst atI
    have same : compareWords first.nominative first.nominative = .eq := Std.ReflCmp.compare_self
    rw [same] at impossible
    contradiction
  have atMiddle := List.getElem?_eq_getElem (l := entries) (i := 0 + (high - 0) / 2) (by omega)
  obtain ⟨here, _⟩ | ⟨_, ⟨less, step⟩ | ⟨_, step⟩⟩ := searchBetween_step word (by omega) atMiddle
  · rw [here] at found
    have least := onlyFirst _ (found ▸ atMiddle)
    omega
  · rw [step] at found
    by_cases inFront : index < 0 + (high - 0) / 2
    · exact searchBetween_eq_first ordered _ (by omega) atFirst found index entry above inFront atIndex
    · obtain same | behind := Nat.eq_or_lt_of_not_lt inFront
      · rw [same, atMiddle] at atIndex
        exact Option.some.inj atIndex ▸ less
      · exact Std.TransCmp.lt_trans less (ordered.compare_eq_lt behind atMiddle atIndex)
  · rw [step] at found
    obtain ⟨i, fromMiddle, _, atI, _⟩ := searchBetween_sound _ high bound found
    have least := onlyFirst i atI
    omega
termination_by high

section Neighbours

variable {d : Dictionary} {e : Declension}

/-- To look only where the nominatives stand together that pass a test is to look at all that pass it. -/
theorem find?_entriesFrom {start : String} {test : String → Bool} (ordered : Ordered d.entries)
    (stands : StandsAt start test) (word : String) :
    (((d.entriesFrom start).takeWhile fun entry => test entry.nominative).find? fun entry => entry.contains word) =
      d.entries.find? fun entry => test entry.nominative && entry.contains word := by
  rw [entriesFrom_eq_filter ordered, takeWhile_standsAt Declension.nominative ordered stands, List.find?_filter]
  simp only [Bool.decide_and, Bool.decide_eq_true]

/-- The search among the longer nominatives misses none that begins with the word. -/
theorem searchLonger_eq_find? (ordered : Ordered d.entries) (word : String) : d.searchLonger word =
    d.entries.find? fun entry => startsWithFolded entry.nominative word && entry.contains word :=
  find?_entriesFrom ordered (begins_standsAt word) word

/-- The search among the stems misses no nominative that equals one of them. -/
theorem searchStems_eq_findSome? (ordered : Ordered d.entries) (word : String) : d.searchStems word =
    (stems word).findSome? fun stem =>
      d.entries.find? fun entry => equalFolded entry.nominative stem && entry.contains word := by
  have atStem (stem : String) := find?_entriesFrom ordered (equal_standsAt stem) word
  simp only [searchStems, atStem]

theorem searchLonger_eq_some (ordered : Ordered d.entries) (found : d.searchLonger word = some e) :
    e ∈ d.entries ∧ word ∈ e.forms ∧ folded word <+: folded e.nominative := by
  rw [searchLonger_eq_find? ordered] at found
  have passes := List.find?_some found
  obtain ⟨begins, isForm⟩ := Bool.and_eq_true_iff.mp passes
  exact ⟨List.mem_of_find?_eq_some found, Declension.contains_iff.mp isForm, startsWithFolded_iff.mp begins⟩

theorem exists_searchLonger (ordered : Ordered d.entries) (member : e ∈ d.entries) (isForm : word ∈ e.forms)
    (longer : folded word <+: folded e.nominative) : ∃ found, d.searchLonger word = some found := by
  rw [searchLonger_eq_find? ordered, ← Option.isSome_iff_exists, List.find?_isSome]
  exact ⟨e, member, Bool.and_eq_true_iff.mpr ⟨startsWithFolded_iff.mpr longer, Declension.contains_iff.mpr isForm⟩⟩

theorem mem_stems {stem : String} (member : stem ∈ stems word) : folded stem <+: folded word ∧ folded stem ≠ [] := by
  obtain ⟨n, inside, rfl⟩ := List.mem_map.mp member
  rw [List.mem_reverse, List.mem_range] at inside
  rw [folded_ofList, List.map_take]
  refine ⟨List.take_prefix .., fun empty => ?_⟩
  obtain zero | nothing := List.take_eq_nil_iff.mp empty
  · contradiction
  · rw [folded_eq_nil_iff.mp nothing] at inside
    contradiction

theorem searchStems_eq_some (ordered : Ordered d.entries) (found : d.searchStems word = some e) :
    e ∈ d.entries ∧ word ∈ e.forms ∧ folded e.nominative <+: folded word ∧ e.nominative ≠ "" := by
  rw [searchStems_eq_findSome? ordered] at found
  obtain ⟨stem, isStem, atStem⟩ := List.exists_of_findSome?_eq_some found
  have passes := List.find?_some atStem
  obtain ⟨same, isForm⟩ := Bool.and_eq_true_iff.mp passes
  refine ⟨List.mem_of_find?_eq_some atStem, Declension.contains_iff.mp isForm, ?_⟩
  rw [ne_eq, ← folded_eq_nil_iff, equalFolded_iff.mp same]
  exact mem_stems isStem

/-- A proper beginning that is not empty is one of the stems, umlauts aside. -/
theorem exists_stem {front : List Char} (begins : front <+: folded word) (nonempty : front ≠ [])
    (proper : front.length < word.length) : ∃ stem ∈ stems word, folded stem = front := by
  have positive : 0 < front.length := List.length_pos_iff.mpr nonempty
  refine ⟨String.ofList (word.toList.take (front.length - 1 + 1)), List.mem_map.mpr ⟨front.length - 1, ?_, rfl⟩, ?_⟩
  · rw [List.mem_reverse, List.mem_range]
    omega
  · rw [folded_ofList, List.map_take, Nat.sub_add_cancel positive]
    exact (List.prefix_iff_eq_take.mp begins).symm

theorem exists_searchStems (ordered : Ordered d.entries) (member : e ∈ d.entries) (isForm : word ∈ e.forms)
    (shorter : folded e.nominative <+: folded word) (nonempty : e.nominative ≠ "")
    (proper : e.nominative.length < word.length) : ∃ found, d.searchStems word = some found := by
  have begins : folded e.nominative ≠ [] := fun empty => nonempty (folded_eq_nil_iff.mp empty)
  obtain ⟨stem, isStem, same⟩ := exists_stem shorter begins (by rwa [length_folded])
  rw [searchStems_eq_findSome? ordered, ← Option.isSome_iff_exists, List.findSome?_isSome_iff]
  refine ⟨stem, isStem, List.find?_isSome.mpr ⟨e, member, Bool.and_eq_true_iff.mpr ⟨?_, ?_⟩⟩⟩
  · exact equalFolded_iff.mpr same.symm
  · exact Declension.contains_iff.mpr isForm

end Neighbours

end Dictionary

end Satzbau

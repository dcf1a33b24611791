import Satzbau.Proofs.Lookup.Search

namespace Satzbau

open Collation

theorem Collation.compareWords_empty (a : String) : compareWords a "" ≠ .lt := by
  have never (xs : List Char) : compare xs ([] : List Char) ≠ .lt := by cases xs <;> nofun
  rw [compareWords, ne_eq, Ordering.then_eq_lt]
  rintro (less | ⟨_, less⟩)
  · exact never _ less
  · exact never _ less

namespace Dictionary

variable {d : Dictionary} {e : Declension} {word : String}

/-- Whether a lookup of a word can come to an entry. Word and nominative have to be alike. To an entry
without a nominative, which stands first, the halving comes only if the word sorts before all others. -/
def InReach (d : Dictionary) (e : Declension) (word : String) : Prop :=
  Alike word e.nominative ∧
    (e.nominative = "" → word ≠ "" → ∀ o ∈ d.entries, o ≠ e → compareWords word o.nominative = .lt)

theorem inReach_iff (nonempty : e.nominative ≠ "") : d.InReach e word ↔ Alike word e.nominative :=
  ⟨And.left, fun alike => ⟨alike, fun empty => absurd empty nonempty⟩⟩

theorem lookup_eq_ok_iff : d.lookup word = .ok e ↔
    (searchBetween d.entries word 0 d.entries.length).or ((d.searchLonger word).or (d.searchStems word)) = some e := by
  unfold lookup
  split
  · rename_i found
    rw [found, Except.ok.injEq, Option.some.injEq]
  · rename_i missed
    rw [missed]
    exact ⟨nofun, nofun⟩

theorem lookup_eq_error_iff {fault : Fault} : d.lookup word = .error fault ↔
    (∀ e, d.lookup word ≠ .ok e) ∧ fault = .unknownWord word := by
  unfold lookup
  split <;> simp [eq_comm]

/-- An entry without a nominative stands first. -/
theorem Ordered.index_eq_zero {entries : List Declension} {index : Nat} (ordered : Ordered entries)
    (atIndex : entries[index]? = some e) (empty : e.nominative = "") : index = 0 := by
  refine Nat.eq_zero_of_not_pos fun later => ?_
  obtain ⟨inside, _⟩ := List.getElem?_eq_some_iff.mp atIndex
  have atFirst := List.getElem?_eq_getElem (l := entries) (i := 0) (by omega)
  have less := ordered.compare_eq_lt later atFirst atIndex
  rw [empty] at less
  exact compareWords_empty _ less

theorem searchBetween_inReach (ordered : Ordered d.entries)
    (found : searchBetween d.entries word 0 d.entries.length = some e) :
    e ∈ d.entries ∧ word ∈ e.forms ∧ d.InReach e word := by
  obtain ⟨index, _, _, atIndex, isForm, alike⟩ := searchBetween_sound 0 d.entries.length (Nat.le_refl _) found
  refine ⟨List.mem_of_getElem? atIndex, isForm, alike, fun empty _ o member other => ?_⟩
  have first := ordered.index_eq_zero atIndex empty
  subst first
  obtain ⟨position, inside, rfl⟩ := List.getElem_of_mem member
  have atPosition := List.getElem?_eq_getElem inside
  refine searchBetween_eq_first ordered _ (Nat.le_refl _) atIndex found position _ (Nat.pos_of_ne_zero ?_) inside atPosition
  rintro rfl
  exact other (Option.some.inj (atPosition.symm.trans atIndex))

/-- What a lookup gives has the word among its forms and is in reach of it. -/
theorem lookup_eq_ok (ordered : Ordered d.entries) (found : d.lookup word = .ok e) :
    e ∈ d.entries ∧ word ∈ e.forms ∧ d.InReach e word := by
  obtain halved | ⟨_, rest⟩ := Option.or_eq_some_iff.mp (lookup_eq_ok_iff.mp found)
  · exact searchBetween_inReach ordered halved
  · obtain longer | ⟨_, stem⟩ := Option.or_eq_some_iff.mp rest
    · obtain ⟨member, isForm, begins⟩ := searchLonger_eq_some ordered longer
      refine ⟨member, isForm, Or.inl begins, fun empty nonempty => ?_⟩
      rw [empty] at begins
      exact absurd (folded_eq_nil_iff.mp (List.prefix_nil.mp begins)) nonempty
    · obtain ⟨member, isForm, begins, nonempty⟩ := searchStems_eq_some ordered stem
      exact ⟨member, isForm, (inReach_iff nonempty).mpr (Or.inr begins)⟩

theorem exists_lookup_of_or (rest : ∃ found, searchBetween d.entries word 0 d.entries.length = some found ∨
    d.searchLonger word = some found ∨ d.searchStems word = some found) : ∃ found, d.lookup word = .ok found := by
  simp only [lookup_eq_ok_iff, ← Option.isSome_iff_exists, Option.isSome_or, Bool.or_eq_true]
  simpa only [Option.isSome_iff_exists, exists_or] using rest

/-- A word that is a form of some entry in its reach is known. -/
theorem exists_lookup (ordered : Ordered d.entries) (member : e ∈ d.entries) (isForm : word ∈ e.forms)
    (reach : d.InReach e word) : ∃ found, d.lookup word = .ok found := by
  obtain ⟨alike, first⟩ := reach
  apply exists_lookup_of_or
  have longer (begins : folded word <+: folded e.nominative) : ∃ found, d.searchLonger word = some found :=
    exists_searchLonger ordered member isForm begins
  by_cases begins : folded word <+: folded e.nominative
  · obtain ⟨found, answer⟩ := longer begins
    exact ⟨found, Or.inr (Or.inl answer)⟩
  · have begun := alike.resolve_left begins
    by_cases empty : e.nominative = ""
    · have nonempty : word ≠ "" := by
        rintro rfl
        exact begins List.nil_prefix
      obtain ⟨index, inside, rfl⟩ := List.getElem_of_mem member
      have atIndex := List.getElem?_eq_getElem inside
      have isFirst := ordered.index_eq_zero atIndex empty
      subst isFirst
      obtain ⟨found, answer⟩ := searchBetween_first d.entries.length (Nat.le_refl _) inside atIndex ⟨isForm, alike⟩
        fun position entry later _ atPosition => first empty nonempty entry (List.mem_of_getElem? atPosition) (by
          rintro rfl
          exact absurd (ordered.index_eq_zero atPosition empty) (Nat.ne_of_gt later))
      exact ⟨found, Or.inl answer⟩
    · have proper : e.nominative.length < word.length := by
        rw [← length_folded, ← length_folded]
        refine Nat.lt_of_le_of_ne begun.length_le fun same => begins ?_
        exact begun.eq_of_length same ▸ List.prefix_refl _
      obtain ⟨found, answer⟩ := exists_searchStems ordered member isForm begun empty proper
      exact ⟨found, Or.inr (Or.inr answer)⟩

def house : Declension :=
  ⟨.neuter, ⟨"Haus", "Hauses", "Haus", "Haus"⟩, ⟨"Häuser", "Häuser", "Häusern", "Häuser"⟩⟩

def museum : Declension :=
  ⟨.neuter, ⟨"Museum", "Museums", "Museum", "Museum"⟩, ⟨"Museen", "Museen", "Museen", "Museen"⟩⟩

def buildings : Dictionary :=
  ⟨[house, museum]⟩

theorem buildings_built : buildings.Built :=
  .insert (.insert .empty (rfl : empty.insert museum = .ok ⟨[museum]⟩)) (rfl : insert ⟨[museum]⟩ house = .ok buildings)

/-- The reach of a lookup: a word is found if it is a form of an entry with whose nominative it is
alike, that is, one begins the other, umlauts aside. -/
theorem lookup_isOk_iff (built : d.Built) (nonempty : ∀ e ∈ d.entries, e.nominative ≠ "") (word : String) :
    ((∃ e, d.lookup word = .ok e) ↔ ∃ e ∈ d.entries, word ∈ e.forms ∧ Alike word e.nominative) ∧
      (∀ e, d.lookup word = .ok e → e ∈ d.entries ∧ word ∈ e.forms) ∧
      ∀ e ∈ d.entries, word ∈ e.forms → Alike word e.nominative → (∀ o ∈ d.entries, word ∈ o.forms → o = e) →
        d.lookup word = .ok e := by
  have sound : ∀ e, d.lookup word = .ok e → e ∈ d.entries ∧ word ∈ e.forms ∧ Alike word e.nominative := by
    intro e found
    obtain ⟨member, isForm, reach⟩ := lookup_eq_ok built.ordered found
    exact ⟨member, isForm, reach.1⟩
  have complete : ∀ e ∈ d.entries, word ∈ e.forms → Alike word e.nominative → ∃ found, d.lookup word = .ok found :=
    fun e member isForm alike => exists_lookup built.ordered member isForm ((inReach_iff (nonempty e member)).mpr alike)
  refine ⟨⟨?_, ?_⟩, fun e found => ⟨(sound e found).1, (sound e found).2.1⟩, ?_⟩
  · rintro ⟨e, found⟩
    exact ⟨e, sound e found⟩
  · rintro ⟨e, member, isForm, alike⟩
    exact complete e member isForm alike
  · intro e member isForm alike only
    obtain ⟨found, answer⟩ := complete e member isForm alike
    obtain ⟨among, isFormToo, _⟩ := sound found answer
    rw [answer, only found among isFormToo]

/-- A form with another vowel than the nominative is found, since umlauts do not count. -/
theorem buildings_known : buildings.Built ∧ (∀ e ∈ buildings.entries, e.nominative ≠ "") ∧
    "Häusern" ∈ house.forms ∧ Alike "Häusern" house.nominative ∧ buildings.lookup "Häusern" = .ok house := by
  have nonempty : ∀ e ∈ buildings.entries, e.nominative ≠ "" := by decide
  exact ⟨buildings_built, nonempty, by decide, by decide,
    (lookup_isOk_iff buildings_built nonempty "Häusern").2.2 house (by decide) (by decide) (by decide) (by decide)⟩

/-- Where a lookup misses: just the words that are in reach of no entry that has them among its forms. A
form that only one entry has leads to this entry if it is in reach. -/
theorem lookup_finds_in_reach (built : d.Built) :
    (∀ word, d.lookup word = .error (.unknownWord word) ↔ ∀ e ∈ d.entries, word ∈ e.forms → ¬d.InReach e word) ∧
      ∀ e ∈ d.entries, ∀ form ∈ e.forms, (∀ o ∈ d.entries, form ∈ o.forms → o = e) →
        (d.lookup form = .ok e ↔ d.InReach e form) := by
  refine ⟨fun word => ?_, fun e member form isForm only => ⟨fun found => ?_, fun reach => ?_⟩⟩
  · rw [lookup_eq_error_iff]
    constructor
    · rintro ⟨missed, _⟩ e member isForm reach
      obtain ⟨found, answer⟩ := exists_lookup built.ordered member isForm reach
      exact missed found answer
    · refine fun outside => ⟨fun e found => ?_, rfl⟩
      obtain ⟨member, isForm, reach⟩ := lookup_eq_ok built.ordered found
      exact outside e member isForm reach
  · exact (lookup_eq_ok built.ordered found).2.2
  · obtain ⟨found, answer⟩ := exists_lookup built.ordered member isForm reach
    obtain ⟨among, isFormToo, _⟩ := lookup_eq_ok built.ordered answer
    rw [answer, only found among isFormToo]

/-- A form that shares no more than its beginning with the nominative is not found. -/
theorem museum_out_of_reach : buildings.Built ∧ museum ∈ buildings.entries ∧ "Museen" ∈ museum.forms ∧
    ¬buildings.InReach museum "Museen" ∧ buildings.lookup "Museen" = .error (.unknownWord "Museen") := by
  have outside : ¬Alike "Museen" museum.nominative := by decide
  refine ⟨buildings_built, by decide, by decide, fun reach => outside reach.1,
    ((lookup_finds_in_reach buildings_built).1 "Museen").mpr fun e member isForm reach => ?_⟩
  have atHouse : "Museen" ∉ house.forms := by decide
  obtain rfl | rfl : e = house ∨ e = museum := by simpa [buildings] using member
  · exact atHouse isForm
  · exact outside reach.1

end Dictionary

end Satzbau

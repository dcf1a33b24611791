import Mathlib.Data.List.Induction
import Mathlib.Data.List.Nodup
import Satzbau.Proofs.Lookup.Reach

namespace Satzbau.Dictionary

open Collation

variable {d grown : Dictionary} {e entry : Declension} {entries : List Declension} {nominative : String}

theorem Ordered.eq_of_nominative_eq (ordered : Ordered entries) {o : Declension} (member : o ∈ entries)
    (member' : e ∈ entries) (same : o.nominative = e.nominative) : o = e :=
  List.inj_on_of_nodup_map ordered.nodup member member' same

/-- An entry is refused exactly if its nominative is already there. -/
theorem insert_eq_error_iff (ordered : Ordered d.entries) {fault : Fault} : d.insert entry = .error fault ↔
    fault = .duplicateDeclension entry.nominative ∧ ∃ o ∈ d.entries, o.nominative = entry.nominative := by
  constructor
  · intro refused
    unfold Dictionary.insert at refused
    split at refused
    · contradiction
    · rename_i nothing
      cases refused
      exact ⟨rfl, insertBefore_eq_none nothing⟩
  · rintro ⟨rfl, o, member, same⟩
    unfold Dictionary.insert
    split
    · rename_i entries inserted
      have distinct := (insertBefore_ordered ordered inserted).nodup
      rw [((insertBefore_perm inserted).map _).nodup_iff, List.map_cons, List.nodup_cons] at distinct
      exact absurd (same ▸ List.mem_map_of_mem member) distinct.1
    · rfl

theorem mem_of_insert (inserted : d.insert entry = .ok grown) : e ∈ grown.entries ↔ e = entry ∨ e ∈ d.entries := by
  rw [(insertBefore_perm (insert_eq_ok inserted)).mem_iff, List.mem_cons]

/-- The first of some entries that has a nominative. -/
def firstOf (nominative : String) (entries : List Declension) : Option Declension :=
  entries.find? fun o => o.nominative == nominative

theorem firstOf_eq_some {found : Declension} (first : firstOf nominative entries = some found) :
    found ∈ entries ∧ found.nominative = nominative := by
  have same := List.find?_some (p := fun o : Declension => o.nominative == nominative) first
  exact ⟨List.mem_of_find?_eq_some first, beq_iff_eq.mp same⟩

theorem firstOf_eq_none_iff : firstOf nominative entries = none ↔ ∀ o ∈ entries, o.nominative ≠ nominative := by
  simp [firstOf, List.find?_eq_none]

theorem exists_firstOf (member : e ∈ entries) :
    ∃ o, firstOf e.nominative entries = some o ∧ o ∈ entries ∧ o.nominative = e.nominative := by
  have known : firstOf e.nominative entries ≠ none := fun nothing => firstOf_eq_none_iff.mp nothing e member rfl
  obtain ⟨o, first⟩ := Option.ne_none_iff_exists'.mp known
  exact ⟨o, first, firstOf_eq_some first⟩

theorem firstOf_concat : firstOf nominative (entries ++ [entry]) = some e ↔
    firstOf nominative entries = some e ∨ firstOf nominative entries = none ∧ entry = e ∧ entry.nominative = nominative := by
  unfold firstOf
  rw [List.find?_append, Option.or_eq_some_iff, List.find?_singleton, Option.ite_none_right_eq_some, beq_iff_eq,
    Option.some.injEq, and_comm (a := entry = e)]

/-- An entry is got by its nominative. -/
theorem get?_eq_some_iff (ordered : Ordered d.entries) :
    d.get? nominative = some e ↔ e ∈ d.entries ∧ e.nominative = nominative := by
  constructor
  · exact firstOf_eq_some
  · rintro ⟨member, rfl⟩
    obtain ⟨o, first, among, same⟩ := exists_firstOf member
    rw [← ordered.eq_of_nominative_eq among member same]
    exact same ▸ first

/-- Puts an entry into a dictionary, which stays as it is if it refuses the entry. -/
def put (d : Dictionary) (entry : Declension) : Dictionary :=
  (d.insert entry).toOption.getD d

/-- The dictionary of entries that are put in one after the other. -/
def ofList (entries : List Declension) : Dictionary :=
  entries.foldl put empty

theorem put_eq (d : Dictionary) (entry : Declension) :
    d.insert entry = .ok (d.put entry) ∨ (∃ fault, d.insert entry = .error fault) ∧ d.put entry = d := by
  unfold put
  cases inserted : d.insert entry with
  | ok grown => exact .inl rfl
  | error fault => exact .inr ⟨⟨fault, rfl⟩, rfl⟩

theorem Built.put (built : d.Built) (entry : Declension) : (d.put entry).Built := by
  obtain inserted | ⟨_, same⟩ := put_eq d entry
  · exact built.insert inserted
  · rw [same]
    exact built

theorem mem_put_iff (ordered : Ordered d.entries) : e ∈ (d.put entry).entries ↔
    e ∈ d.entries ∨ (∀ o ∈ d.entries, o.nominative ≠ entry.nominative) ∧ e = entry := by
  obtain inserted | ⟨⟨fault, refused⟩, same⟩ := put_eq d entry
  · have fresh : ∀ o ∈ d.entries, o.nominative ≠ entry.nominative := by
      intro o member known
      have refused : d.insert entry = .error (.duplicateDeclension entry.nominative) :=
        (insert_eq_error_iff ordered).mpr ⟨rfl, o, member, known⟩
      rw [inserted] at refused
      contradiction
    rw [mem_of_insert inserted, or_comm]
    exact or_congr_right ⟨fun isEntry => ⟨fresh, isEntry⟩, And.right⟩
  · obtain ⟨_, o, member, known⟩ := (insert_eq_error_iff ordered).mp refused
    rw [same]
    exact (or_iff_left fun new => new.1 o member known).symm

theorem ofList_concat (before : List Declension) (entry : Declension) :
    ofList (before ++ [entry]) = (ofList before).put entry := by
  rw [ofList, List.foldl_append]
  rfl

theorem ofList_built (entries : List Declension) : (ofList entries).Built := by
  induction entries using List.reverseRecOn with
  | nil => exact .empty
  | append_singleton before entry ih =>
    rw [ofList_concat]
    exact ih.put entry

/-- A dictionary holds the first entry of each nominative. -/
theorem mem_ofList_iff : e ∈ (ofList entries).entries ↔ firstOf e.nominative entries = some e := by
  induction entries using List.reverseRecOn generalizing e with
  | nil => exact ⟨nofun, nofun⟩
  | append_singleton before entry ih =>
    -- The nominatives that are there are those of the list, so an entry is fresh for both or for neither.
    have fresh : (∀ o ∈ (ofList before).entries, o.nominative ≠ entry.nominative) ↔ firstOf entry.nominative before = none := by
      constructor
      · intro nobody
        cases first : firstOf entry.nominative before with
        | none => rfl
        | some o =>
          have same := (firstOf_eq_some first).2
          exact absurd same (nobody o (ih.mpr (same ▸ first)))
      · intro nothing o member same
        have first := ih.mp member
        rw [same, nothing] at first
        contradiction
    rw [ofList_concat, mem_put_iff (ofList_built before).ordered, ih, fresh, firstOf_concat]
    refine or_congr_right ⟨?_, ?_⟩
    · rintro ⟨nothing, rfl⟩
      exact ⟨nothing, rfl, rfl⟩
    · rintro ⟨nothing, rfl, _⟩
      exact ⟨nothing, rfl⟩

theorem exists_mem_ofList_iff : (∃ o ∈ (ofList entries).entries, o.nominative = nominative) ↔
    ∃ o ∈ entries, o.nominative = nominative := by
  constructor
  · rintro ⟨o, member, same⟩
    exact ⟨o, (firstOf_eq_some (mem_ofList_iff.mp member)).1, same⟩
  · rintro ⟨e, member, rfl⟩
    obtain ⟨o, first, _, same⟩ := exists_firstOf member
    exact ⟨o, mem_ofList_iff.mpr (same ▸ first), same⟩

/-- Entries of different nominatives are all put in. -/
theorem ofList_perm (distinct : (entries.map Declension.nominative).Nodup) : (ofList entries).entries.Perm entries := by
  refine (List.perm_ext_iff_of_nodup (ofList_built entries).ordered.nodup.of_map distinct.of_map).mpr fun e => ?_
  rw [mem_ofList_iff]
  constructor
  · intro first
    exact (firstOf_eq_some first).1
  · intro member
    obtain ⟨o, first, among, same⟩ := exists_firstOf member
    rw [first, List.inj_on_of_nodup_map distinct among member same]

end Satzbau.Dictionary

import Satzbau.Proofs.Lookup.Order

namespace Satzbau

open Collation

theorem Declension.contains_iff {d : Declension} {word : String} : d.contains word = true ↔ word ∈ d.forms := by
  rw [contains, List.contains_iff_mem]

namespace Dictionary

/-- A dictionary into which entries were put one after the other. -/
inductive Built : Dictionary → Prop
  | empty : Built empty
  | insert {d grown : Dictionary} {entry : Declension} (before : Built d) (inserted : d.insert entry = .ok grown) :
    Built grown

/-- Entries in the order of their nominatives, no two with the same one. -/
def Ordered (entries : List Declension) : Prop :=
  entries.Pairwise fun a b => compareWords a.nominative b.nominative = .lt

theorem insertBefore_perm {entry : Declension} {entries grown : List Declension}
    (inserted : insertBefore entry entries = some grown) : grown.Perm (entry :: entries) := by
  induction entries generalizing grown with
  | nil =>
    cases inserted
    exact .refl _
  | cons first later ih =>
    unfold insertBefore at inserted
    split at inserted
    · obtain ⟨others, insertedLater, rfl⟩ := Option.map_eq_some_iff.mp inserted
      exact ((ih insertedLater).cons first).trans (.swap ..)
    · contradiction
    · cases inserted
      exact .refl _

theorem insertBefore_ordered {entry : Declension} {entries grown : List Declension} (ordered : Ordered entries)
    (inserted : insertBefore entry entries = some grown) : Ordered grown := by
  induction entries generalizing grown with
  | nil =>
    cases inserted
    exact List.pairwise_singleton ..
  | cons first later ih =>
    obtain ⟨atFirst, atLater⟩ := List.pairwise_cons.mp ordered
    unfold insertBefore at inserted
    split at inserted
    · rename_i less
      obtain ⟨others, insertedLater, rfl⟩ := Option.map_eq_some_iff.mp inserted
      refine List.pairwise_cons.mpr ⟨fun o member => ?_, ih atLater insertedLater⟩
      obtain rfl | old := List.mem_cons.mp ((insertBefore_perm insertedLater).mem_iff.mp member)
      · exact less
      · exact atFirst o old
    · contradiction
    · rename_i greater
      cases inserted
      have less := Std.OrientedCmp.gt_iff_lt.mp greater
      refine List.pairwise_cons.mpr ⟨fun o member => ?_, ordered⟩
      obtain rfl | inLater := List.mem_cons.mp member
      · exact less
      · exact Std.TransCmp.lt_trans less (atFirst o inLater)

/-- An entry is refused only for its nominative. -/
theorem insertBefore_eq_none {entry : Declension} {entries : List Declension}
    (refused : insertBefore entry entries = none) : ∃ o ∈ entries, o.nominative = entry.nominative := by
  induction entries with
  | nil => contradiction
  | cons first later ih =>
    unfold insertBefore at refused
    split at refused
    · obtain ⟨o, member, same⟩ := ih (Option.map_eq_none_iff.mp refused)
      exact ⟨o, List.mem_cons_of_mem _ member, same⟩
    · rename_i equal
      exact ⟨first, List.mem_cons_self, Std.LawfulEqCmp.eq_of_compare equal⟩
    · contradiction

theorem insert_eq_ok {d grown : Dictionary} {entry : Declension} (inserted : d.insert entry = .ok grown) :
    insertBefore entry d.entries = some grown.entries := by
  unfold insert at inserted
  split at inserted
  · rename_i entries found
    cases inserted
    exact found
  · contradiction

theorem Built.ordered {d : Dictionary} (built : d.Built) : Ordered d.entries := by
  induction built with
  | empty => exact .nil
  | insert _ inserted ih => exact insertBefore_ordered ih (insert_eq_ok inserted)

variable {entries : List Declension}

theorem Ordered.compare_eq_lt (ordered : Ordered entries) {i j : Nat} {a b : Declension} (less : i < j)
    (atI : entries[i]? = some a) (atJ : entries[j]? = some b) : compareWords a.nominative b.nominative = .lt := by
  obtain ⟨insideI, rfl⟩ := List.getElem?_eq_some_iff.mp atI
  obtain ⟨insideJ, rfl⟩ := List.getElem?_eq_some_iff.mp atJ
  exact List.pairwise_iff_getElem.mp ordered i j insideI insideJ less

theorem not_compareWords_lt_self (word : String) : compareWords word word ≠ .lt := by
  rw [@Std.ReflCmp.compare_self _ compareWords]
  exact nofun

theorem Ordered.nodup (ordered : Ordered entries) : (entries.map Declension.nominative).Nodup := by
  refine List.pairwise_map.mpr (ordered.imp fun {a b} less same => ?_)
  rw [same] at less
  exact not_compareWords_lt_self _ less

theorem Ordered.eq_of_perm {entries' : List Declension} (ordered : Ordered entries) (ordered' : Ordered entries')
    (perm : entries.Perm entries') : entries = entries' := by
  refine perm.eq_of_pairwise (fun a b _ _ less greater => ?_) ordered ordered'
  exact absurd (Std.TransCmp.lt_trans less greater) (not_compareWords_lt_self _)

theorem entriesFrom_eq_filter {d : Dictionary} (ordered : Ordered d.entries) (word : String) :
    d.entriesFrom word = d.entries.filter fun e => compareFolded e.nominative word ≠ .lt :=
  dropWhile_below Declension.nominative ordered word

end Dictionary

end Satzbau

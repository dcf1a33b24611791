import Satzbau.Annotation

namespace Satzbau.Annotations

/-- How annotations grow: the journal gets entries in front, all of them among some ids, and without
those entries the table is what it was. -/
def Grew (ids : List NodeId) (before after : Annotations) : Prop :=
  ∃ new, after.journal = new ++ before.journal ∧ (∀ id ∈ new, id ∈ ids) ∧
    after.table.filter (fun entry => !new.contains entry.1) = before.table

theorem Grew.refl (ids : List NodeId) (a : Annotations) : Grew ids a a :=
  ⟨[], by simp, by simp, by simp⟩

theorem Grew.trans {ids : List NodeId} {a b c : Annotations} (first : Grew ids a b)
    (second : Grew ids b c) : Grew ids a c := by
  obtain ⟨new, journal, within, table⟩ := first
  obtain ⟨newer, journal', within', table'⟩ := second
  refine ⟨newer ++ new, by simp [journal, journal'], ?_, ?_⟩
  · intro id member
    rcases List.mem_append.mp member with late | early
    · exact within' id late
    · exact within id early
  · rw [← table, ← table', List.filter_filter]
    congr 1
    funext entry
    simp [Bool.and_comm]

theorem Grew.mono {ids more : List NodeId} {a b : Annotations} (grew : Grew ids a b)
    (subset : ∀ id ∈ ids, id ∈ more) : Grew more a b := by
  obtain ⟨new, journal, within, table⟩ := grew
  exact ⟨new, journal, fun id member => subset id (within id member), table⟩

/-- Going back to the checkpoint taken before annotations grew undoes the growth. -/
theorem Grew.rollback {ids : List NodeId} {before after : Annotations} (grew : Grew ids before after) :
    after.rollback before.checkpoint = before := by
  obtain ⟨new, journal, _, table⟩ := grew
  have length : after.journal.length - before.checkpoint = new.length := by
    simp [journal, checkpoint]
  simp only [Annotations.rollback, length]
  rw [journal, List.take_left, List.drop_left, table]

theorem lookup_filter {table : List (NodeId × Annotation)} (keep : NodeId → Bool) {id : NodeId}
    (kept : keep id = true) : (table.filter fun entry => keep entry.1).lookup id = table.lookup id := by
  induction table with
  | nil => rfl
  | cons entry later ih =>
    obtain ⟨other, reading⟩ := entry
    by_cases same : id = other
    · subst same
      simp [kept]
    · have different : (id == other) = false := beq_eq_false_iff_ne.mpr same
      rw [List.filter_cons]
      split <;> simp only [List.lookup_cons, different, ih]

theorem lookup_filter_eq_none {table : List (NodeId × Annotation)} (keep : NodeId → Bool) {id : NodeId}
    (dropped : keep id = false) : (table.filter fun entry => keep entry.1).lookup id = none := by
  rw [List.lookup_eq_none_iff]
  intro entry member
  have kept := (List.mem_filter.mp member).2
  rw [bne_iff_ne]
  rintro rfl
  simp [dropped] at kept

theorem Grew.get?_of_not_mem {ids : List NodeId} {a b : Annotations} (grew : Grew ids a b) {id : NodeId}
    (outside : id ∉ ids) : b.get? id = a.get? id := by
  obtain ⟨new, _, within, table⟩ := grew
  have kept : (!new.contains id) = true := by
    simp only [Bool.not_eq_true', List.contains_eq_mem, decide_eq_false_iff_not]
    exact fun member => outside (within id member)
  rw [get?, get?, ← table]
  exact (lookup_filter (fun id => !new.contains id) kept).symm

/-- What was annotated stays as it was annotated. -/
theorem Grew.get?_of_some {ids : List NodeId} {a b : Annotations} (grew : Grew ids a b) {id : NodeId}
    {reading : Annotation} (known : a.get? id = some reading) : b.get? id = some reading := by
  obtain ⟨new, _, _, table⟩ := grew
  rw [get?, ← table] at known
  cases kept : !new.contains id with
  | true => rwa [lookup_filter (fun id => !new.contains id) kept] at known
  | false => rw [lookup_filter_eq_none (fun id => !new.contains id) kept] at known; contradiction

theorem filter_insertById {id : NodeId} {reading : Annotation} {table : List (NodeId × Annotation)}
    (absent : table.lookup id = none) :
    (insertById id reading table).filter (fun entry => !([id].contains entry.1)) = table := by
  have others : ∀ entry ∈ table, (!([id].contains entry.1)) = true := by
    intro entry member
    have different := bne_iff_ne.mp (List.lookup_eq_none_iff.mp absent entry member)
    simpa using different.symm
  induction table with
  | nil => simp [insertById]
  | cons entry later ih =>
    have absent : later.lookup id = none := by
      rw [List.lookup_eq_none_iff] at absent ⊢
      exact fun e member => absent e (List.mem_cons_of_mem _ member)
    unfold insertById
    split
    · rw [List.filter_cons_of_neg (by simp), List.filter_eq_self]
      exact others
    · rw [List.filter_cons, if_pos (others entry (List.mem_cons_self ..)),
        ih absent fun e member => others e (List.mem_cons_of_mem _ member)]

theorem lookup_insertById (id : NodeId) (reading : Annotation) {table : List (NodeId × Annotation)}
    (absent : table.lookup id = none) : (insertById id reading table).lookup id = some reading := by
  induction table with
  | nil => simp [insertById]
  | cons entry later ih =>
    obtain ⟨other, reading'⟩ := entry
    unfold insertById
    split
    · simp
    · rw [List.lookup_cons] at absent ⊢
      split at absent
      · contradiction
      · exact ih absent

theorem get?_record {a : Annotations} {id : NodeId} (reading : Annotation) (absent : a.get? id = none) :
    (a.record id reading).get? id = some reading := by
  simp only [record, absent]
  exact lookup_insertById id reading absent

theorem grew_record {a : Annotations} {id : NodeId} (reading : Annotation) (absent : a.get? id = none) :
    Grew [id] a (a.record id reading) := by
  refine ⟨[id], ?_, by simp, ?_⟩
  · simp [record, absent]
  · simp only [record, absent]
    exact filter_insertById absent

end Satzbau.Annotations

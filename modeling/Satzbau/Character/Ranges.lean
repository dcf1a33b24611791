namespace Satzbau

/-- Whether a number lies in one of some ascending ranges, both ends included. The search ends at
the first range that starts above the number. -/
def inRanges : List (Nat × Nat) → Nat → Bool
  | [], _ => false
  | (low, high) :: rest, n => decide (low ≤ n) && (decide (n ≤ high) || inRanges rest n)

/-- Ranges that neither touch nor overlap, in ascending order. -/
def RangesAscend (ranges : List (Nat × Nat)) : Prop :=
  (∀ r ∈ ranges, r.1 ≤ r.2) ∧ ranges.Pairwise fun r s => r.2 < s.1

theorem inRanges_iff {ranges : List (Nat × Nat)} (ascend : RangesAscend ranges) (n : Nat) :
    inRanges ranges n = true ↔ ∃ r ∈ ranges, r.1 ≤ n ∧ n ≤ r.2 := by
  induction ranges with
  | nil => simp [inRanges]
  | cons r rest ih =>
    obtain ⟨proper, order⟩ := ascend
    have below := (List.pairwise_cons.mp order).1
    have ih := ih ⟨fun s member => proper s (List.mem_cons_of_mem _ member), (List.pairwise_cons.mp order).2⟩
    have within := proper r (List.mem_cons_self ..)
    simp only [inRanges, Bool.and_eq_true, Bool.or_eq_true, decide_eq_true_eq, ih, List.mem_cons]
    constructor
    · rintro ⟨low, high | ⟨s, member, bounds⟩⟩
      · exact ⟨r, Or.inl rfl, low, high⟩
      · exact ⟨s, Or.inr member, bounds⟩
    · rintro ⟨s, rfl | member, bounds⟩
      · exact ⟨bounds.1, Or.inl bounds.2⟩
      · have above := below s member
        exact ⟨by omega, Or.inr ⟨s, member, bounds⟩⟩

end Satzbau

import Mathlib.Data.List.Basic
import Satzbau.Dictionary

namespace Satzbau.Collation

/-- Two lists of letters cut to the length of the shorter one are equal if one begins the other. -/
theorem compare_take_eq_eq_iff (xs ys : List Char) :
    compare (xs.take (min xs.length ys.length)) (ys.take (min xs.length ys.length)) = .eq ↔
      xs <+: ys ∨ ys <+: xs := by
  induction xs generalizing ys with
  | nil => simp
  | cons x xs ih =>
    cases ys with
    | nil => simp
    | cons y ys =>
      simp only [List.length_cons, Nat.add_min_add_right, List.take_succ_cons, List.compare_cons_cons,
        List.cons_prefix_cons, Ordering.then_eq_eq, ih]
      rw [show compare x y = .eq ↔ x = y from Std.LawfulEqOrd.compare_eq_iff_eq, eq_comm (a := y)]
      exact and_or_left

/-- Where the fronts of two lists differ, they decide how the lists compare. -/
theorem compare_of_take {xs ys : List Char}
    (differ : compare (xs.take (min xs.length ys.length)) (ys.take (min xs.length ys.length)) ≠ .eq) :
    compare (xs.take (min xs.length ys.length)) (ys.take (min xs.length ys.length)) = compare xs ys := by
  induction xs generalizing ys with
  | nil => simp at differ
  | cons x xs ih =>
    cases ys with
    | nil => simp at differ
    | cons y ys =>
      simp only [List.length_cons, Nat.add_min_add_right, List.take_succ_cons, List.compare_cons_cons] at differ ⊢
      by_cases same : compare x y = .eq
      · rw [same, Ordering.eq_then] at differ
        rw [same, Ordering.eq_then, Ordering.eq_then, ih differ]
      · cases first : compare x y with
        | lt => rfl
        | gt => rfl
        | eq => contradiction

/-- A list between another one and what begins with it begins with it, too. -/
theorem prefix_of_between {front between whole : List Char} (begins : front <+: whole)
    (above : compare between front ≠ .lt) (below : compare whole between ≠ .lt) : front <+: between := by
  induction front generalizing between whole with
  | nil => exact List.nil_prefix
  | cons f front ih =>
    obtain ⟨rest, rfl⟩ := begins
    cases between with
    | nil => exact absurd rfl above
    | cons b between =>
      simp only [List.cons_append, List.compare_cons_cons, ne_eq, Ordering.then_eq_lt, not_or, not_and] at above below
      have same : f = b := by
        cases order : compare f b with
        | eq => exact Std.LawfulEqOrd.eq_of_compare order
        | lt => exact absurd order below.1
        | gt => exact absurd (Std.OrientedCmp.gt_iff_lt.mp order) above.1
      subst same
      have equal : compare f f = .eq := Std.ReflCmp.compare_self
      rw [List.cons_prefix_cons]
      exact ⟨rfl, ih (List.prefix_append front rest) (above.2 equal) (below.2 equal)⟩

/-- A list does not sort before one that begins it. -/
theorem compare_ne_lt_of_prefix {front whole : List Char} (begins : front <+: whole) : compare whole front ≠ .lt := by
  induction front generalizing whole with
  | nil => cases whole <;> nofun
  | cons f front ih =>
    obtain ⟨rest, rfl⟩ := begins
    have equal : compare f f = .eq := Std.ReflCmp.compare_self
    rw [List.cons_append, List.compare_cons_cons, equal, Ordering.eq_then]
    exact ih (List.prefix_append front rest)

/-- Whether one of two words begins the other, umlauts aside. -/
def Alike (a b : String) : Prop :=
  folded a <+: folded b ∨ folded b <+: folded a

instance (a b : String) : Decidable (Alike a b) :=
  inferInstanceAs (Decidable (_ ∨ _))

theorem length_folded (word : String) : (folded word).length = word.length := by
  rw [folded, List.length_map, String.length_toList]

theorem compareFronts_eq_eq_iff {a b : String} : compareFronts a b = .eq ↔ Alike a b := by
  rw [compareFronts, ← length_folded, ← length_folded]
  exact compare_take_eq_eq_iff _ _

theorem compareFronts_eq_compareFolded {a b : String} (differ : compareFronts a b ≠ .eq) :
    compareFronts a b = compareFolded a b := by
  rw [compareFronts, ← length_folded, ← length_folded] at differ ⊢
  exact compare_of_take differ

instance : Std.TransCmp compareFolded where
  eq_swap := Std.OrientedOrd.eq_swap
  isLE_trans := Std.TransOrd.isLE_trans

instance : Std.TransCmp compareWords where
  eq_swap {a b} := by
    rw [compareWords, compareWords, Ordering.swap_then, ← Std.OrientedCmp.eq_swap, ← Std.OrientedCmp.eq_swap]
  isLE_trans {a b c} below above := by
    simp only [compareWords, Ordering.isLE_then_iff_and] at below above ⊢
    refine ⟨Std.TransCmp.isLE_trans below.1 above.1, ?_⟩
    obtain less | less := below.2
    · exact Or.inl (Std.TransCmp.lt_of_lt_of_isLE less above.1)
    · obtain less' | less' := above.2
      · exact Or.inl (Std.TransCmp.lt_of_isLE_of_lt below.1 less')
      · exact Or.inr (Std.TransCmp.isLE_trans less less')

instance : Std.LawfulEqCmp compareWords where
  compare_self {a} := by
    have letters : compare a.toList a.toList = .eq := Std.ReflCmp.compare_self
    have sounds : compareFolded a a = .eq := Std.ReflCmp.compare_self
    rw [compareWords, sounds, letters]
    rfl
  eq_of_compare {a b} same := by
    rw [compareWords, Ordering.then_eq_eq] at same
    exact String.toList_injective (Std.LawfulEqOrd.eq_of_compare same.2)

/-- Umlauts count only between words that are else equal. -/
theorem compareWords_eq_compareFolded {a b : String} (differ : compareFolded a b ≠ .eq) :
    compareWords a b = compareFolded a b := by
  rw [compareWords]
  cases order : compareFolded a b with
  | eq => exact absurd order differ
  | lt => rfl
  | gt => rfl

theorem compareFolded_ne_lt_of_compareWords {a b : String} (less : compareWords a b = .lt) :
    compareFolded b a ≠ .lt := by
  intro greater
  rw [compareWords, Std.OrientedCmp.gt_iff_lt.mpr greater] at less
  contradiction

theorem isLE_compareFolded_of_compareWords {a b : String} (less : compareWords a b = .lt) :
    (compareFolded a b).isLE = true :=
  Ordering.isLE_iff_ne_gt.mpr fun above => compareFolded_ne_lt_of_compareWords less (Std.OrientedCmp.gt_iff_lt.mp above)

/-- Where the fronts of two words differ, they decide the order of the words. -/
theorem compareFronts_eq_compareWords {a b : String} (differ : compareFronts a b ≠ .eq) :
    compareFronts a b = compareWords a b := by
  have same := compareFronts_eq_compareFolded differ
  rw [same] at differ ⊢
  exact (compareWords_eq_compareFolded differ).symm

theorem startsWithFolded_iff {word front : String} : startsWithFolded word front = true ↔ folded front <+: folded word :=
  List.isPrefixOf_iff_prefix

theorem equalFolded_iff {a b : String} : equalFolded a b = true ↔ folded a = folded b :=
  beq_iff_eq

section Downward

variable {α : Type} {test : α → Bool} {xs : List α}

/-- If all before an element that passes a test pass it, too, those that pass come first. -/
theorem takeWhile_eq_filter (downward : xs.Pairwise fun a b => test b = true → test a = true) :
    xs.takeWhile test = xs.filter test := by
  induction xs with
  | nil => rfl
  | cons first later ih =>
    obtain ⟨atFirst, atLater⟩ := List.pairwise_cons.mp downward
    by_cases passed : test first = true
    · rw [List.takeWhile_cons_of_pos passed, List.filter_cons_of_pos passed, ih atLater]
    · have nothing : later.filter test = [] :=
        List.filter_eq_nil_iff.mpr fun x member passes => passed (atFirst x member passes)
      rw [List.takeWhile_cons_of_neg passed, List.filter_cons_of_neg passed, nothing]

theorem dropWhile_eq_filter (downward : xs.Pairwise fun a b => test b = true → test a = true) :
    xs.dropWhile test = xs.filter fun x => !test x := by
  induction xs with
  | nil => rfl
  | cons first later ih =>
    obtain ⟨atFirst, atLater⟩ := List.pairwise_cons.mp downward
    by_cases passed : test first = true
    · rw [List.dropWhile_cons_of_pos passed, List.filter_cons_of_neg (by simp [passed]), ih atLater]
    · have everything : (first :: later).filter (fun x => !test x) = first :: later := by
        refine List.filter_eq_self.mpr fun x member => ?_
        obtain rfl | inLater := List.mem_cons.mp member
        · simpa using passed
        · simpa using fun passes => passed (atFirst x inLater passes)
      rw [List.dropWhile_cons_of_neg passed, everything]

end Downward

/-- Whether the keys that pass a test stand together at the place of a word: none of them sorts before
the word, umlauts aside, and what stands between the word and one of them passes the test, too. -/
structure StandsAt (word : String) (test : String → Bool) : Prop where
  not_below : ∀ key, test key = true → compareFolded key word ≠ .lt
  between : ∀ a b, compareWords a b = .lt → compareFolded a word ≠ .lt → test b = true → test a = true

theorem begins_standsAt (word : String) : StandsAt word fun key => startsWithFolded key word where
  not_below _ begins := compare_ne_lt_of_prefix (startsWithFolded_iff.mp begins)
  between _ _ less reached begins := startsWithFolded_iff.mpr
    (prefix_of_between (startsWithFolded_iff.mp begins) reached (compareFolded_ne_lt_of_compareWords less))

theorem begins_of_equal {key word : String} (same : equalFolded key word = true) : startsWithFolded key word = true := by
  have letters : folded key = folded word := equalFolded_iff.mp same
  exact startsWithFolded_iff.mpr (letters ▸ List.prefix_rfl)

theorem equal_standsAt (word : String) : StandsAt word fun key => equalFolded key word where
  not_below key same := (begins_standsAt word).not_below key (begins_of_equal same)
  between a b less reached same := by
    have notAbove : (compareFolded a word).isLE = true := by
      rw [compareFolded, ← equalFolded_iff.mp same]
      exact isLE_compareFolded_of_compareWords less
    obtain below | level := Ordering.isLE_iff_eq_lt_or_eq_eq.mp notAbove
    · exact absurd below reached
    · exact equalFolded_iff.mpr (Std.LawfulEqOrd.eq_of_compare level)

section Blocks

variable {α : Type} (key : α → String) {xs : List α}
  (ascending : xs.Pairwise fun a b => compareWords (key a) (key b) = .lt) (word : String)

include ascending

theorem below_downward : xs.Pairwise fun a b =>
    decide (compareFolded (key b) word = .lt) = true → decide (compareFolded (key a) word = .lt) = true := by
  refine ascending.imp fun less below => decide_eq_true ?_
  exact Std.TransCmp.lt_of_isLE_of_lt (isLE_compareFolded_of_compareWords less) (of_decide_eq_true below)

/-- What sorts before a word comes first, so that the rest is what does not. -/
theorem dropWhile_below : (xs.dropWhile fun x => compareFolded (key x) word = .lt) =
    xs.filter fun x => compareFolded (key x) word ≠ .lt := by
  rw [dropWhile_eq_filter (below_downward key ascending word)]
  simp only [ne_eq, decide_not]

variable {word}

/-- Of the rest those come first that stand at the word, such as those that begin with it. -/
theorem takeWhile_standsAt {test : String → Bool} (stands : StandsAt word test) :
    ((xs.filter fun x => compareFolded (key x) word ≠ .lt).takeWhile fun x => test (key x)) =
      xs.filter fun x => test (key x) := by
  rw [takeWhile_eq_filter, List.filter_filter]
  · refine List.filter_congr fun x _ => ?_
    simpa using stands.not_below (key x)
  · refine List.pairwise_filter.mpr (ascending.imp fun less reached _ => ?_)
    exact stands.between _ _ less (of_decide_eq_true reached)

end Blocks

/-- The order of the dictionary is a strict total order, and it refines the comparison without umlauts.
So an ascending sequence has in front the keys that sort before a word, umlauts aside, next those that
begin with the word, and among these in front those that equal it. -/
theorem ascending_in_blocks :
    (∀ a b, compareWords a b = .eq ↔ a = b) ∧ (∀ a b, compareWords b a = (compareWords a b).swap) ∧
      (∀ a b c, compareWords a b = .lt → compareWords b c = .lt → compareWords a c = .lt) ∧
      (∀ a b, compareFolded a b ≠ .eq → compareWords a b = compareFolded a b) ∧
      ∀ keys : List String, (keys.Pairwise fun a b => compareWords a b = .lt) → ∀ word,
        (keys.filter fun key => compareFolded key word = .lt) ++
            (keys.filter fun key => startsWithFolded key word) <+: keys ∧
          (keys.filter fun key => equalFolded key word) <+: keys.filter fun key => startsWithFolded key word := by
  refine ⟨fun a b => Std.LawfulEqCmp.compare_eq_iff_eq, fun a b => Std.OrientedCmp.eq_swap,
    fun a b c => Std.TransCmp.lt_trans, fun a b => compareWords_eq_compareFolded, fun keys ascending word => ?_⟩
  have front := takeWhile_eq_filter (below_downward (fun key => key) ascending word)
  have rest := dropWhile_below (fun key => key) ascending word
  have beginning := takeWhile_standsAt (fun key => key) ascending (begins_standsAt word)
  have equal := takeWhile_standsAt (fun key => key) ascending (equal_standsAt word)
  constructor
  · calc
      _ <+: (keys.filter fun key => compareFolded key word = .lt) ++
          keys.filter fun key => compareFolded key word ≠ .lt := by
        rw [List.prefix_append_right_inj, ← beginning]
        exact List.takeWhile_prefix _
      _ = keys := by
        rw [← front, ← rest]
        exact List.takeWhile_append_dropWhile
  · have fewer : (keys.filter fun key => equalFolded key word).length ≤
        (keys.filter fun key => startsWithFolded key word).length :=
      (List.monotone_filter_right keys fun _ => begins_of_equal).length_le
    rw [← beginning, ← equal] at fewer ⊢
    exact List.prefix_of_prefix_length_le (List.takeWhile_prefix _) (List.takeWhile_prefix _) fewer

def trees : List String :=
  ["Bau", "Baum", "Bäum", "Bäume", "Baumhaus", "Zahl"]

/-- Words that equal another one umlauts aside stand before what begins with it, however it is written. -/
theorem trees_in_blocks : (trees.Pairwise fun a b => compareWords a b = .lt) ∧
    (trees.filter fun key => compareFolded key "Bäum" = .lt) = ["Bau"] ∧
    (trees.filter fun key => startsWithFolded key "Bäum") = ["Baum", "Bäum", "Bäume", "Baumhaus"] ∧
    (trees.filter fun key => equalFolded key "Bäum") = ["Baum", "Bäum"] ∧
    ["Bau"] ++ ["Baum", "Bäum", "Bäume", "Baumhaus"] <+: trees ∧
    ["Baum", "Bäum"] <+: ["Baum", "Bäum", "Bäume", "Baumhaus"] := by
  have ascending : trees.Pairwise fun a b => compareWords a b = .lt := by decide
  have below : (trees.filter fun key => compareFolded key "Bäum" = .lt) = ["Bau"] := by decide
  have begins : (trees.filter fun key => startsWithFolded key "Bäum") = ["Baum", "Bäum", "Bäume", "Baumhaus"] := by
    decide
  have equal : (trees.filter fun key => equalFolded key "Bäum") = ["Baum", "Bäum"] := by decide
  have blocks := ascending_in_blocks.2.2.2.2 trees ascending "Bäum"
  rw [below, begins, equal] at blocks
  exact ⟨ascending, below, begins, equal, blocks⟩

end Satzbau.Collation

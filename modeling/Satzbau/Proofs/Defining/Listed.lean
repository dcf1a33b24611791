import Satzbau.Proofs.Defining.Functions

namespace Satzbau

namespace Table

variable {α β : Type} {view : β → α} {t : Table β} {has has' : String → α → Prop}

/-- A table has under every key what there is of it, which is one thing or nothing. -/
def Lists (view : β → α) (t : Table β) (has : String → α → Prop) : Prop :=
  ∀ key x, (t.lookup key).map view = some x ↔ has key x

namespace Lists

theorem empty : Lists view ([] : Table β) fun _ _ => False := by
  intro key x
  simp

theorem congr (lists : t.Lists view has) (same : ∀ key x, has' key x ↔ has key x) : t.Lists view has' :=
  fun key x => (lists key x).trans (same key x).symm

/-- A table that stays as it is, where nothing comes to it. -/
theorem unchanged {adds : String → α → Prop} (lists : t.Lists view has) (nothing : ∀ key x, ¬ adds key x) :
    t.Lists view fun key x => has key x ∨ adds key x :=
  lists.congr fun key x => or_iff_left (nothing key x)

theorem append (lists : t.Lists view has) {key : String} (free : t.lookup key = none) (y : β) :
    (t ++ [(key, y)] : Table β).Lists view fun other x => has other x ∨ other = key ∧ x = view y := by
  intro other x
  show ((t ++ [(key, y)]).lookup other).map view = some x ↔ has other x ∨ other = key ∧ x = view y
  rw [List.lookup_append, ← lists other x]
  by_cases same : other = key
  · subst same
    simp [free, eq_comm]
  · have different : (other == key) = false := beq_eq_false_iff_ne.mpr same
    simp [List.lookup_cons, different, same]

theorem unique (lists : t.Lists view has) {key : String} {x y : α} (first : has key x) (second : has key y) : x = y :=
  Option.some.inj (((lists key x).mpr first).symm.trans ((lists key y).mpr second))

theorem lookup_eq_some (lists : t.Lists view has) {key : String} {x : α} (there : has key x) :
    ∃ y, t.lookup key = some y ∧ view y = x :=
  Option.map_eq_some_iff.mp ((lists key x).mpr there)

theorem of_lookup (lists : t.Lists view has) {key : String} {y : β} (known : t.lookup key = some y) : has key (view y) :=
  (lists key (view y)).mp (Option.map_eq_some_iff.mpr ⟨y, known, rfl⟩)

theorem of_lookup_eq_none (lists : t.Lists view has) {key : String} (nothing : t.lookup key = none) (x : α) :
    ¬ has key x := by
  intro there
  obtain ⟨y, known, _⟩ := lists.lookup_eq_some there
  rw [nothing] at known
  contradiction

/-- A key that is defined lists what comes to it besides what there was. -/
theorem define {t grown : Table (Entry α)} {what : Definable} {key : String} {target : α} {origin : Location}
    (lists : t.Lists Entry.target has) (defined : t.define what key target origin = .ok grown) :
    grown.Lists Entry.target fun other x => has other x ∨ other = key ∧ x = target := by
  obtain ⟨free, rfl⟩ := Table.define_eq_ok defined
  exact lists.append free _

/-- Where every step lists what comes with it, a run lists what comes with one of its steps. -/
theorem foldlM {ε σ γ : Type} {step : σ → γ → Except ε σ} {table : σ → Table β} {adds : γ → String → α → Prop}
    (each : ∀ s x t has, step s x = .ok t → (table s).Lists view has →
      (table t).Lists view fun key y => has key y ∨ adds x key y)
    {xs : List γ} {s t : σ} (lists : (table s).Lists view has) (run : xs.foldlM step s = .ok t) :
    (table t).Lists view fun key y => has key y ∨ ∃ x ∈ xs, adds x key y := by
  induction xs generalizing s has with
  | nil =>
    cases run
    exact lists.unchanged (by simp)
  | cons x later ih =>
    rw [List.foldlM_cons] at run
    obtain ⟨middle, first, rest⟩ := ok_of_bind run
    exact (ih (each s x middle has first lists) rest).congr fun key y => by simp [or_assoc]

/-- A table that was empty lists what came with the steps of a run. -/
theorem of_foldlM {ε σ γ δ : Type} {step : σ → γ → Except ε σ} {table : σ → Table β}
    {adds : γ → String → α → δ → Prop} (each : ∀ s x t has, step s x = .ok t → (table s).Lists view has →
      (table t).Lists view fun key y => has key y ∨ ∃ z, adds x key y z)
    {xs : List γ} {s t : σ} (run : xs.foldlM step s = .ok t) (bare : table s = []) :
    (table t).Lists view fun key y => ∃ z, ∃ x ∈ xs, adds x key y z := by
  have start : (table s).Lists view fun _ _ => False := bare ▸ empty
  refine (start.foldlM each run).congr fun key y => ?_
  rw [false_or]
  constructor
  · rintro ⟨z, x, member, added⟩
    exact ⟨x, member, z, added⟩
  · rintro ⟨x, member, z, added⟩
    exact ⟨z, x, member, added⟩

end Lists

/-- What is found in a table in which one key got something else. -/
theorem lookup_replaced (t : Table β) (name : String) (y : β) (key : String) :
    (t.map fun entry => if entry.1 = name then (name, y) else entry).lookup key =
      if key = name then (t.lookup key).map fun _ => y else t.lookup key := by
  induction t with
  | nil => simp
  | cons entry later ih =>
    obtain ⟨other, z⟩ := entry
    rw [List.map_cons]
    by_cases here : key = other
    · subst here
      by_cases named : key = name <;> simp [named]
    · have different : (key == other) = false := beq_eq_false_iff_ne.mpr here
      by_cases named : other = name
      · subst named
        simp [List.lookup_cons, different, here, ih]
      · simp [List.lookup_cons, different, named, ih]

/-- What is in a table of different keys is found under its key. -/
theorem lookup_of_mem {t : Table β} (distinct : (t.map Prod.fst).Nodup) {key : String} {y : β} (member : (key, y) ∈ t) :
    t.lookup key = some y := by
  induction t with
  | nil => contradiction
  | cons first later ih =>
    rw [List.map_cons, List.nodup_cons] at distinct
    obtain rfl | inLater := List.mem_cons.mp member
    · simp
    · have different : (key == first.1) = false :=
        beq_eq_false_iff_ne.mpr fun same => distinct.1 (same ▸ List.mem_map_of_mem inLater)
      rw [List.lookup_cons, different]
      exact ih distinct.2 inLater

theorem not_mem_keys {t : Table β} {key : String} (free : t.lookup key = none) : key ∉ t.map Prod.fst := by
  intro member
  obtain ⟨named, inside, rfl⟩ := List.mem_map.mp member
  have different := List.lookup_eq_none_iff.mp free named inside
  simp at different

end Table

end Satzbau

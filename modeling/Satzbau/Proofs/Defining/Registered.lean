import Mathlib.Data.List.Nodup
import Satzbau.Proofs.Defining.Tables

namespace Satzbau

/-- The tables that a program fills: its functions, its classes, and the methods and conversions of
each class. -/
inductive DefinitionTable
  | functions
  | classes
  | methods (owner : String)
  | conversions (owner : String)
deriving DecidableEq, Repr, Inhabited

/-- What the table holds. -/
def DefinitionTable.what : DefinitionTable → Definable
  | functions => .function
  | classes => .noun
  | methods _ => .method
  | conversions _ => .conversion

/-- A key that a program puts into a table, and where in the text it does. -/
structure Defined where
  table : DefinitionTable
  key : String
  origin : Location
deriving DecidableEq, Repr, Inhabited

namespace Defined

/-- The place of a key among all tables, which can be taken once only. -/
def slot (x : Defined) : DefinitionTable × String :=
  (x.table, x.key)

/-- The fault of a definition whose key was taken earlier. -/
def duplicate (earlier x : Defined) : Diagnostic :=
  .located x.origin (.duplicateDefinition x.table.what x.key earlier.origin)

/-- No two definitions of one table have the same key. -/
def Distinct (xs : List Defined) : Prop :=
  (xs.map slot).Nodup

theorem Distinct.perm {xs ys : List Defined} (distinct : Distinct xs) (perm : xs.Perm ys) : Distinct ys :=
  (perm.map slot).nodup distinct

theorem Distinct.sublist {xs ys : List Defined} (distinct : Distinct xs) (within : ys.Sublist xs) : Distinct ys :=
  List.Nodup.sublist (within.map slot) distinct

theorem distinct_append {xs ys : List Defined} :
    Distinct (xs ++ ys) ↔ Distinct xs ∧ Distinct ys ∧ ∀ x ∈ xs, ∀ y ∈ ys, x.slot ≠ y.slot := by
  rw [Distinct, List.map_append, List.nodup_append]
  simp only [Distinct, List.forall_mem_map]

theorem distinct_concat {xs : List Defined} {x : Defined} (distinct : Distinct xs) (free : ∀ y ∈ xs, y.slot ≠ x.slot) :
    Distinct (xs ++ [x]) :=
  distinct_append.mpr ⟨distinct, List.nodup_singleton _, fun y member _ isLast => List.mem_singleton.mp isLast ▸ free y member⟩

end Defined

/-- What comes of putting definitions into tables one after the other, where each of them may have to be
admitted: all of them come to what was there, or the first one whose key is taken is blamed with what
took it, or one is refused. -/
inductive Registers {σ : Type} (view : σ → List Defined) (admitted : Prop) (s : σ) (items : List Defined) :
    Except Diagnostic σ → Prop
  | all {t : σ} (admits : admitted) (grown : (view t).Perm (view s ++ items)) (distinct : Defined.Distinct (view t)) :
    Registers view admitted s items (.ok t)
  | taken {front back : List Defined} {earlier x : Defined} (cut : items = front ++ x :: back)
    (distinct : Defined.Distinct (view s ++ front)) (there : earlier ∈ view s ++ front) (same : earlier.slot = x.slot) :
    Registers view admitted s items (.error (earlier.duplicate x))
  | refused {fault : Diagnostic} (denied : ¬ admitted) (other : ∀ what key first, fault.fault ≠ .duplicateDefinition what key first) :
    Registers view admitted s items (.error fault)

namespace Registers

variable {σ τ γ : Type} {view : σ → List Defined} {admitted admitted' : Prop} {s : σ} {items later : List Defined}
  {result : Except Diagnostic σ}

theorem nothing (distinct : Defined.Distinct (view s)) : Registers view True s [] (.ok s) :=
  .all trivial (by rw [List.append_nil]) distinct

theorem congr (registers : Registers view admitted s items result) (same : admitted ↔ admitted') :
    Registers view admitted' s items result := by
  rwa [propext same] at registers

/-- One step after the other. -/
theorem bind {f : σ → Except Diagnostic σ} (first : Registers view admitted s items result)
    (next : ∀ t, result = .ok t → (view t).Perm (view s ++ items) → Defined.Distinct (view t) →
      Registers view admitted' t later (f t)) :
    Registers view (admitted ∧ admitted') s (items ++ later) (result >>= f) := by
  cases first with
  | @taken front back earlier x cut distinct there same =>
    have cut' : items ++ later = front ++ x :: (back ++ later) := by rw [cut, List.append_assoc, List.cons_append]
    exact .taken cut' distinct there same
  | refused denied other => exact .refused (fun both => denied both.1) other
  | @all t admits grown distinct =>
    have extended (front : List Defined) : (view t ++ front).Perm (view s ++ (items ++ front)) := by
      rw [← List.append_assoc]
      exact grown.append_right front
    have behind := next t rfl grown distinct
    show Registers view _ s _ (f t)
    generalize f t = last at behind
    cases behind with
    | all admits' grown' distinct' => exact .all ⟨admits, admits'⟩ (grown'.trans (extended _)) distinct'
    | @taken front back earlier x cut distinct' there same =>
      have cut' : items ++ later = items ++ front ++ x :: back := by rw [cut, List.append_assoc]
      exact .taken cut' (distinct'.perm (extended _)) ((extended _).mem_iff.mp there) same
    | refused denied other => exact .refused (fun both => denied both.2) other

/-- A run of steps puts in what each of them does. -/
theorem foldlM (holds : σ → Prop) {step : σ → γ → Except Diagnostic σ} {puts : γ → List Defined} {admits : γ → Prop}
    {xs : List γ} (each : ∀ s, ∀ x ∈ xs, holds s → Defined.Distinct (view s) → Registers view (admits x) s (puts x) (step s x))
    (kept : ∀ s, ∀ x ∈ xs, ∀ t, holds s → step s x = .ok t → holds t) (start : holds s)
    (distinct : Defined.Distinct (view s)) :
    Registers view (∀ x ∈ xs, admits x) s (xs.flatMap puts) (xs.foldlM step s) := by
  induction xs generalizing s with
  | nil => exact (nothing distinct).congr (by simp)
  | cons x later ih =>
    rw [List.foldlM_cons, List.flatMap_cons]
    refine (bind (each s x List.mem_cons_self start distinct) fun t run _ distinct' => ?_).congr List.forall_mem_cons.symm
    exact ih (fun s y member => each s y (List.mem_cons_of_mem x member))
      (fun s y member => kept s y (List.mem_cons_of_mem x member)) (kept s x List.mem_cons_self t start run) distinct'

/-- A run of steps that each put in one thing, which is always admitted. -/
theorem foldlM_map {step : σ → γ → Except Diagnostic σ} {puts : γ → Defined} {xs : List γ}
    (each : ∀ s, ∀ x ∈ xs, Defined.Distinct (view s) → Registers view True s [puts x] (step s x))
    (distinct : Defined.Distinct (view s)) : Registers view True s (xs.map puts) (xs.foldlM step s) := by
  have run : Registers view (∀ x ∈ xs, True) s (xs.flatMap fun x => [puts x]) (xs.foldlM step s) :=
    foldlM (fun _ => True) (fun s x member _ => each s x member) (fun _ _ _ _ _ _ => trivial) trivial distinct
  rw [List.map_eq_flatMap]
  exact run.congr (by simp)

/-- Tables that are part of larger ones, where what comes to them has nothing to do with the rest. -/
theorem within {outer : τ → List Defined} (put : σ → τ) (others : List Defined)
    (viewed : ∀ t, (outer (put t)).Perm (view t ++ others)) (distinct : Defined.Distinct (outer (put s)))
    (apart : ∀ x ∈ items, ∀ y ∈ others, x.table ≠ y.table) (registers : Registers view admitted s items result) :
    Registers outer admitted (put s) items (result.map put) := by
  have distinctParts := Defined.distinct_append.mp (distinct.perm (viewed s))
  have moved (front : List Defined) : (view s ++ front ++ others).Perm (outer (put s) ++ front) := by
    rw [List.append_assoc]
    refine ((List.perm_append_comm.append_left _).trans ?_).trans ((viewed s).symm.append_right front)
    rw [List.append_assoc]
  have distinctWith {front : List Defined} (among : ∀ x ∈ front, x ∈ items) (inner : Defined.Distinct (view s ++ front)) :
      Defined.Distinct (view s ++ front ++ others) := by
    refine Defined.distinct_append.mpr ⟨inner, distinctParts.2.1, fun x member y other => ?_⟩
    obtain old | new := List.mem_append.mp member
    · exact distinctParts.2.2 x old y other
    · exact fun same => apart x (among x new) y other (congrArg Prod.fst same)
  cases registers with
  | @all t admits grown inner =>
    have whole : (outer (put t)).Perm (view s ++ items ++ others) := (viewed t).trans (grown.append_right others)
    exact .all admits (whole.trans (moved items))
      ((distinctWith (fun _ member => member) (inner.perm grown)).perm whole.symm)
  | @taken front back earlier x cut inner there same =>
    have among : ∀ y ∈ front, y ∈ items := fun y member => cut ▸ List.mem_append_left _ member
    refine .taken cut ((distinctWith among inner).perm (moved front)) ?_ same
    exact (moved front).mem_iff.mp (List.mem_append_left _ there)
  | refused denied other => exact .refused denied other

/-- What is not looked at may change. -/
theorem map (registers : Registers view admitted s items result) (put : σ → σ) (same : ∀ t, view (put t) = view t) :
    Registers view admitted s items (result.map put) := by
  cases registers with
  | all admits grown distinct => exact .all admits ((same _).symm ▸ grown) ((same _).symm ▸ distinct)
  | taken cut distinct there equal => exact .taken cut distinct there equal
  | refused denied other => exact .refused denied other

theorem isOk_iff (registers : Registers view admitted s items result) :
    (∃ t, result = .ok t) ↔ admitted ∧ Defined.Distinct (view s ++ items) := by
  cases registers with
  | all admits grown distinct => exact ⟨fun _ => ⟨admits, distinct.perm grown⟩, fun _ => ⟨_, rfl⟩⟩
  | refused denied other => exact ⟨nofun, fun both => absurd both.1 denied⟩
  | @taken front back earlier x cut distinct there same =>
    refine ⟨nofun, fun both => ?_⟩
    have free := both.2
    rw [cut, ← List.append_assoc] at free
    exact absurd same ((Defined.distinct_append.mp free).2.2 earlier there x List.mem_cons_self)

end Registers

/-- What is in a table. -/
def Table.defined {α : Type} (table : DefinitionTable) (t : Table (Entry α)) : List Defined :=
  t.map fun named => ⟨table, named.1, named.2.origin⟩

theorem Table.registers_define {α : Type} {table : DefinitionTable} {t : Table (Entry α)}
    (distinct : Defined.Distinct (t.defined table)) (key : String) (target : α) (origin : Location) :
    Registers (Table.defined table) True t [⟨table, key, origin⟩] (t.define table.what key target origin) := by
  unfold Table.define
  cases known : t.lookup key with
  | some earlier =>
    have there : (⟨table, key, earlier.origin⟩ : Defined) ∈ t.defined table :=
      List.mem_map.mpr ⟨(key, earlier), Table.mem_of_lookup known, rfl⟩
    rw [← List.append_nil (t.defined table)] at distinct there
    exact .taken (List.nil_append _).symm distinct there rfl
  | none =>
    have grown : (t ++ [(key, ⟨target, origin⟩)] : Table (Entry α)).defined table =
        t.defined table ++ [⟨table, key, origin⟩] := List.map_append
    refine .all trivial (by rw [grown]) ?_
    rw [grown]
    refine Defined.distinct_concat distinct fun y member same => Table.not_mem_keys known ?_
    obtain ⟨named, inside, rfl⟩ := List.mem_map.mp member
    obtain rfl : named.1 = key := congrArg Prod.snd same
    exact List.mem_map_of_mem inside

end Satzbau

import Mathlib.Data.List.Induction
import Mathlib.Data.List.Nodup
import Satzbau.Proofs.Journal

namespace Satzbau.Annotations

/-- What is done with annotations. A return leads to the checkpoint that is so many places behind the latest one. -/
inductive Operation
  | record (id : NodeId) (reading : Annotation)
  | checkpoint
  | rollback (depth : Nat)

/-- Annotations with the checkpoints to which they can return, the latest first, each with what the annotations were at
that moment. -/
structure Session where
  annotations : Annotations
  checkpoints : List (Checkpoint × Annotations)

namespace Session

def start : Session :=
  ⟨.empty, []⟩

/-- One operation. A return gives up the checkpoints that are later than its own, so it is impossible to return to one
that was given up. -/
def step (s : Session) : Operation → Option Session
  | .record id reading => some ⟨s.annotations.record id reading, s.checkpoints⟩
  | .checkpoint => some ⟨s.annotations, (s.annotations.checkpoint, s.annotations) :: s.checkpoints⟩
  | .rollback depth =>
    match s.checkpoints.drop depth with
    | [] => none
    | taken :: earlier => some ⟨s.annotations.rollback taken.1, taken :: earlier⟩

def run (operations : List Operation) : Option Session :=
  operations.foldlM step start

end Session

/-- What is left of operations, the latest first, after a return to one of their checkpoints. -/
def undone : Nat → List Operation → List Operation
  | 0, .checkpoint :: earlier => .checkpoint :: earlier
  | depth + 1, .checkpoint :: earlier => undone depth earlier
  | depth, _ :: earlier => undone depth earlier
  | _, [] => []

/-- The operations that still count, the latest first, when one more is done. -/
def after (done : List Operation) : Operation → List Operation
  | .rollback depth => undone depth done
  | operation => operation :: done

/-- The operations that no return has undone, the latest first. -/
def remaining (operations : List Operation) : List Operation :=
  operations.foldl after []

def Operation.recording? : Operation → Option (NodeId × Annotation)
  | .record id reading => some (id, reading)
  | _ => none

/-- What operations record, in the order in which they do so. -/
def recordings (done : List Operation) : List (NodeId × Annotation) :=
  done.reverse.filterMap Operation.recording?

/-- The table and the journal that come of recordings. The first one of a phrase counts, and the journal lists each phrase
that is annotated where it was recorded first. -/
structure Mirrors (entries : List (NodeId × Annotation)) (a : Annotations) : Prop where
  keys : (a.table.map Prod.fst).Perm a.journal
  once : a.journal.Nodup
  order : a.journal.reverse = (entries.map Prod.fst).eraseDups
  reads : ∀ id, a.get? id = entries.lookup id

theorem insertById_perm (id : NodeId) (reading : Annotation) (table : List (NodeId × Annotation)) :
    (insertById id reading table).Perm ((id, reading) :: table) := by
  induction table with
  | nil => exact .refl _
  | cons entry later ih =>
    unfold insertById
    split
    · exact .refl _
    · exact (ih.cons entry).trans (.swap _ _ _)

theorem mirrors_empty : Mirrors [] empty :=
  ⟨.refl _, .nil, rfl, fun _ => rfl⟩

section Record

variable {entries : List (NodeId × Annotation)} {a : Annotations}

theorem Mirrors.mem_journal_iff (mirrors : Mirrors entries a) {id : NodeId} :
    id ∈ a.journal ↔ id ∈ entries.map Prod.fst := by
  rw [← List.mem_reverse, mirrors.order, List.mem_eraseDups]

theorem Mirrors.get?_eq_none_iff (mirrors : Mirrors entries a) {id : NodeId} :
    a.get? id = none ↔ id ∉ entries.map Prod.fst := by
  rw [mirrors.reads, List.lookup_eq_none_iff]
  constructor
  · intro others member
    obtain ⟨entry, inside, rfl⟩ := List.mem_map.mp member
    exact bne_iff_ne.mp (others entry inside) rfl
  · intro absent entry inside
    refine bne_iff_ne.mpr fun same => absent ?_
    exact same ▸ List.mem_map_of_mem inside

/-- A phrase that is annotated already keeps its annotation and its place in the journal, another one gets its place
behind all others. -/
theorem Mirrors.record (mirrors : Mirrors entries a) (id : NodeId) (reading : Annotation) :
    Mirrors (entries ++ [(id, reading)]) (a.record id reading) := by
  have lookup (other : NodeId) : (entries ++ [(id, reading)]).lookup other =
      (entries.lookup other).or (if other = id then some reading else none) := by
    rw [List.lookup_append, List.lookup_cons]
    by_cases same : other = id
    · simp [same]
    · simp [same, beq_eq_false_iff_ne.mpr same]
  have names : ((entries ++ [(id, reading)]).map Prod.fst).eraseDups =
      (entries.map Prod.fst).eraseDups ++ ([id].removeAll (entries.map Prod.fst)).eraseDups := by
    rw [List.map_append, List.eraseDups_append]
    rfl
  -- The journal gets a phrase exactly if the phrase has not been recorded before.
  cases known : a.get? id with
  | some earlier =>
    have there : id ∈ entries.map Prod.fst := by
      by_contra absent
      rw [mirrors.get?_eq_none_iff.mpr absent] at known
      contradiction
    have same : a.record id reading = a := by simp only [Annotations.record, known]
    have nothing : [id].removeAll (entries.map Prod.fst) = [] := by simp [List.removeAll, there]
    rw [same]
    refine ⟨mirrors.keys, mirrors.once, ?_, fun other => ?_⟩
    · rw [names, nothing, mirrors.order]
      exact (List.append_nil _).symm
    · rw [lookup, ← mirrors.reads]
      by_cases isId : other = id
      · rw [isId, known, Option.some_or]
      · rw [if_neg isId, Option.or_none]
  | none =>
    have absent := mirrors.get?_eq_none_iff.mp known
    have journal : (a.record id reading).journal = id :: a.journal := by simp only [Annotations.record, known]
    have table : (a.record id reading).table = insertById id reading a.table := by simp only [Annotations.record, known]
    have all : [id].removeAll (entries.map Prod.fst) = [id] := by simp [List.removeAll, absent]
    refine ⟨?_, ?_, ?_, fun other => ?_⟩
    · rw [journal, table]
      exact ((insertById_perm id reading a.table).map Prod.fst).trans (mirrors.keys.cons id)
    · rw [journal, List.nodup_cons]
      exact ⟨fun member => absent (mirrors.mem_journal_iff.mp member), mirrors.once⟩
    · rw [journal, List.reverse_cons, mirrors.order, names, all]
      rfl
    · rw [lookup, ← mirrors.reads]
      by_cases isId : other = id
      · rw [isId, known, get?_record reading known, if_pos rfl, Option.none_or]
      · have outside : other ∉ [id] := by simpa using isId
        rw [if_neg isId, Option.or_none, (grew_record reading known).get?_of_not_mem outside]

end Record

/-- A session that comes of operations none of which is a return. They are listed with the latest first. -/
inductive Follows : List Operation → Session → Prop
  | start : Follows [] .start
  | record {done : List Operation} {s : Session} (follows : Follows done s) (id : NodeId) (reading : Annotation) :
    Follows (.record id reading :: done) ⟨s.annotations.record id reading, s.checkpoints⟩
  | checkpoint {done : List Operation} {s : Session} (follows : Follows done s) :
    Follows (.checkpoint :: done) ⟨s.annotations, (s.annotations.checkpoint, s.annotations) :: s.checkpoints⟩

namespace Session

/-- A return leads to a checkpoint that was taken, and the earlier ones stay. -/
theorem exists_taken {s next : Session} {depth : Nat} (stepped : s.step (.rollback depth) = some next) :
    ∃ taken earlier, s.checkpoints.drop depth = taken :: earlier ∧ taken ∈ s.checkpoints ∧
      next = ⟨s.annotations.rollback taken.1, taken :: earlier⟩ := by
  unfold step at stepped
  dsimp only at stepped
  split at stepped
  · contradiction
  · rename_i taken earlier there
    have member : taken ∈ s.checkpoints := List.mem_of_mem_drop (there ▸ List.mem_cons_self ..)
    exact ⟨taken, earlier, there, member, (Option.some.inj stepped).symm⟩

theorem run_concat (operations : List Operation) (operation : Operation) :
    run (operations ++ [operation]) = (run operations).bind (step · operation) := by
  unfold run
  rw [List.foldlM_append]
  cases operations.foldlM step start with
  | none => rfl
  | some s => cases h : s.step operation <;> simp [h]

end Session

section Follows

variable {done : List Operation} {s next : Session}

theorem Follows.run (follows : Follows done s) : Session.run done.reverse = some s := by
  induction follows with
  | start => rfl
  | record _ id reading ih => rw [List.reverse_cons, Session.run_concat, ih]; rfl
  | checkpoint _ ih => rw [List.reverse_cons, Session.run_concat, ih]; rfl

theorem recordings_cons (operation : Operation) (done : List Operation) :
    recordings (operation :: done) = recordings done ++ operation.recording?.toList := by
  rw [recordings, List.reverse_cons, List.filterMap_append]
  cases operation <;> rfl

theorem Follows.mirrors (follows : Follows done s) : Mirrors (recordings done) s.annotations := by
  induction follows with
  | start => exact mirrors_empty
  | record _ id reading ih =>
    rw [recordings_cons]
    exact ih.record id reading
  | checkpoint _ ih =>
    rw [recordings_cons]
    exact (List.append_nil (recordings _)).symm ▸ ih

theorem exists_grew_record (a : Annotations) (id : NodeId) (reading : Annotation) :
    ∃ ids, Grew ids a (a.record id reading) := by
  cases known : a.get? id with
  | none => exact ⟨[id], grew_record reading known⟩
  | some earlier =>
    have same : a.record id reading = a := by simp only [record, known]
    rw [same]
    exact ⟨[], .refl _ a⟩

/-- Since a checkpoint was taken, annotations have grown. -/
theorem Follows.grew (follows : Follows done s) :
    ∀ taken ∈ s.checkpoints, taken.1 = taken.2.checkpoint ∧ ∃ ids, Grew ids taken.2 s.annotations := by
  induction follows with
  | start => exact nofun
  | @record _ s _ id reading ih =>
    intro taken member
    obtain ⟨same, ids, grew⟩ := ih taken member
    obtain ⟨more, recorded⟩ := exists_grew_record s.annotations id reading
    have inFirst : ∀ id ∈ ids, id ∈ ids ++ more := fun id member => List.mem_append_left more member
    have inSecond : ∀ id ∈ more, id ∈ ids ++ more := fun id member => List.mem_append_right ids member
    exact ⟨same, ids ++ more, (grew.mono inFirst).trans (recorded.mono inSecond)⟩
  | checkpoint _ ih =>
    intro taken member
    rcases List.mem_cons.mp member with rfl | earlier
    · exact ⟨rfl, [], .refl _ _⟩
    · exact ih taken earlier

theorem Follows.rollback_eq (follows : Follows done s) {taken : Checkpoint × Annotations} (member : taken ∈ s.checkpoints) :
    s.annotations.rollback taken.1 = taken.2 := by
  obtain ⟨same, ids, grew⟩ := follows.grew taken member
  rw [same]
  exact grew.rollback

theorem undone_record (depth : Nat) (id : NodeId) (reading : Annotation) (done : List Operation) :
    undone depth (.record id reading :: done) = undone depth done := by
  cases depth <;> rfl

/-- What was done before a checkpoint leads to what there was when it was taken. -/
theorem Follows.undone (follows : Follows done s) {depth : Nat} {taken : Checkpoint × Annotations}
    {earlier : List (Checkpoint × Annotations)} (there : s.checkpoints.drop depth = taken :: earlier) :
    Follows (undone depth done) ⟨taken.2, taken :: earlier⟩ := by
  induction follows generalizing depth with
  | start =>
    rw [Session.start, List.drop_nil] at there
    contradiction
  | record _ id reading ih =>
    rw [undone_record]
    exact ih there
  | checkpoint follows ih =>
    cases depth with
    | zero =>
      cases there
      exact .checkpoint follows
    | succ depth => exact ih there

theorem Follows.step (follows : Follows done s) {operation : Operation} (stepped : s.step operation = some next) :
    Follows (after done operation) next := by
  cases operation with
  | record id reading =>
    cases stepped
    exact .record follows id reading
  | checkpoint =>
    cases stepped
    exact .checkpoint follows
  | rollback depth =>
    obtain ⟨taken, earlier, there, member, rfl⟩ := Session.exists_taken stepped
    rw [follows.rollback_eq member]
    exact follows.undone there

/-- A session is the one to which its operations lead that no return has undone. -/
theorem follows_remaining {operations : List Operation} (run : Session.run operations = some s) :
    Follows (remaining operations) s := by
  -- From the end, because what an operation does depends on those before it.
  induction operations using List.reverseRecOn generalizing s with
  | nil =>
    cases run
    exact .start
  | append_singleton operations operation ih =>
    rw [Session.run_concat] at run
    obtain ⟨before, reached, stepped⟩ := Option.bind_eq_some_iff.mp run
    have rest : remaining (operations ++ [operation]) = after (remaining operations) operation := List.foldl_concat ..
    rw [rest]
    exact (ih reached).step stepped

/-- No step forgets at what moment a checkpoint was taken. -/
theorem Session.checkpoints_of_step {operation : Operation} (stepped : s.step operation = some next) :
    ∀ taken ∈ next.checkpoints, taken ∈ s.checkpoints ∨
      operation = .checkpoint ∧ taken = (s.annotations.checkpoint, s.annotations) := by
  intro taken member
  cases operation with
  | record id reading =>
    cases stepped
    exact Or.inl member
  | checkpoint =>
    cases stepped
    rcases List.mem_cons.mp member with rfl | earlier
    · exact Or.inr ⟨rfl, rfl⟩
    · exact Or.inl earlier
  | rollback depth =>
    obtain ⟨_, _, there, _, rfl⟩ := exists_taken stepped
    exact Or.inl (List.mem_of_mem_drop (there ▸ member))

/-- With each checkpoint stands what the annotations were when it was taken. -/
theorem Session.exists_moment {operations : List Operation} (reached : run operations = some s) :
    ∀ taken ∈ s.checkpoints, ∃ before later t, operations = before ++ .checkpoint :: later ∧ run before = some t ∧
      taken = (t.annotations.checkpoint, t.annotations) := by
  induction operations using List.reverseRecOn generalizing s with
  | nil =>
    cases reached
    exact nofun
  | append_singleton operations operation ih =>
    intro taken member
    rw [run_concat] at reached
    obtain ⟨b, before, stepped⟩ := Option.bind_eq_some_iff.mp reached
    rcases checkpoints_of_step stepped taken member with earlier | ⟨rfl, now⟩
    · obtain ⟨first, later, t, rfl, atMoment, same⟩ := ih before taken earlier
      exact ⟨first, later ++ [operation], t, by simp, atMoment, same⟩
    · exact ⟨operations, [], b, rfl, before, now⟩

/-- An annotation is never replaced by another one. Only a return takes it away. -/
theorem Follows.keeps (follows : Follows done s) {operation : Operation} (stepped : s.step operation = some next)
    {id : NodeId} {reading : Annotation} (known : s.annotations.get? id = some reading) :
    next.annotations.get? id = some reading ∨
      (∃ depth, operation = .rollback depth) ∧ next.annotations.get? id = none := by
  cases operation with
  | record other new =>
    cases stepped
    obtain ⟨ids, grew⟩ := exists_grew_record s.annotations other new
    exact Or.inl (grew.get?_of_some known)
  | checkpoint =>
    cases stepped
    exact Or.inl known
  | rollback depth =>
    obtain ⟨taken, earlier, there, member, rfl⟩ := Session.exists_taken stepped
    obtain ⟨_, ids, grew⟩ := follows.grew taken member
    rw [follows.rollback_eq member]
    cases past : taken.2.get? id with
    | none => exact Or.inr ⟨⟨depth, rfl⟩, rfl⟩
    | some old =>
      rw [grew.get?_of_some past] at known
      exact Or.inl known

end Follows

/-- The journal mirrors the table, whatever was recorded and undone, as long as it is undone in the opposite order. It lists
each annotated phrase once, in the order in which they were recorded, the first recording of a phrase counts, and a return
leads to exactly the annotations that there were when its checkpoint was taken, so that what it undoes leaves no trace. -/
theorem Session.journal_mirrors_table {operations : List Operation} {s : Session} (reached : run operations = some s) :
    Mirrors (recordings (remaining operations)) s.annotations ∧ run (remaining operations).reverse = some s ∧
      (∀ moment past, (moment, past) ∈ s.checkpoints →
        moment ≤ s.annotations.journal.length ∧ s.annotations.rollback moment = past ∧
        ∃ before later t, operations = before ++ .checkpoint :: later ∧ run before = some t ∧
          moment = t.annotations.checkpoint ∧ past = t.annotations) ∧
      ∀ operation next, s.step operation = some next → ∀ id reading, s.annotations.get? id = some reading →
        next.annotations.get? id = some reading ∨
          (∃ depth, operation = .rollback depth) ∧ next.annotations.get? id = none := by
  have follows := follows_remaining reached
  refine ⟨follows.mirrors, follows.run, fun moment past member => ⟨?_, follows.rollback_eq member, ?_⟩, ?_⟩
  · obtain ⟨atMoment, _, new, journal, _⟩ := follows.grew _ member
    have length : s.annotations.journal.length = new.length + past.journal.length := by rw [journal, List.length_append]
    have moment_eq : moment = past.journal.length := atMoment
    rw [moment_eq, length]
    exact Nat.le_add_left _ _
  · obtain ⟨before, later, t, split, there, same⟩ := exists_moment reached _ member
    cases same
    exact ⟨before, later, t, split, there, rfl, rfl⟩
  · intro operation next stepped id reading known
    exact follows.keeps stepped known

def symbolIn (c : Case) : Annotation :=
  ⟨.single c, .singular, none, none, none, true⟩

/-- An attempt with another one inside, both undone at once, and a second attempt that meets a phrase which was annotated
before the first. -/
def twoAttempts : List Operation :=
  [.record 3 (symbolIn .dative), .checkpoint, .record 5 (symbolIn .dative), .checkpoint, .record 4 (symbolIn .dative),
    .rollback 1, .record 4 (symbolIn .accusative), .record 3 (symbolIn .accusative)]

theorem twoAttempts_mirrored :
    ∃ s past, Session.run twoAttempts = some s ∧ s.checkpoints = [(1, past)] ∧ s.annotations.journal = [4, 3] ∧
      Mirrors [(3, symbolIn .dative), (4, symbolIn .accusative), (3, symbolIn .accusative)] s.annotations ∧
      s.annotations.get? 3 = some (symbolIn .dative) ∧ s.annotations.rollback 1 = past ∧
      s.annotations.get? 4 = some (symbolIn .accusative) ∧ past.get? 4 = none := by
  obtain ⟨s, reached⟩ : ∃ s, Session.run twoAttempts = some s := ⟨_, rfl⟩
  obtain ⟨mirrors, _, returns, _⟩ := Session.journal_mirrors_table reached
  cases reached
  exact ⟨_, _, rfl, rfl, rfl, mirrors, rfl, (returns 1 _ (List.mem_cons_self ..)).2.1, rfl, rfl⟩

end Satzbau.Annotations

import Satzbau.Proofs.Checking.Agrees
import Satzbau.Proofs.Checking.Reading
import Satzbau.Proofs.Journal

namespace Satzbau

namespace Checking

variable {α β : Type}

@[simp] theorem pure_run (r : α) (a : Annotations) : (pure r : Checking α).run a = (.ok r, a) := rfl

@[simp] theorem throw_run (fault : Diagnostic) (a : Annotations) :
    (throw fault : Checking α).run a = (.error fault, a) := rfl

theorem get_run (a : Annotations) : (get : Checking Annotations).run a = (.ok a, a) := rfl

theorem modify_run (f : Annotations → Annotations) (a : Annotations) :
    (modify f : Checking Unit).run a = (.ok (), f a) := rfl

theorem bind_run (m : Checking α) (f : α → Checking β) (a : Annotations) :
    (m >>= f).run a = match m.run a with
      | (.ok r, b) => (f r).run b
      | (.error fault, b) => (.error fault, b) := by
  unfold ExceptT.run
  simp only [bind, ExceptT.bind, ExceptT.mk, StateT.bind]
  rcases m a with ⟨_ | _, b⟩
  · rfl
  · rfl

theorem tryCatch_run (m : Checking α) (handler : Diagnostic → Checking α) (a : Annotations) :
    (tryCatch m handler).run a = match m.run a with
      | (.ok r, b) => (.ok r, b)
      | (.error fault, b) => (handler fault).run b := by
  unfold ExceptT.run
  simp only [tryCatch, tryCatchThe, MonadExceptOf.tryCatch, ExceptT.tryCatch, ExceptT.mk, bind, StateT.bind]
  rcases m a with ⟨_ | _, b⟩
  · rfl
  · rfl

end Checking

namespace Checker

open Checking

theorem resolve_run (dictionary : Dictionary) (p : NounPhrase) (cases : CaseSet) (numbers : NumberSet)
    (a : Annotations) :
    (resolve dictionary p cases numbers).run a =
      match a.get? p.id with
      | some reading => (.ok reading, a)
      | none =>
        match Agreement.annotate dictionary p cases numbers with
        | .ok reading => (.ok reading, a.record p.id reading)
        | .error fault => (.error fault, a) := by
  unfold resolve
  rw [bind_run, get_run]
  dsimp only
  cases a.get? p.id with
  | some reading => rfl
  | none =>
    dsimp only
    rw [bind_run]
    cases Agreement.annotate dictionary p cases numbers with
    | ok reading => rfl
    | error fault => rfl

/-- The first of some cases with which a check passes. -/
def firstCase? (check : Case → Checking Unit) (a : Annotations) (cases : List Case) : Option Case :=
  cases.find? fun c => ((check c).run a).1.isOk

/-- A case that fails is followed by the others, on what rolling it back leaves. -/
theorem tryCases_run_cons (check : Case → Checking Unit) (failure : Diagnostic) (c : Case) (others : List Case)
    (a : Annotations) :
    (tryCases check failure (c :: others)).run a =
      match (check c).run a with
      | (.ok r, b) => (.ok r, b)
      | (.error fault, b) => (tryCases check fault others).run (b.rollback a.checkpoint) := by
  rw [tryCases, bind_run, get_run]
  dsimp only
  rw [tryCatch_run]
  rcases (check c).run a with ⟨fault | r, b⟩ <;> rfl

/-- Trying cases is a check with the first one that passes: what the others recorded is undone. -/
theorem tryCases_run {ids : List NodeId} {check : Case → Checking Unit}
    (grows : ∀ c a, Annotations.Grew ids a ((check c).run a).2) (failure : Diagnostic) (cases : List Case)
    (a : Annotations) :
    match firstCase? check a cases with
    | some c => (tryCases check failure cases).run a = (check c).run a
    | none => ∃ fault, (tryCases check failure cases).run a = (.error fault, a) := by
  induction cases generalizing failure with
  | nil => exact ⟨failure, rfl⟩
  | cons c others ih =>
    have undone := (grows c a).rollback
    unfold firstCase? at ih ⊢
    rw [tryCases_run_cons, List.find?_cons]
    rcases first : (check c).run a with ⟨fault | r, b⟩
    · rw [first] at undone
      dsimp only at undone ⊢
      rw [undone]
      exact ih fault
    · exact first.symm

end Checker

/-- The case in which the roles of a preposition are checked, whatever was checked before. -/
def PrepositionGroup.settledCase? {α : Type} (check : Case → List α → Checking Unit) (g : PrepositionGroup α) :
    Option Case :=
  (Preposition.cases? g.preposition.text).bind (Checker.firstCase? (fun c => check c g.items) .empty)

/-- A check of parameters, as headers make it. -/
def Checker.checkParameters (dictionary : Dictionary) (c : Case) (parameters : List Parameter) : Checking Unit :=
  parameters.forM fun p => resolveIn dictionary p.phrase c .all

namespace Judgement

/-- A phrase is read as annotations say, and prepositions take the first case with which the check
of their roles passes. -/
def noted (dictionary : Dictionary) (a : Annotations) : Judgement where
  reads p cases numbers reading :=
    Agreement.annotate dictionary p cases numbers = .ok reading ∧ a.get? p.id = some reading
  ofCall g c := g.settledCase? (Checker.checkArguments dictionary) = some c
  ofHeader g c := g.settledCase? (Checker.checkParameters dictionary) = some c

theorem free_reads {dictionary : Dictionary} {p : NounPhrase} {cases : CaseSet} {numbers : NumberSet}
    {reading : Annotation} :
    (free dictionary).reads p cases numbers reading ↔ Agreement.annotate dictionary p cases numbers = .ok reading := by
  show ((Checker.resolve dictionary p cases numbers).run .empty).1 = .ok reading ↔ _
  have unknown : Annotations.empty.get? p.id = none := rfl
  rw [Checker.resolve_run, unknown]
  cases Agreement.annotate dictionary p cases numbers with
  | ok other => exact Iff.rfl
  | error fault => simp

theorem noted_below_free (dictionary : Dictionary) (a : Annotations) : (noted dictionary a).Below (free dictionary) where
  reads _ _ _ _ known := free_reads.mpr known.1
  ofCall _ _ _ := trivial
  ofHeader _ _ _ := trivial

/-- What was noted stays noted. -/
theorem noted_below_noted (dictionary : Dictionary) {ids : List NodeId} {a b : Annotations}
    (grew : Annotations.Grew ids a b) : (noted dictionary a).Below (noted dictionary b) where
  reads _ _ _ _ known := ⟨known.1, grew.get?_of_some known.2⟩
  ofCall _ _ picked := picked
  ofHeader _ _ picked := picked

end Judgement

namespace Checker

open Checking

variable {α β : Type} {dictionary : Dictionary}

/-- None of some ids is annotated. -/
def Unseen (ids : List NodeId) (a : Annotations) : Prop :=
  ∀ id ∈ ids, a.get? id = none

/-- A check decides whether what it visits agrees. It notes readings only under the ids of what it
visits. Where those are different from each other and not annotated, it passes exactly if there is
agreement, and then it has noted readings that agree. -/
structure Settles (dictionary : Dictionary) (ids : List NodeId) (check : Checking α)
    (agrees : Judgement → α → Prop) : Prop where
  mono : ∀ J K r, J.Below K → agrees J r → agrees K r
  grows : ∀ a, Annotations.Grew ids a (check.run a).2
  sound : ids.Nodup → ∀ a, Unseen ids a → ∀ r, (check.run a).1 = .ok r → agrees (.noted dictionary (check.run a).2) r
  complete : ids.Nodup → ∀ a, Unseen ids a → ∀ r, agrees (.free dictionary) r → (check.run a).1 = .ok r

namespace Settles

variable {ids ids' : List NodeId} {check : Checking α} {agrees agrees' : Judgement → α → Prop}

theorem pure (r : α) : Settles dictionary [] (pure r) fun _ s => s = r where
  mono _ _ _ _ same := same
  grows a := .refl _ a
  sound _ _ _ s returned := by
    cases returned
    rfl
  complete _ _ _ s same := by
    rw [same]
    rfl

theorem congr (settles : Settles dictionary ids check agrees) (same : ∀ J r, agrees' J r ↔ agrees J r) :
    Settles dictionary ids check agrees' where
  mono J K r below agreed := (same K r).mpr (settles.mono J K r below ((same J r).mp agreed))
  grows := settles.grows
  sound nodup a unseen r passed := (same _ r).mpr (settles.sound nodup a unseen r passed)
  complete nodup a unseen r agreed := settles.complete nodup a unseen r ((same _ r).mp agreed)

theorem widen (settles : Settles dictionary ids check agrees) (sublist : ids.Sublist ids') :
    Settles dictionary ids' check agrees where
  mono := settles.mono
  grows a := (settles.grows a).mono fun _ inside => sublist.subset inside
  sound nodup a unseen := settles.sound (nodup.sublist sublist) a fun id inside => unseen id (sublist.subset inside)
  complete nodup a unseen := settles.complete (nodup.sublist sublist) a fun id inside => unseen id (sublist.subset inside)

theorem bind {f : α → Checking β} {agreesNext : α → Judgement → β → Prop}
    (first : Settles dictionary ids check agrees) (next : ∀ r, Settles dictionary ids' (f r) (agreesNext r)) :
    Settles dictionary (ids ++ ids') (check >>= f) fun J s => ∃ r, agrees J r ∧ agreesNext r J s where
  mono J K s below := by
    rintro ⟨r, agreed, agreedNext⟩
    exact ⟨r, first.mono J K r below agreed, (next r).mono J K s below agreedNext⟩
  grows a := by
    have grewFirst := (first.grows a).mono fun id inside => List.mem_append_left ids' inside
    rw [bind_run]
    rcases run : check.run a with ⟨fault | r, b⟩
    · rw [run] at grewFirst
      exact grewFirst
    · rw [run] at grewFirst
      exact grewFirst.trans (((next r).grows b).mono fun id inside => List.mem_append_right ids inside)
  sound nodup a unseen s passed := by
    obtain ⟨nodupFirst, nodupNext, disjoint⟩ := List.nodup_append.mp nodup
    have soundFirst := first.sound nodupFirst a fun id inside => unseen id (List.mem_append_left ids' inside)
    have grewFirst := first.grows a
    rw [bind_run] at passed ⊢
    rcases run : check.run a with ⟨fault | r, b⟩
    · rw [run] at passed
      contradiction
    · rw [run] at passed soundFirst grewFirst
      have unseenNext : Unseen ids' b := by
        intro id inside
        rw [grewFirst.get?_of_not_mem fun seen => disjoint id seen id inside rfl]
        exact unseen id (List.mem_append_right ids inside)
      refine ⟨r, ?_, (next r).sound nodupNext b unseenNext s passed⟩
      exact first.mono _ _ r (Judgement.noted_below_noted dictionary ((next r).grows b)) (soundFirst r rfl)
  complete nodup a unseen s := by
    rintro ⟨r, agreed, agreedNext⟩
    obtain ⟨nodupFirst, nodupNext, disjoint⟩ := List.nodup_append.mp nodup
    have passedFirst := first.complete nodupFirst a (fun id inside => unseen id (List.mem_append_left ids' inside)) r agreed
    have grewFirst := first.grows a
    rw [bind_run]
    rcases run : check.run a with ⟨fault | other, b⟩
    · rw [run] at passedFirst
      contradiction
    · rw [run] at passedFirst grewFirst
      cases passedFirst
      have unseenNext : Unseen ids' b := by
        intro id inside
        rw [grewFirst.get?_of_not_mem fun seen => disjoint id seen id inside rfl]
        exact unseen id (List.mem_append_right ids inside)
      exact (next r).complete nodupNext b unseenNext s agreedNext

/-- Two checks one after the other. -/
theorem seq {check : Checking Unit} {agrees : Judgement → Unit → Prop} {later : Checking α}
    {agreesLater : Judgement → α → Prop} (first : Settles dictionary ids check agrees)
    (next : Settles dictionary ids' later agreesLater) :
    Settles dictionary (ids ++ ids') (do check; later) fun J r => agrees J () ∧ agreesLater J r :=
  (first.bind fun _ => next).congr fun _ _ => ⟨fun both => ⟨(), both⟩, fun ⟨_, both⟩ => both⟩

theorem resolve (p : NounPhrase) (cases : CaseSet) (numbers : NumberSet) :
    Settles dictionary [p.id] (resolve dictionary p cases numbers) fun J reading => J.reads p cases numbers reading where
  mono J K reading below known := below.reads p cases numbers reading known
  grows a := by
    rw [resolve_run]
    split
    · exact .refl _ a
    · rename_i unknown
      split
      · exact Annotations.grew_record _ unknown
      · exact .refl _ a
  sound _ a unseen reading := by
    have unknown := unseen p.id (List.mem_singleton_self _)
    rw [resolve_run, unknown]
    dsimp only
    cases read : Agreement.annotate dictionary p cases numbers with
    | error fault => intro; contradiction
    | ok _ =>
      intro passed
      cases passed
      exact ⟨read, Annotations.get?_record reading unknown⟩
  complete _ a unseen reading known := by
    rw [resolve_run, unseen p.id (List.mem_singleton_self _), Judgement.free_reads.mp known]

theorem read (p : NounPhrase) (cases : CaseSet) (numbers : NumberSet) :
    Settles dictionary [p.id] (do let _ ← Checker.resolve dictionary p cases numbers : Checking Unit)
      fun J _ => ∃ reading, J.reads p cases numbers reading :=
  ((resolve p cases numbers).bind fun _ => pure ()).congr fun J r => by simp

theorem readThen (p : NounPhrase) (cases : CaseSet) (numbers : NumberSet)
    (next : Settles dictionary ids check agrees) :
    Settles dictionary (p.id :: ids) (do let _ ← Checker.resolve dictionary p cases numbers; check)
      fun J r => (∃ reading, J.reads p cases numbers reading) ∧ agrees J r :=
  ((resolve p cases numbers).bind fun _ => next).congr fun J r => by simp

theorem resolveIn (p : NounPhrase) (c : Case) (numbers : NumberSet) :
    Settles dictionary [p.id] (resolveIn dictionary p c numbers)
      fun J _ => ∃ reading, J.reads p (.single c) numbers reading :=
  read p (.single c) numbers

theorem checkAssignment (verb : Token) (n : Number) :
    Settles dictionary [] (checkAssignment verb n) fun _ _ => verb.text = n.assignmentVerb where
  mono _ _ _ _ same := same
  grows a := by
    unfold Checker.checkAssignment
    split
    · exact .refl _ a
    · exact .refl _ a
  sound _ a _ r passed := by
    unfold Checker.checkAssignment at passed
    split at passed
    · contradiction
    · rename_i same
      exact Decidable.not_not.mp same
  complete _ a _ r same := by
    unfold Checker.checkAssignment
    rw [if_neg (not_not_intro same)]
    rfl

theorem forM {β : Type} {check : β → Checking Unit} {ids : β → List NodeId} {agrees : Judgement → β → Prop}
    (xs : List β) (each : ∀ x ∈ xs, Settles dictionary (ids x) (check x) fun J _ => agrees J x) :
    Settles dictionary (xs.flatMap ids) (xs.forM check) fun J _ => ∀ x ∈ xs, agrees J x := by
  induction xs with
  | nil => exact (pure ()).congr fun J r => by simp
  | cons x later ih =>
    have first := each x (List.mem_cons_self ..)
    have others := ih fun y inside => each y (List.mem_cons_of_mem _ inside)
    exact (first.seq others).congr fun J r => by simp

/-- Whether a check passes does not depend on what was annotated before. -/
theorem isOk_iff (settles : Settles dictionary ids check agrees) (nodup : ids.Nodup) {a : Annotations}
    (unseen : Unseen ids a) : (check.run a).1.isOk = true ↔ ∃ r, agrees (.free dictionary) r := by
  constructor
  · intro passed
    cases result : (check.run a).1 with
    | error fault =>
      rw [result] at passed
      contradiction
    | ok r =>
      have agreed := settles.sound nodup a unseen r result
      exact ⟨r, settles.mono _ _ r (Judgement.noted_below_free dictionary _) agreed⟩
  · rintro ⟨r, agreed⟩
    rw [settles.complete nodup a unseen r agreed]
    rfl

theorem firstCase?_eq {check : Case → Checking Unit} {agrees : Case → Judgement → Unit → Prop}
    (each : ∀ c, Settles dictionary ids (check c) (agrees c)) (nodup : ids.Nodup) {a : Annotations}
    (unseen : Unseen ids a) (cases : List Case) : firstCase? check a cases = firstCase? check .empty cases := by
  unfold firstCase?
  congr 1
  funext c
  rw [Bool.eq_iff_iff, (each c).isOk_iff nodup unseen, (each c).isOk_iff nodup fun _ _ => rfl]

theorem checkGroup {β : Type} {checkItems : Case → List β → Checking Unit} {g : PrepositionGroup β}
    {agrees : Case → Judgement → Unit → Prop} {picks : Judgement → Case → Prop}
    (each : ∀ c, Settles dictionary ids (checkItems c g.items) (agrees c))
    (mono : ∀ J K c, J.Below K → picks J c → picks K c)
    (noted : ∀ a c, g.settledCase? checkItems = some c → picks (.noted dictionary a) c) :
    Settles dictionary ids (checkGroup g.preposition fun c => checkItems c g.items)
      fun J r => groupAgrees g.preposition (picks J) fun c => agrees c J r where
  mono J K r below agreed := agreed.mono (fun c => mono J K c below) fun c => (each c).mono J K r below
  grows a := by
    unfold Checker.checkGroup
    split
    · exact .refl _ a
    · rename_i cases _
      have run := tryCases_run (fun c a => (each c).grows a) (.unlocated (.internal "preposition without cases")) cases a
      split at run
      · rw [run]
        exact (each _).grows a
      · obtain ⟨fault, failed⟩ := run
        rw [failed]
        exact .refl _ a
  sound nodup a unseen r := by
    unfold Checker.checkGroup
    split
    · intro; contradiction
    · rename_i cases known
      have run := tryCases_run (fun c a => (each c).grows a) (.unlocated (.internal "preposition without cases")) cases a
      split at run
      · rename_i c first
        rw [run]
        intro passed
        have settled : g.settledCase? checkItems = some c := by
          rw [PrepositionGroup.settledCase?, known, Option.bind_some, ← firstCase?_eq each nodup unseen]
          exact first
        exact ⟨cases, known, c, List.mem_of_find?_eq_some first, noted _ c settled, (each c).sound nodup a unseen r passed⟩
      · obtain ⟨fault, failed⟩ := run
        rw [failed]
        intro; contradiction
  complete nodup a unseen r := by
    rintro ⟨cases, known, c, member, _, agreed⟩
    have passes := (each c).complete nodup a unseen r agreed
    unfold Checker.checkGroup
    rw [known]
    have run := tryCases_run (fun c a => (each c).grows a) (.unlocated (.internal "preposition without cases")) cases a
    split at run
    · rename_i d first
      dsimp only
      rw [run]
      have succeeds := List.find?_some first
      cases result : ((checkItems d g.items).run a).1 with
      | error fault =>
        rw [result] at succeeds
        contradiction
      | ok _ => rfl
    · rename_i never
      have fails := List.find?_eq_none.mp never c member
      rw [passes] at fails
      contradiction

end Settles

end Checker

end Satzbau

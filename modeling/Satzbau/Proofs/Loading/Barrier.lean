import Mathlib.Data.List.Perm.Subperm
import Mathlib.Logic.Relation
import Satzbau.Proofs.Loading.Taking

namespace Satzbau

/-- The lookups of a program while they run: those that have ended, in the order in which they did, those that are
still to be taken in, the dictionary and the files as they are by now, and what went wrong. -/
structure Barrier where
  ended : List Arrival
  waiting : List (LookupRequest × Nat)
  dictionary : Dictionary
  files : Files
  fault : Option Diagnostic

namespace Barrier

def start (inline : Dictionary) (files : Files) (requests : List LookupRequest) : Barrier :=
  ⟨[], requests.zipIdx, inline, files, none⟩

/-- Whether nothing will be taken in any more. -/
def Done (b : Barrier) : Prop :=
  b.fault.isSome ∨ b.waiting = []

def result (b : Barrier) : Except Diagnostic Dictionary :=
  b.fault.elim (.ok b.dictionary) .error

/-- What can happen next: any lookup that runs ends, or the first lookup that is to be taken in has ended and is taken
in, which may fail. -/
inductive Step (rewrite : Bool) (outcome : Outcomes) (requests : List LookupRequest) : Barrier → Barrier → Prop
  | ends {b : Barrier} {r : LookupRequest} {index : Nat} (asked : requests[index]? = some r)
    (runs : index ∉ b.ended.map Arrival.index) :
    Step rewrite outcome requests b { b with ended := b.ended ++ [⟨index, outcome (r, index)⟩] }
  | takes {b : Barrier} {r : LookupRequest} {index : Nat} {later : List (LookupRequest × Nat)} {arrival : Arrival}
    {grown : Dictionary} {files' : Files} (goesOn : b.fault = none) (first : b.waiting = (r, index) :: later)
    (arrived : b.ended.find? (fun arrival => arrival.index == index) = some arrival)
    (taken : (Dictionary.takeIn rewrite b.dictionary r arrival.outcome).run b.files = (.ok grown, files')) :
    Step rewrite outcome requests b { b with waiting := later, dictionary := grown, files := files' }
  | stops {b : Barrier} {r : LookupRequest} {index : Nat} {later : List (LookupRequest × Nat)} {arrival : Arrival}
    {fault : Diagnostic} {files' : Files} (goesOn : b.fault = none) (first : b.waiting = (r, index) :: later)
    (arrived : b.ended.find? (fun arrival => arrival.index == index) = some arrival)
    (failed : (Dictionary.takeIn rewrite b.dictionary r arrival.outcome).run b.files = (.error fault, files')) :
    Step rewrite outcome requests b { b with waiting := later, files := files', fault := some fault }

variable {rewrite : Bool} {outcome : Outcomes} {requests : List LookupRequest} {inline : Dictionary} {files : Files}
  {b b' : Barrier}

/-- What would come of it if the lookups that are left were taken in at once. -/
def outlook (rewrite : Bool) (outcome : Outcomes) (b : Barrier) : Except Diagnostic Dictionary × Files :=
  match b.fault with
  | none => (Dictionary.takeEach rewrite outcome b.dictionary b.waiting).run b.files
  | some fault => (.error fault, b.files)

/-- What holds of the lookups of a program at any time, of which the first is the point: what will come of them is
settled from the start. -/
structure OnCourse (rewrite : Bool) (outcome : Outcomes) (requests : List LookupRequest) (inline : Dictionary)
    (files : Files) (b : Barrier) : Prop where
  settled : b.outlook rewrite outcome = (Dictionary.takeEach rewrite outcome inline requests.zipIdx).run files
  arrived : ∀ arrival ∈ b.ended, ∃ r, requests[arrival.index]? = some r ∧ arrival.outcome = outcome (r, arrival.index)
  asked : ∀ entry ∈ b.waiting, requests[entry.2]? = some entry.1
  once : (b.ended.map Arrival.index).Nodup

theorem OnCourse.start (rewrite : Bool) (outcome : Outcomes) (requests : List LookupRequest) (inline : Dictionary)
    (files : Files) : OnCourse rewrite outcome requests inline files (start inline files requests) where
  settled := rfl
  arrived _ impossible := absurd impossible List.not_mem_nil
  asked _ member := List.mem_zipIdx_iff_getElem?.mp member
  once := .nil

/-- What has arrived for the first lookup that is to be taken in is what comes of it. -/
theorem OnCourse.outcome_eq (course : OnCourse rewrite outcome requests inline files b) {r : LookupRequest} {index : Nat}
    {later : List (LookupRequest × Nat)} {arrival : Arrival} (first : b.waiting = (r, index) :: later)
    (arrived : b.ended.find? (fun arrival => arrival.index == index) = some arrival) :
    arrival.outcome = outcome (r, index) := by
  obtain ⟨r', asked', same⟩ := course.arrived arrival (List.mem_of_find?_eq_some arrived)
  have atIndex := List.find?_some arrived
  obtain rfl : arrival.index = index := beq_iff_eq.mp atIndex
  have asked : requests[arrival.index]? = some r := course.asked (r, arrival.index) (first ▸ List.mem_cons_self ..)
  rw [asked] at asked'
  cases asked'
  exact same

/-- The first lookup that is to be taken in decides what the others are taken in after. -/
theorem outlook_cons {r : LookupRequest} {index : Nat} {later : List (LookupRequest × Nat)} (goesOn : b.fault = none)
    (first : b.waiting = (r, index) :: later) :
    b.outlook rewrite outcome =
      match (Dictionary.takeIn rewrite b.dictionary r (outcome (r, index))).run b.files with
      | (.ok grown, middle) => (Dictionary.takeEach rewrite outcome grown later).run middle
      | (.error fault, middle) => (.error fault, middle) := by
  unfold outlook
  rw [goesOn, first]
  exact Dictionary.takeEach_cons ..

theorem OnCourse.step (course : OnCourse rewrite outcome requests inline files b)
    (step : Step rewrite outcome requests b b') : OnCourse rewrite outcome requests inline files b' := by
  cases step with
  | @ends r index asked runs =>
    refine ⟨course.settled, fun arrival member => ?_, course.asked, ?_⟩
    · obtain earlier | last := List.mem_append.mp member
      · exact course.arrived arrival earlier
      · cases List.mem_singleton.mp last
        exact ⟨r, asked, rfl⟩
    · rw [List.map_append]
      exact List.nodup_append'.mpr ⟨course.once, List.nodup_singleton _, List.disjoint_singleton.mpr runs⟩
  | takes goesOn first arrived taken =>
    refine ⟨?_, course.arrived, fun entry member => course.asked entry (first ▸ List.mem_cons_of_mem _ member), course.once⟩
    rw [← course.settled, outlook_cons goesOn first, ← course.outcome_eq first arrived, taken]
    unfold outlook
    dsimp only
    rw [goesOn]
  | stops goesOn first arrived failed =>
    refine ⟨?_, course.arrived, fun entry member => course.asked entry (first ▸ List.mem_cons_of_mem _ member), course.once⟩
    rw [← course.settled, outlook_cons goesOn first, ← course.outcome_eq first arrived, failed]
    rfl

theorem OnCourse.steps (course : OnCourse rewrite outcome requests inline files b)
    (steps : Relation.ReflTransGen (Step rewrite outcome requests) b b') :
    OnCourse rewrite outcome requests inline files b' := by
  induction steps with
  | refl => exact course
  | tail _ step ih => exact ih.step step

/-- What is left to happen: lookups that have not ended, and lookups that are not taken in. -/
def left (requests : List LookupRequest) (b : Barrier) : Nat :=
  requests.length - b.ended.length + b.waiting.length

/-- A lookup that still runs is one of those that were asked for. -/
theorem OnCourse.ended_lt (course : OnCourse rewrite outcome requests inline files b) {r : LookupRequest} {index : Nat}
    (asked : requests[index]? = some r) (runs : index ∉ b.ended.map Arrival.index) :
    b.ended.length < requests.length := by
  have among : index :: b.ended.map Arrival.index ⊆ List.range requests.length := by
    intro i member
    refine List.mem_range.mpr ?_
    obtain rfl | earlier := List.mem_cons.mp member
    · exact (List.getElem?_eq_some_iff.mp asked).1
    · obtain ⟨arrival, ended, rfl⟩ := List.mem_map.mp earlier
      obtain ⟨r', asked', _⟩ := course.arrived arrival ended
      exact (List.getElem?_eq_some_iff.mp asked').1
  have short := (List.Nodup.subperm (List.nodup_cons.mpr ⟨runs, course.once⟩) among).length_le
  rwa [List.length_cons, List.length_map, List.length_range] at short

theorem OnCourse.left_lt (course : OnCourse rewrite outcome requests inline files b)
    (step : Step rewrite outcome requests b b') : b'.left requests < b.left requests := by
  unfold left
  cases step with
  | ends asked runs =>
    have running := course.ended_lt asked runs
    simp only [List.length_append, List.length_singleton]
    omega
  | takes _ first => simp only [first, List.length_cons, Nat.lt_succ_self, Nat.add_lt_add_iff_left]
  | stops _ first => simp only [first, List.length_cons, Nat.lt_succ_self, Nat.add_lt_add_iff_left]

/-- Lookups do not run forever. -/
theorem OnCourse.acc (course : OnCourse rewrite outcome requests inline files b) :
    Acc (flip (Step rewrite outcome requests)) b := by
  induction remaining : b.left requests using Nat.strongRecOn generalizing b with
  | ind n ih => exact .intro b fun _ step => ih _ (remaining ▸ course.left_lt step) (course.step step) rfl

/-- As long as something is to be taken in, something can happen: the first lookup ends or is taken in. -/
theorem OnCourse.exists_step (course : OnCourse rewrite outcome requests inline files b) (going : ¬ b.Done) :
    ∃ next, Step rewrite outcome requests b next := by
  obtain ⟨noFault, some⟩ := not_or.mp going
  have goesOn : b.fault = none := by simpa using noFault
  obtain ⟨⟨r, index⟩, later, first⟩ := List.exists_cons_of_ne_nil some
  by_cases runs : index ∈ b.ended.map Arrival.index
  · obtain ⟨ended, among, rfl⟩ := List.mem_map.mp runs
    have present : (b.ended.find? fun arrival => arrival.index == ended.index).isSome :=
      List.find?_isSome.mpr ⟨ended, among, beq_self_eq_true _⟩
    obtain ⟨arrival, arrived⟩ := Option.isSome_iff_exists.mp present
    cases taken : (Dictionary.takeIn rewrite b.dictionary r arrival.outcome).run b.files with
    | mk result files' =>
      cases result with
      | ok grown => exact ⟨_, .takes goesOn first arrived taken⟩
      | error fault => exact ⟨_, .stops goesOn first arrived taken⟩
  · exact ⟨_, .ends (course.asked (r, index) (first ▸ List.mem_cons_self ..)) runs⟩

theorem OnCourse.eq_of_done (course : OnCourse rewrite outcome requests inline files b) (done : b.Done) :
    (Dictionary.takeEach rewrite outcome inline requests.zipIdx).run files = (b.result, b.files) := by
  rw [← course.settled]
  unfold outlook result
  cases fault : b.fault with
  | some _ => rfl
  | none =>
    obtain impossible | empty := done
    · rw [fault] at impossible
      contradiction
    · rw [empty]
      rfl

/-- Whether lookups come to one and the same end whatever happens when: they do not run forever, they go on until
nothing is to be taken in any more, and then the result and the files are the given ones. -/
structure AlwaysEndsIn (step : Barrier → Barrier → Prop) (first : Barrier) (result : Except Diagnostic Dictionary)
    (files' : Files) : Prop where
  ends : Acc (flip step) first
  goesOn : ∀ b, Relation.ReflTransGen step first b → ¬ b.Done → ∃ next, step b next
  same : ∀ b, Relation.ReflTransGen step first b → b.Done → b.result = result ∧ b.files = files'

/-- Lookups come to what taking them in one after the other comes to. -/
theorem alwaysEndsIn_takeEach (rewrite : Bool) (outcome : Outcomes) (requests : List LookupRequest) (inline : Dictionary)
    (files : Files) :
    AlwaysEndsIn (Step rewrite outcome requests) (start inline files requests)
      ((Dictionary.takeEach rewrite outcome inline requests.zipIdx).run files).1
      ((Dictionary.takeEach rewrite outcome inline requests.zipIdx).run files).2 where
  ends := (OnCourse.start ..).acc
  goesOn _ steps := ((OnCourse.start ..).steps steps).exists_step
  same _ steps done := by
    rw [((OnCourse.start rewrite outcome requests inline files).steps steps).eq_of_done done]
    exact ⟨rfl, rfl⟩

end Barrier

namespace Program

/-- The lookups of a program may end in any order, each early or late. What a load comes to does not depend on that: all
that the program spells out is put into the dictionary, then its lookups are taken in one after the other in the order
of the program, up to the first that fails. -/
theorem dictionary_of_schedule (p : Program) (options : LoadingOptions) (files : Files) (delays : Nat → Nat) :
    ∃ result files',
      p.LoadsInOrder options.rewrite (options.service.outcomes options.timeout delays) files result files' ∧
      (∀ inline, Dictionary.ofInline p.inlineDeclensions = .ok inline →
        Barrier.AlwaysEndsIn
          (Barrier.Step options.rewrite (options.service.outcomes options.timeout delays) p.lookupRequests)
          (.start inline files p.lookupRequests) result files') ∧
      ((∀ index r, p.lookupRequests[index]? = some r → delays index = (options.service.answer r.word.text).delay) →
        (p.dictionary options).run files = (result, files')) := by
  refine ⟨_, _, loadsInOrder_loadEach .., fun inline spelled => ?_, fun usual => ?_⟩
  · rw [loadEach_of_spelled spelled]
    exact Barrier.alwaysEndsIn_takeEach ..
  · have same : ∀ entry ∈ p.lookupRequests.zipIdx, options.service.outcome options.timeout entry.1.word.text =
        options.service.outcomes options.timeout delays entry := by
      intro entry member
      unfold LookupService.outcomes LookupService.outcomeAfter
      rw [usual _ _ (List.mem_zipIdx_iff_getElem?.mp member)]
      rfl
    rw [dictionary_eq_loadEach same]
    rfl

end Program

end Satzbau

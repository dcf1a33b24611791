import Satzbau.Proofs.Lookup.Insertion
import Satzbau.Proofs.Respelling.Answering

namespace Satzbau

/-- The second of two steps is taken on what the first leaves, and only if the first succeeds. -/
theorem Loading.run_bind {α β : Type} (x : Loading α) (f : α → Loading β) (files : Files) :
    (x >>= f).run files = match x.run files with
      | (.ok a, middle) => (f a).run middle
      | (.error fault, middle) => (.error fault, middle) := by
  have step : (x >>= f).run files = ExceptT.bindCont f (x.run files).1 (x.run files).2 := rfl
  rw [step]
  rcases x.run files with ⟨_ | _, middle⟩ <;> rfl

/-- What is reported of a lookup that failed. A word that is not known or not understood was not found, and what is
wrong with the service itself is passed on as it is. -/
def LookupFailure.fault (word : String) : LookupFailure → Fault
  | notFound _ | unreadable _ => .externalWordNotFound word
  | noConnectivity => .noConnectivity word
  | passed => .external passed

theorem LookupFailure.diagnostic_eq (word : Token) (failure : LookupFailure) :
    failure.diagnostic word = ⟨failure.fault word.text, some word.location⟩ := by
  cases failure <;> rfl

/-- What comes of the lookups of a program, each told by its request and the index of it. -/
abbrev Outcomes := LookupRequest × Nat → Except LookupFailure Declension

/-- What becomes of a tree of files when the answer to a request is found: it is written into the line of the statement,
if answers are written at all. -/
inductive Files.Receives : Bool → Files → LookupRequest → Declension → Files → Prop
  | kept {files : Files} {r : LookupRequest} {entry : Declension} : Receives false files r entry files
  | written {files files' : Files} {r : LookupRequest} {entry : Declension}
    (wrote : files.writeDeclension ⟨r.statement.file⟩ r.statement.span.line entry = .ok files') :
    Receives true files r entry files'

namespace Dictionary

variable {rewrite : Bool} {outcome : Outcomes}

/-- Whether a dictionary has an entry with some nominative. -/
def Knows (d : Dictionary) (nominative : String) : Prop :=
  ∃ entry ∈ d.entries, entry.nominative = nominative

theorem insert_cases (d : Dictionary) (entry : Declension) :
    (∃ grown, d.insert entry = .ok grown) ∨
      d.insert entry = .error (.duplicateDeclension entry.nominative) ∧ d.Knows entry.nominative := by
  unfold insert
  cases found : insertBefore entry d.entries with
  | some entries => exact Or.inl ⟨⟨entries⟩, rfl⟩
  | none => exact Or.inr ⟨rfl, insertBefore_eq_none found⟩

/-- Lookups that were taken in one after the other: each had an answer, which the files received and which was put into
the dictionary. -/
inductive TakenIn (rewrite : Bool) (outcome : Outcomes) (inline : Dictionary) (files : Files) :
    List (LookupRequest × Nat) → List Declension → Dictionary → Files → Prop
  | none : TakenIn rewrite outcome inline files [] [] inline files
  | next {done : List (LookupRequest × Nat)} {entries : List Declension} {d grown : Dictionary} {middle files' : Files}
    {r : LookupRequest} {index : Nat} {entry : Declension}
    (before : TakenIn rewrite outcome inline files done entries d middle) (answered : outcome (r, index) = .ok entry)
    (received : middle.Receives rewrite r entry files') (inserted : d.insert entry = .ok grown) :
    TakenIn rewrite outcome inline files (done ++ [(r, index)]) (entries ++ [entry]) grown files'

theorem TakenIn.answered {inline d : Dictionary} {files files' : Files} {done : List (LookupRequest × Nat)}
    {entries : List Declension} (taken : TakenIn rewrite outcome inline files done entries d files') :
    List.Forall₂ (fun asked entry => outcome asked = .ok entry) done entries := by
  induction taken with
  | none => exact .nil
  | next _ answered _ _ ih => exact List.rel_append ih (.cons answered .nil)

/-- Each answer was put into the dictionary once. -/
theorem TakenIn.perm {inline d : Dictionary} {files files' : Files} {done : List (LookupRequest × Nat)}
    {entries : List Declension} (taken : TakenIn rewrite outcome inline files done entries d files') :
    d.entries.Perm (entries ++ inline.entries) := by
  induction taken with
  | none => exact .refl _
  | @next _ entries _ _ _ _ _ _ entry _ _ _ inserted ih =>
    rw [List.append_assoc]
    exact (insertBefore_perm (insert_eq_ok inserted)).trans ((ih.cons entry).trans List.perm_middle.symm)

/-- What taking in the lookups of a program comes to, one after the other and up to the first that fails. -/
inductive Takes (rewrite : Bool) (outcome : Outcomes) (inline : Dictionary) (files : Files)
    (asked : List (LookupRequest × Nat)) : Except Diagnostic Dictionary → Files → Prop
  | complete {entries : List Declension} {d : Dictionary} {files' : Files}
    (all : TakenIn rewrite outcome inline files asked entries d files') :
    Takes rewrite outcome inline files asked (.ok d) files'
  | unanswered {earlier later : List (LookupRequest × Nat)} {entries : List Declension} {d : Dictionary} {files' : Files}
    {r : LookupRequest} {index : Nat} {failure : LookupFailure} (split : asked = earlier ++ (r, index) :: later)
    (before : TakenIn rewrite outcome inline files earlier entries d files') (failed : outcome (r, index) = .error failure) :
    Takes rewrite outcome inline files asked (.error ⟨failure.fault r.word.text, some r.word.location⟩) files'
  | unwritten {earlier later : List (LookupRequest × Nat)} {entries : List Declension} {d : Dictionary} {files' : Files}
    {r : LookupRequest} {index : Nat} {entry : Declension} {fault : Diagnostic}
    (split : asked = earlier ++ (r, index) :: later)
    (before : TakenIn rewrite outcome inline files earlier entries d files') (answered : outcome (r, index) = .ok entry)
    (rewrites : rewrite = true)
    (unwritable : files'.writeDeclension ⟨r.statement.file⟩ r.statement.span.line entry = .error fault) :
    Takes rewrite outcome inline files asked (.error fault) files'
  | rejected {earlier later : List (LookupRequest × Nat)} {entries : List Declension} {d : Dictionary}
    {middle files' : Files} {r : LookupRequest} {index : Nat} {entry : Declension}
    (split : asked = earlier ++ (r, index) :: later)
    (before : TakenIn rewrite outcome inline files earlier entries d middle) (answered : outcome (r, index) = .ok entry)
    (received : middle.Receives rewrite r entry files') (known : d.Knows entry.nominative) :
    Takes rewrite outcome inline files asked
      (.error ⟨.duplicateDeclension entry.nominative, some r.word.location⟩) files'

/-- An answer that is to be written is put into the dictionary if it could be written. -/
theorem takeIn_ok_run (d : Dictionary) (r : LookupRequest) (entry : Declension) (files : Files) :
    (takeIn true d r (.ok entry)).run files =
      match files.writeDeclension ⟨r.statement.file⟩ r.statement.span.line entry with
      | .ok changed => (d.insertAt r.word entry, changed)
      | .error fault => (.error fault, files) := by
  have step : (takeIn true d r (.ok entry)).run files =
      ((liftM (files.writeDeclension ⟨r.statement.file⟩ r.statement.span.line entry) : Loading Files) >>= fun changed => do
        set changed
        liftM (d.insertAt r.word entry)).run files := rfl
  rw [step, Loading.run_bind]
  cases files.writeDeclension ⟨r.statement.file⟩ r.statement.span.line entry <;> rfl

/-- An answer is put into the dictionary when the files have received it. -/
theorem takeIn_ok_eq {files files' : Files} {r : LookupRequest} {entry : Declension}
    (received : files.Receives rewrite r entry files') (d : Dictionary) :
    (takeIn rewrite d r (.ok entry)).run files = (d.insertAt r.word entry, files') := by
  cases received with
  | kept => rfl
  | written wrote => rw [takeIn_ok_run, wrote]

/-- The files receive an answer, or cannot be written. -/
theorem receives_or_unwritten (rewrite : Bool) (files : Files) (r : LookupRequest) (entry : Declension) :
    (∃ files', files.Receives rewrite r entry files') ∨
      ∃ fault, rewrite = true ∧
        files.writeDeclension ⟨r.statement.file⟩ r.statement.span.line entry = .error fault ∧
          ∀ d : Dictionary, (takeIn rewrite d r (.ok entry)).run files = (.error fault, files) := by
  cases rewrite with
  | false => exact Or.inl ⟨files, .kept⟩
  | true =>
    cases wrote : files.writeDeclension ⟨r.statement.file⟩ r.statement.span.line entry with
    | ok files' => exact Or.inl ⟨files', .written wrote⟩
    | error fault =>
      exact Or.inr ⟨fault, rfl, rfl, fun d => by rw [takeIn_ok_run, wrote]⟩

/-- Takes in one lookup after the other. -/
def takeEach (rewrite : Bool) (outcome : Outcomes) (d : Dictionary) (asked : List (LookupRequest × Nat)) :
    Loading Dictionary :=
  asked.foldlM (fun d asked => takeIn rewrite d asked.1 (outcome asked)) d

theorem takeEach_append (d : Dictionary) (earlier later : List (LookupRequest × Nat)) (files : Files) :
    (takeEach rewrite outcome d (earlier ++ later)).run files =
      match (takeEach rewrite outcome d earlier).run files with
      | (.ok grown, middle) => (takeEach rewrite outcome grown later).run middle
      | (.error fault, middle) => (.error fault, middle) := by
  have step : takeEach rewrite outcome d (earlier ++ later) =
      takeEach rewrite outcome d earlier >>= fun grown => takeEach rewrite outcome grown later := List.foldlM_append
  rw [step, Loading.run_bind]
  rcases (takeEach rewrite outcome d earlier).run files with ⟨_ | _, middle⟩ <;> rfl

theorem takeEach_cons (d : Dictionary) (first : LookupRequest × Nat) (later : List (LookupRequest × Nat)) (files : Files) :
    (takeEach rewrite outcome d (first :: later)).run files =
      match (takeIn rewrite d first.1 (outcome first)).run files with
      | (.ok grown, middle) => (takeEach rewrite outcome grown later).run middle
      | (.error fault, middle) => (.error fault, middle) := by
  have step : takeEach rewrite outcome d (first :: later) =
      takeIn rewrite d first.1 (outcome first) >>= fun grown => takeEach rewrite outcome grown later := List.foldlM_cons
  rw [step, Loading.run_bind]
  rcases (takeIn rewrite d first.1 (outcome first)).run files with ⟨_ | _, middle⟩ <;> rfl

/-- Lookups that were taken in are all that it takes to come to where they led. -/
theorem TakenIn.run {inline d : Dictionary} {files files' : Files} {done : List (LookupRequest × Nat)}
    {entries : List Declension} (taken : TakenIn rewrite outcome inline files done entries d files') :
    (takeEach rewrite outcome inline done).run files = (.ok d, files') := by
  induction taken with
  | none => rfl
  | next _ answered received inserted ih =>
    rw [takeEach_append, ih]
    dsimp only
    rw [takeEach_cons, answered, takeIn_ok_eq received, insertAt, inserted]
    rfl

/-- Taking in lookups one after the other comes to what the first of them that fails leaves. -/
theorem takes_takeEach {inline d : Dictionary} {files middle : Files} {done later : List (LookupRequest × Nat)}
    {entries : List Declension} (before : TakenIn rewrite outcome inline files done entries d middle) :
    Takes rewrite outcome inline files (done ++ later) ((takeEach rewrite outcome d later).run middle).1
      ((takeEach rewrite outcome d later).run middle).2 := by
  induction later generalizing done entries d middle with
  | nil =>
    rw [List.append_nil]
    exact .complete before
  | cons first later ih =>
    obtain ⟨r, index⟩ := first
    rw [takeEach_cons]
    cases answered : outcome (r, index) with
    | error failure =>
      have failed : (takeIn rewrite d r (.error failure)).run middle =
          (.error ⟨failure.fault r.word.text, some r.word.location⟩, middle) := by
        rw [← failure.diagnostic_eq]
        rfl
      rw [failed]
      exact .unanswered rfl before answered
    | ok entry =>
      obtain ⟨files', received⟩ | ⟨fault, rewrites, unwritable, failed⟩ := receives_or_unwritten rewrite middle r entry
      · rw [takeIn_ok_eq received, insertAt]
        obtain ⟨grown, inserted⟩ | ⟨refused, known⟩ := d.insert_cases entry
        · rw [inserted]
          have rest := ih (before.next answered received inserted)
          rwa [List.append_assoc] at rest
        · rw [refused]
          exact .rejected rfl before answered received known
      · rw [failed]
        exact .unwritten rfl before answered rewrites unwritable

end Dictionary

namespace LookupService

variable (service : LookupService) (timeout : Nat)

/-- What comes of asking for a word if its answer takes some time. -/
def outcomeAfter (delay : Nat) (word : String) : Except LookupFailure Declension :=
  if delay ≤ timeout then (service.answer word).result else .error (.timeout word)

/-- What comes of lookups of which each takes its time. -/
def outcomes (delays : Nat → Nat) : Outcomes :=
  fun asked => service.outcomeAfter timeout (delays asked.2) asked.1.word.text

variable {service timeout}

/-- Each lookup arrives under its index. -/
theorem exists_arrival {requests : List LookupRequest} {r : LookupRequest} {index : Nat}
    (asked : requests[index]? = some r) :
    ∃ arrival, (service.arrivals timeout requests).find? (fun arrival => arrival.index == index) = some arrival ∧
      arrival.outcome = service.outcome timeout r.word.text := by
  cases found : (service.arrivals timeout requests).find? fun arrival => arrival.index == index with
  | some arrival => exact ⟨arrival, rfl, outcome_of_arrival asked found⟩
  | none =>
    have among : (⟨index, service.outcome timeout r.word.text⟩ : Arrival) ∈ service.arrivals timeout requests := by
      refine List.mem_map.mpr ⟨(min (service.answer r.word.text).delay timeout, ⟨index, _⟩), ?_, rfl⟩
      refine List.mem_mergeSort.mpr (List.mem_iff_getElem?.mpr ⟨index, ?_⟩)
      rw [List.getElem?_mapIdx, asked]
      rfl
    have absent := List.find?_eq_none.mp found _ among
    simp at absent

end LookupService

namespace Program

variable {p : Program}

/-- What loading the declensions of a program comes to: first all that it spells out are put into the dictionary in the
order of the program, then its lookups are taken in, in that order as well. -/
inductive LoadsInOrder (p : Program) (rewrite : Bool) (outcome : Outcomes) (files : Files) :
    Except Diagnostic Dictionary → Files → Prop
  | duplicate {earlier later : List (Token × Declension)} {token : Token} {entry : Declension} {d : Dictionary}
    (split : p.inlineDeclensions = earlier ++ (token, entry) :: later) (before : Dictionary.ofInline earlier = .ok d)
    (known : d.Knows entry.nominative) :
    LoadsInOrder p rewrite outcome files
      (.error ⟨.duplicateDeclension entry.nominative, some token.location⟩) files
  | lookups {inline : Dictionary} {result : Except Diagnostic Dictionary} {files' : Files}
    (spelled : Dictionary.ofInline p.inlineDeclensions = .ok inline)
    (takes : Dictionary.Takes rewrite outcome inline files p.lookupRequests.zipIdx result files') :
    LoadsInOrder p rewrite outcome files result files'

end Program

namespace Dictionary

/-- Declensions that cannot all be put in fail at the first whose nominative is known. -/
theorem ofInline_eq_error {pairs : List (Token × Declension)} {fault : Diagnostic} (failed : ofInline pairs = .error fault) :
    ∃ earlier token entry later d, pairs = earlier ++ (token, entry) :: later ∧ ofInline earlier = .ok d ∧
      d.Knows entry.nominative ∧ fault = ⟨.duplicateDeclension entry.nominative, some token.location⟩ := by
  suffices general : ∀ earlier d, ofInline earlier = .ok d →
      pairs.foldlM (fun dictionary pair => dictionary.insertAt pair.1 pair.2) d = .error fault →
      ∃ earlier' token entry later d', earlier ++ pairs = earlier' ++ (token, entry) :: later ∧
        ofInline earlier' = .ok d' ∧ d'.Knows entry.nominative ∧
          fault = ⟨.duplicateDeclension entry.nominative, some token.location⟩ from
    general [] empty rfl failed
  clear failed
  induction pairs with
  | nil =>
    intro earlier d _ impossible
    cases impossible
  | cons pair later ih =>
    intro earlier d before failed
    obtain ⟨token, entry⟩ := pair
    rw [List.foldlM_cons] at failed
    dsimp only at failed
    obtain ⟨grown, inserted⟩ | ⟨refused, known⟩ := d.insert_cases entry
    · have put : d.insertAt token entry = .ok grown := by
        rw [insertAt, inserted]
      rw [put] at failed
      have longer : ofInline (earlier ++ [(token, entry)]) = .ok grown := by
        unfold ofInline at before ⊢
        rw [List.foldlM_append, before]
        exact (bind_pure (d.insertAt token entry)).trans put
      have found := ih (earlier ++ [(token, entry)]) grown longer failed
      rwa [List.append_assoc] at found
    · rw [insertAt, refused] at failed
      cases failed
      exact ⟨earlier, token, entry, later, d, rfl, before, known, rfl⟩

/-- Draining takes in one lookup after the other, in whatever order they arrived. -/
theorem drain_eq_takeEach {rewrite : Bool} {outcome : Outcomes} {arrivals : List Arrival}
    {asked : List (LookupRequest × Nat)}
    (arrived : ∀ entry ∈ asked, ∃ arrival, arrivals.find? (fun arrival => arrival.index == entry.2) = some arrival ∧
      arrival.outcome = outcome entry) (d : Dictionary) :
    drain rewrite arrivals d asked = takeEach rewrite outcome d asked := by
  induction asked generalizing d with
  | nil => rfl
  | cons entry later ih =>
    obtain ⟨arrival, found, same⟩ := arrived entry (List.mem_cons_self ..)
    have step : takeEach rewrite outcome d (entry :: later) =
        takeIn rewrite d entry.1 (outcome entry) >>= fun grown => takeEach rewrite outcome grown later := List.foldlM_cons
    rw [drain, found, step, ← same]
    exact bind_congr fun grown => ih (fun entry member => arrived entry (List.mem_cons_of_mem _ member)) grown

end Dictionary

namespace Program

/-- Loads the declensions of a program one after the other. -/
def loadEach (p : Program) (rewrite : Bool) (outcome : Outcomes) : Loading Dictionary := do
  let inline ← Dictionary.ofInline p.inlineDeclensions
  Dictionary.takeEach rewrite outcome inline p.lookupRequests.zipIdx

variable {p : Program} {rewrite : Bool} {outcome : Outcomes} {files : Files}

theorem loadEach_of_spelled {inline : Dictionary} (spelled : Dictionary.ofInline p.inlineDeclensions = .ok inline) :
    (p.loadEach rewrite outcome).run files =
      (Dictionary.takeEach rewrite outcome inline p.lookupRequests.zipIdx).run files := by
  unfold loadEach
  rw [spelled]
  rfl

theorem loadsInOrder_loadEach (p : Program) (rewrite : Bool) (outcome : Outcomes) (files : Files) :
    p.LoadsInOrder rewrite outcome files ((p.loadEach rewrite outcome).run files).1
      ((p.loadEach rewrite outcome).run files).2 := by
  cases spelled : Dictionary.ofInline p.inlineDeclensions with
  | error fault =>
    have failed : (p.loadEach rewrite outcome).run files = (.error fault, files) := by
      unfold loadEach
      rw [spelled]
      rfl
    obtain ⟨earlier, token, entry, later, d, split, before, known, rfl⟩ := Dictionary.ofInline_eq_error spelled
    rw [failed]
    exact .duplicate split before known
  | ok inline =>
    rw [loadEach_of_spelled spelled]
    exact .lookups spelled (Dictionary.takes_takeEach .none)

/-- A load waits for lookups that end in any order, and yet comes to the same. -/
theorem dictionary_eq_loadEach {options : LoadingOptions}
    (same : ∀ entry ∈ p.lookupRequests.zipIdx, options.service.outcome options.timeout entry.1.word.text = outcome entry) :
    p.dictionary options = p.loadEach options.rewrite outcome := by
  have arrived : ∀ entry ∈ p.lookupRequests.zipIdx, ∃ arrival,
      (options.service.arrivals options.timeout p.lookupRequests).find? (fun arrival => arrival.index == entry.2) =
        some arrival ∧ arrival.outcome = outcome entry := by
    intro entry member
    obtain ⟨arrival, found, outcome⟩ := LookupService.exists_arrival (List.mem_zipIdx_iff_getElem?.mp member)
    exact ⟨arrival, found, outcome.trans (same entry member)⟩
  exact bind_congr fun inline => Dictionary.drain_eq_takeEach arrived inline

end Program

end Satzbau

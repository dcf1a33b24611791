import Satzbau.Proofs.Respelling.Dictionaries
import Satzbau.Proofs.Respelling.Queues

namespace Satzbau

namespace LookupService

variable {service : LookupService} {timeout : Nat}

theorem result_of_outcome {word : String} {d : Declension} (answered : service.outcome timeout word = .ok d) :
    (service.answer word).result = .ok d := by
  unfold outcome at answered
  dsimp only at answered
  split at answered
  · exact answered
  · contradiction

/-- What arrives under the index of a request is the answer to it. -/
theorem outcome_of_arrival {requests : List LookupRequest} {r : LookupRequest} {index : Nat} {arrival : Arrival}
    (asked : requests[index]? = some r)
    (arrived : (service.arrivals timeout requests).find? (fun arrival => arrival.index == index) = some arrival) :
    arrival.outcome = service.outcome timeout r.word.text := by
  have atIndex := List.find?_some arrived
  obtain ⟨ended, among, rfl⟩ := List.mem_map.mp (List.mem_of_find?_eq_some arrived)
  obtain ⟨other, there⟩ := List.mem_iff_getElem?.mp (List.mem_mergeSort.mp among)
  rw [List.getElem?_mapIdx] at there
  obtain ⟨r', asked', rfl⟩ := Option.map_eq_some_iff.mp there
  obtain rfl : other = index := beq_iff_eq.mp atIndex
  rw [asked] at asked'
  cases asked'
  rfl

end LookupService

namespace Files

theorem writeDeclension_eq_ok {files files' : Files} {path : Path} {line : Nat} {d : Declension}
    (wrote : files.writeDeclension path line d = .ok files') :
    ∃ place text changed, files.resolve path = .ok place ∧ files.textAt place = .ok text ∧
      replaceLine text.toList line d.text.toList = some changed ∧ files' = files.writeAt place (String.ofList changed) := by
  unfold writeDeclension at wrote
  split at wrote
  · contradiction
  · rename_i place resolved
    split at wrote
    · contradiction
    · rename_i text read
      split at wrote
      · contradiction
      · rename_i changed replaced
        cases wrote
        exact ⟨place, text, changed, resolved, read, replaced, rfl⟩

/-- A tree into which the answers to some requests were written. -/
structure Rewritten (answers : String → Declension → Prop) (requests : List LookupRequest)
    (w : Place → Nat → Option Declension) (files files' : Files) : Prop where
  respelled : files.RespelledBy w files'
  written : ∀ r ∈ requests, ∃ place, files.resolve ⟨r.statement.file⟩ = .ok place ∧
    (w place r.statement.span.line).isSome
  asked : ∀ place number d, w place number = some d → ∃ r ∈ requests, answers r.word.text d ∧
    files.resolve ⟨r.statement.file⟩ = .ok place ∧ r.statement.span.line = number

variable {files middle files' : Files} {answers : String → Declension → Prop} {requests : List LookupRequest}
  {w : Place → Nat → Option Declension}

theorem Rewritten.refl (files : Files) : Rewritten answers [] (fun _ _ => Option.none) files files :=
  ⟨.refl files, fun _ impossible => by contradiction, fun _ _ _ impossible => by contradiction⟩

theorem Rewritten.write (noEnds : ∀ word d, answers word d → ∀ form ∈ d.forms, '\n' ∉ form.toList)
    (rewritten : Rewritten answers requests w files middle) {r : LookupRequest} {d : Declension}
    (answer : answers r.word.text d)
    (wrote : middle.writeDeclension ⟨r.statement.file⟩ r.statement.span.line d = .ok files') :
    ∃ w', Rewritten answers (requests ++ [r]) w' files files' := by
  obtain ⟨place, text, changed, resolved, read, replaced, rfl⟩ := writeDeclension_eq_ok wrote
  rw [rewritten.respelled.resolve] at resolved
  have writable : Writable (w place) := fun number entry known => by
    obtain ⟨_, _, answered, _⟩ := rewritten.asked place number entry known
    exact isContent_text (noEnds _ entry answered)
  refine ⟨_, rewritten.respelled.writeAt writable read replaced, fun other member => ?_, fun other number entry known => ?_⟩
  · obtain earlier | last := List.mem_append.mp member
    · obtain ⟨otherPlace, resolved', written⟩ := rewritten.written other earlier
      refine ⟨otherPlace, resolved', ?_⟩
      split
      · rfl
      · exact written
    · cases List.mem_singleton.mp last
      exact ⟨place, resolved, by rw [if_pos ⟨rfl, rfl⟩]; rfl⟩
  · split at known
    · rename_i here
      cases known
      obtain ⟨rfl, rfl⟩ := here
      exact ⟨r, List.mem_append_right _ (List.mem_singleton_self r), answer, resolved, rfl⟩
    · obtain ⟨asked, earlier, known⟩ := rewritten.asked other number entry known
      exact ⟨asked, List.mem_append_left _ earlier, known⟩

end Files

namespace Loading

variable {α β : Type} {files files' : Files}

/-- The first of two steps that succeed. -/
theorem bind_eq_ok {x : Loading α} {f : α → Loading β} {b : β} (run : (x >>= f).run files = (.ok b, files')) :
    ∃ a middle, x.run files = (.ok a, middle) ∧ (f a).run middle = (.ok b, files') := by
  have step : (x >>= f).run files = ExceptT.bindCont f (x.run files).1 (x.run files).2 := rfl
  rw [step] at run
  cases first : x.run files with
  | mk result middle =>
    rw [first] at run
    cases result with
    | error fault => cases run
    | ok a => exact ⟨a, middle, rfl, run⟩

theorem lift_eq_ok {x : Except Diagnostic α} {a : α} (run : (liftM x : Loading α).run files = (.ok a, files')) :
    x = .ok a ∧ files = files' := by
  have step : (liftM x : Loading α).run files = (x, files) := rfl
  rw [step] at run
  exact Prod.mk.inj run

end Loading

namespace Dictionary

variable {files files' : Files} {dictionary grown : Dictionary} {r : LookupRequest}

theorem takeIn_eq_ok {outcome : Except LookupFailure Declension}
    (run : (takeIn true dictionary r outcome).run files = (.ok grown, files')) :
    ∃ d, outcome = .ok d ∧ files.writeDeclension ⟨r.statement.file⟩ r.statement.span.line d = .ok files' ∧
      dictionary.insertAt r.word d = .ok grown := by
  cases outcome with
  | error failure => cases run
  | ok d =>
    refine ⟨d, rfl, ?_⟩
    unfold takeIn at run
    dsimp only at run
    rw [if_pos rfl] at run
    obtain ⟨_, _, got, run⟩ := Loading.bind_eq_ok run
    cases got
    obtain ⟨changed, _, wrote, run⟩ := Loading.bind_eq_ok run
    obtain ⟨written, rfl⟩ := Loading.lift_eq_ok wrote
    obtain ⟨_, _, put, run⟩ := Loading.bind_eq_ok run
    cases put
    obtain ⟨inserted, rfl⟩ := Loading.lift_eq_ok run
    exact ⟨written, inserted⟩

variable {answers : String → Declension → Prop} {arrivals : List Arrival}

/-- What requests leave behind that were answered one after the other. -/
theorem drain_eq_ok (nouns : ∀ word d, answers word d → ∀ form ∈ d.forms, Lexer.IsNoun form)
    {later : List (LookupRequest × Nat)}
    (arrived : ∀ entry ∈ later, ∀ arrival, arrivals.find? (fun arrival => arrival.index == entry.2) = some arrival →
      ∀ d, arrival.outcome = .ok d → answers entry.1.word.text d)
    {middle : Files} {done : List LookupRequest} {w : Place → Nat → Option Declension}
    (rewritten : files.Rewritten answers done w middle)
    (run : (drain true arrivals dictionary later).run middle = (.ok grown, files')) :
    ∃ w' entries, files.Rewritten answers (done ++ later.map Prod.fst) w' files' ∧
      List.Forall₂ (fun r d => answers r.word.text d) (later.map Prod.fst) entries ∧ dictionary.Gains entries grown := by
  induction later generalizing dictionary middle done w with
  | nil =>
    cases run
    exact ⟨w, [], (List.append_nil done).symm ▸ rewritten, .nil, .refl _⟩
  | cons entry others ih =>
    obtain ⟨r, index⟩ := entry
    unfold drain at run
    split at run
    · cases run
    · rename_i arrival found
      obtain ⟨next, changed, first, run⟩ := Loading.bind_eq_ok run
      obtain ⟨d, outcome, wrote, inserted⟩ := takeIn_eq_ok first
      have answer := arrived (r, index) (List.mem_cons_self ..) arrival found d outcome
      obtain ⟨w', rewritten'⟩ :=
        rewritten.write (fun word d answer form member => (nouns word d answer form member).noEnd) answer wrote
      obtain ⟨w'', entries, all, answered, gains⟩ :=
        ih (fun entry member => arrived entry (List.mem_cons_of_mem _ member)) rewritten' run
      rw [List.append_assoc] at all
      exact ⟨w'', d :: entries, all, .cons answer answered, .trans (.insertAt inserted) gains⟩

end Dictionary

namespace Program

variable {p : Program} {options : LoadingOptions} {files files' : Files} {dictionary : Dictionary}

/-- What a load leaves behind that writes answers into the program: in the tree one answer for each request, and in
the dictionary these answers beside all that the program spelled out. -/
theorem dictionary_eq_ok {answers : String → Declension → Prop}
    (answer : ∀ word d, (options.service.answer word).result = .ok d → answers word d)
    (nouns : ∀ word d, answers word d → ∀ form ∈ d.forms, Lexer.IsNoun form) (rewrites : options.rewrite = true)
    (run : (p.dictionary options).run files = (.ok dictionary, files')) :
    ∃ w entries, files.Rewritten answers p.lookupRequests w files' ∧
      List.Forall₂ (fun r d => answers r.word.text d) p.lookupRequests entries ∧
      dictionary.entries.Perm (entries ++ p.inlineDeclensions.map Prod.snd) ∧ Dictionary.Ordered dictionary.entries := by
  unfold Program.dictionary at run
  obtain ⟨inline, _, spelled, run⟩ := Loading.bind_eq_ok run
  obtain ⟨inserted, rfl⟩ := Loading.lift_eq_ok spelled
  dsimp only at run
  rw [rewrites] at run
  have arrived : ∀ entry ∈ p.lookupRequests.zipIdx, ∀ arrival,
      (options.service.arrivals options.timeout p.lookupRequests).find? (fun arrival => arrival.index == entry.2) =
        some arrival → ∀ d, arrival.outcome = .ok d → answers entry.1.word.text d := by
    rintro ⟨r, index⟩ member arrival found d outcome
    rw [LookupService.outcome_of_arrival (List.mk_mem_zipIdx_iff_getElem?.mp member) found] at outcome
    exact answer _ d (LookupService.result_of_outcome outcome)
  obtain ⟨w, entries, rewritten, answered, gains⟩ := Dictionary.drain_eq_ok nouns arrived (.refl files) run
  rw [List.nil_append] at rewritten
  rw [List.zipIdx_map_fst] at rewritten answered
  have inlined := Dictionary.Gains.foldlM inserted
  have ordered := gains.ordered (inlined.ordered .nil)
  refine ⟨w, entries, rewritten, answered, gains.perm.trans (List.Perm.append_left entries ?_), ordered⟩
  exact List.append_nil (p.inlineDeclensions.map Prod.snd) ▸ inlined.perm

/-- Nothing is asked for and no file is changed where all declensions are spelled out. -/
theorem dictionary_of_inline (nothing : p.lookupRequests = []) (spelled : Dictionary.ofInline p.inlineDeclensions = .ok dictionary)
    (options : LoadingOptions) (files : Files) : (p.dictionary options).run files = (.ok dictionary, files) := by
  unfold Program.dictionary
  rw [nothing, spelled]
  rfl

end Program

end Satzbau

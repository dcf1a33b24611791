import Satzbau.Proofs.Defining.Appended
import Satzbau.Proofs.Repeating.Cases

namespace Satzbau

namespace Checker

theorem checkBlock_append (dictionary : Dictionary) (first later : Block) :
    checkBlock dictionary (first ++ later) = (do checkBlock dictionary first; checkBlock dictionary later) := by
  induction first with
  | nil => simp only [List.nil_append, checkBlock, pure_bind]
  | cons s others ih => simp only [List.cons_append, checkBlock, ih, bind_assoc]

end Checker

variable {p : Program} {dictionary : Dictionary} {a b : Annotations}

/-- With more statements a program is checked as it was, and then its further statements are. -/
theorem Program.annotations_followedBy (checked : p.annotations dictionary = .ok a) {later : Block}
    (run : (Checker.checkBlock dictionary later).run a = (.ok (), b)) :
    (p.followedBy ⟨[], later⟩).annotations dictionary = .ok b := by
  rw [annotations_eq_ok] at checked ⊢
  have behind : (p.followedBy ⟨[], later⟩).check dictionary =
      (do p.check dictionary; Checker.checkBlock dictionary later) := by
    unfold check
    rw [definitions_followedBy, followedBy, Checker.checkBlock_append, bind_assoc]
  rw [behind, Checking.bind_run, checked]
  exact run

theorem Program.analyze_eq_ok {compiled : CompiledProgram} : p.analyze dictionary = .ok compiled ↔
    ∃ a definitions, p.annotations dictionary = .ok a ∧ Definitions.ofProgram a p = .ok definitions ∧
      definitions.verify p = .ok () ∧ compiled = ⟨p, dictionary, a, definitions⟩ := by
  constructor
  · intro analyzed
    obtain ⟨a, checked, rest⟩ := ok_of_bind analyzed
    obtain ⟨definitions, defined, rest⟩ := ok_of_bind rest
    obtain ⟨_, verified, returned⟩ := ok_of_bind rest
    cases returned
    exact ⟨a, definitions, checked, defined, verified, rfl⟩
  · rintro ⟨a, definitions, checked, defined, verified, rfl⟩
    unfold analyze
    rw [checked]
    show (Definitions.ofProgram a p >>= _) = _
    rw [defined]
    show (definitions.verify p >>= _) = _
    rw [verified]
    rfl

theorem Argument.occurrences_bare (p : NounPhrase) : (Argument.bare p).occurrences = [.phrase p] := by
  have alone : Argument.sharesPhrase p none = false := rfl
  rw [Argument.bare, Argument.occurrences, alone]
  rfl

/-- A call without values has no calls within it. -/
theorem Roles.calls_call (r : Roles) (id : NodeId) :
    Occurrence.calls (blockOccurrences [.call (r.call id)]) = [r.call id] := by
  have within : ∀ x ∈ (r.call id).arguments, Occurrence.calls x.occurrences = [] := by
    intro x member
    have bare : ∃ p, x = Argument.bare p := by
      rcases List.mem_append.mp member with inObject | inGroups
      · rw [Roles.call, ObjectRole.toList_map] at inObject
        obtain ⟨p, _, rfl⟩ := List.mem_map.mp inObject
        exact ⟨p, rfl⟩
      · obtain ⟨group, inside, inItems⟩ := List.mem_flatMap.mp inGroups
        obtain ⟨g, _, rfl⟩ := List.mem_map.mp inside
        obtain ⟨p, _, rfl⟩ := List.mem_map.mp inItems
        exact ⟨p, rfl⟩
    obtain ⟨p, rfl⟩ := bare
    rw [Argument.occurrences_bare]
    rfl
  rw [blockOccurrences, blockOccurrences, List.append_nil, Statement.occurrences, Call.occurrences_eq,
    Occurrence.calls_call, Occurrence.calls_flatMap, List.flatMap_eq_nil_iff.mpr within]

namespace Definitions

/-- Signatures are noted under the ids of the calls. -/
theorem keys_of_callSignatures {calls : List Call} {signatures : List (NodeId × String)}
    (signed : calls.mapM (callSignature a) = .ok signatures) : signatures.map Prod.fst = calls.map Call.id := by
  induction calls generalizing signatures with
  | nil =>
    cases signed
    rfl
  | cons c later ih =>
    rw [List.mapM_cons] at signed
    obtain ⟨first, here, rest⟩ := ok_of_bind signed
    obtain ⟨others, signedLater, returned⟩ := ok_of_bind rest
    obtain ⟨_, _, returnedFirst⟩ := ok_of_bind here
    cases returned
    cases returnedFirst
    rw [List.map_cons, List.map_cons, ih signedLater]

theorem ofProgram_calls {definitions : Definitions} (defined : ofProgram a p = .ok definitions) :
    definitions.calls.map Prod.fst = p.calls.map Call.id := by
  obtain ⟨_, _, rest⟩ := ok_of_bind defined
  obtain ⟨_, _, rest⟩ := ok_of_bind rest
  obtain ⟨calls, signed, returned⟩ := ok_of_bind rest
  cases returned
  exact keys_of_callSignatures signed

/-- A call behind a program whose ids are all different shares its id with no call of the program. -/
theorem id_not_mem_calls {definitions : Definitions} {c : Call} (defined : ofProgram a p = .ok definitions)
    (distinct : (idsOf (p.followedBy ⟨[], [.call c]⟩).occurrences).Nodup) : c.id ∉ definitions.calls.map Prod.fst := by
  rw [ofProgram_calls defined]
  intro before
  obtain ⟨d, inside, sameId⟩ := List.mem_map.mp before
  rw [Program.calls_eq, Occurrence.mem_calls] at inside
  rw [Program.occurrences_followedBy, idsOf_append] at distinct
  have here : c.id ∈ idsOf (blockOccurrences [.call c]) := by
    rw [blockOccurrences, Statement.occurrences, Call.occurrences_eq]
    exact List.mem_cons_self ..
  exact (List.nodup_append.mp distinct).2.2 c.id (sameId ▸ List.mem_map_of_mem inside) c.id here rfl

/-- A call that no other call shares its id with names the function of its own signature. -/
theorem function_append {definitions : Definitions} {c : Call} (new : c.id ∉ definitions.calls.map Prod.fst)
    {signature : String} {entry : Entry Callable} (known : definitions.functions.lookup signature = some entry) :
    { definitions with calls := definitions.calls ++ [(c.id, signature)] }.function c = .ok entry.target := by
  have unsigned : definitions.calls.lookup c.id = none := by
    rw [List.lookup_eq_none_iff]
    intro other member
    rw [bne_iff_ne]
    intro same
    exact new (same ▸ List.mem_map_of_mem member)
  have signed : { definitions with calls := definitions.calls ++ [(c.id, signature)] }.signature? c =
      some signature := by
    show (definitions.calls ++ [(c.id, signature)]).lookup c.id = some signature
    rw [List.lookup_append, unsigned]
    simp
  unfold Definitions.function Definitions.signature
  rw [signed]
  simp only [bind, Except.bind, known]
  rfl

end Definitions

end Satzbau

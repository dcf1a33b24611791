import Satzbau.Compilation
import Satzbau.Proofs.Defining.Growing
import Satzbau.Proofs.Occurrence
import Satzbau.Proofs.Parsing.Continued

namespace Satzbau

variable {p : Program} {later : Block}

theorem blockOccurrences_append (first later : Block) :
    blockOccurrences (first ++ later) = blockOccurrences first ++ blockOccurrences later := by
  rw [blockOccurrences_eq, blockOccurrences_eq, blockOccurrences_eq, List.flatMap_append]

theorem Program.occurrences_followedBy (p : Program) (later : Block) :
    (p.followedBy ⟨[], later⟩).occurrences = p.occurrences ++ blockOccurrences later := by
  rw [occurrences, occurrences, followedBy, List.append_nil, blockOccurrences_append, List.append_assoc]

theorem Program.calls_followedBy (p : Program) (later : Block) :
    (p.followedBy ⟨[], later⟩).calls = p.calls ++ Occurrence.calls (blockOccurrences later) := by
  rw [calls_eq, calls_eq, occurrences_followedBy, Occurrence.calls_append]

theorem Program.definitions_followedBy (p : Program) (later : Block) :
    (p.followedBy ⟨[], later⟩).definitions = p.definitions :=
  List.append_nil _

namespace Definitions

variable {a b : Annotations} {definitions : Definitions}

/-- With more statements a program defines what it defined, and has their calls as well. -/
theorem ofProgram_followedBy (kept : a.KeptIn b) (defined : ofProgram a p = .ok definitions)
    {calls : List (NodeId × String)}
    (signed : (Occurrence.calls (blockOccurrences later)).mapM (callSignature b) = .ok calls) :
    ofProgram b (p.followedBy ⟨[], later⟩) = .ok { definitions with calls := definitions.calls ++ calls } := by
  obtain ⟨classes, foldedClasses, rest⟩ := ok_of_bind defined
  obtain ⟨complete, folded, rest⟩ := ok_of_bind rest
  obtain ⟨known, signedBefore, returned⟩ := ok_of_bind rest
  cases returned
  have classes' := StaysOk.foldlM (defineIfClass_staysOk kept) _ _ classes foldedClasses
  have complete' := StaysOk.foldlM (defineUnlessClass_staysOk kept) _ _ complete folded
  have known' := StaysOk.mapM (callSignature_staysOk kept) _ known signedBefore
  have together : (p.calls ++ Occurrence.calls (blockOccurrences later)).mapM (callSignature b) =
      .ok (known ++ calls) := by
    rw [List.mapM_append, known', signed]
    rfl
  unfold ofProgram
  rw [Program.definitions_followedBy, Program.calls_followedBy, classes']
  show (List.foldlM (defineUnlessClass b) classes p.definitions.zipIdx >>= _) = _
  rw [complete']
  show (List.mapM (callSignature b) (p.calls ++ Occurrence.calls (blockOccurrences later)) >>= _) = _
  rw [together]
  rfl

/-- All calls of a program name something exactly if none of them is at fault. -/
theorem verify_eq_ok {p : Program} : definitions.verify p = .ok () ↔
    ∀ visit ∈ p.visits (fun node inherited => inherited || opensMethods node) false, ∀ c ∈ visit.2.call?,
      definitions.unresolved? visit.1 c = none := by
  unfold verify
  dsimp only
  constructor
  · intro passed visit member c isCall
    split at passed
    · contradiction
    · rename_i nothing
      have here := List.findSome?_eq_none_iff.mp nothing visit member
      obtain ⟨withMethods, node⟩ := visit
      cases node with
      | call d =>
        cases isCall
        exact here
      | definition d => contradiction
      | statement s => contradiction
      | expression e => contradiction
  · intro resolved
    split
    · rename_i fault found
      obtain ⟨⟨withMethods, node⟩, member, here⟩ := List.exists_of_findSome?_eq_some found
      cases node with
      | call d =>
        have nothing : definitions.unresolved? withMethods d = none := resolved _ member d rfl
        dsimp only at here
        rw [nothing] at here
        contradiction
      | definition d => contradiction
      | statement s => contradiction
      | expression e => contradiction
    · rfl

/-- A call that names something has a signature, and names the same when there are more signatures. -/
theorem unresolved?_append {withMethods : Bool} {c : Call} (resolved : definitions.unresolved? withMethods c = none)
    (calls : List (NodeId × String)) :
    { definitions with calls := definitions.calls ++ calls }.unresolved? withMethods c = none := by
  have signed : ∃ signature, definitions.calls.lookup c.id = some signature := by
    cases known : definitions.calls.lookup c.id with
    | some signature => exact ⟨signature, rfl⟩
    | none =>
      have unsigned : definitions.signature? c = none := known
      have noFunction : definitions.function c =
          .error (c.verb.blame (.internal s!"no signature computed for '{c.verb.text}'")) := by
        unfold Definitions.function signature
        rw [unsigned]
        rfl
      have noMethod : definitions.anyMethod? c = none := by
        rw [anyMethod?, unsigned]
        rfl
      unfold unresolved? at resolved
      rw [noFunction, noMethod] at resolved
      simp at resolved
  obtain ⟨signature, known⟩ := signed
  have same : { definitions with calls := definitions.calls ++ calls }.signature? c = definitions.signature? c := by
    show (definitions.calls ++ calls).lookup c.id = definitions.calls.lookup c.id
    rw [List.lookup_append, known]
    rfl
  rw [← resolved]
  unfold unresolved? Definitions.function Definitions.signature anyMethod?
  rw [same]
  rfl

/-- With more statements whose calls name functions all calls of a program still name something. -/
theorem verify_followedBy (verified : definitions.verify p = .ok ()) {calls : List (NodeId × String)}
    (named : ∀ c ∈ Occurrence.calls (blockOccurrences later),
      ∃ target, { definitions with calls := definitions.calls ++ calls }.function c = .ok target) :
    { definitions with calls := definitions.calls ++ calls }.verify (p.followedBy ⟨[], later⟩) = .ok () := by
  rw [verify_eq_ok] at verified ⊢
  intro visit member c isCall
  have nodes : (p.followedBy ⟨[], later⟩).nodes = p.nodes ++ Node.ofBlock later := by
    rw [Program.nodes, Program.definitions_followedBy, Program.followedBy, Node.ofBlock, List.map_append,
      Program.nodes, List.append_assoc]
    rfl
  rw [Program.visits, nodes, List.flatMap_append] at member
  obtain before | inLater := List.mem_append.mp member
  · exact unresolved?_append (verified visit before c isCall) calls
  · obtain ⟨node, inside, visited⟩ := List.mem_flatMap.mp inLater
    have among : c ∈ (Node.ofBlock later).flatMap Node.calls := by
      refine List.mem_flatMap.mpr ⟨node, inside, ?_⟩
      rw [← Node.filterMap_visits (fun node inherited => inherited || opensMethods node) false node]
      exact List.mem_filterMap.mpr ⟨visit, visited, isCall⟩
    rw [Node.calls_ofBlock] at among
    obtain ⟨target, found⟩ := named c among
    unfold unresolved?
    rw [found]

end Definitions

end Satzbau

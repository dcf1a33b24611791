import Satzbau.Definitions

namespace Satzbau

theorem ok_of_bind {ε α β : Type} {x : Except ε α} {f : α → Except ε β} {s : β} (given : (x >>= f) = .ok s) :
    ∃ r, x = .ok r ∧ f r = .ok s := by
  cases run : x with
  | error fault =>
    rw [run] at given
    contradiction
  | ok r =>
    rw [run] at given
    exact ⟨r, rfl, given⟩

theorem Table.define_eq_ok {α : Type} {t grown : Table (Entry α)} {what : Definable} {key : String} {target : α}
    {origin : Location} (defined : t.define what key target origin = .ok grown) :
    t.lookup key = none ∧ grown = t ++ [(key, ⟨target, origin⟩)] := by
  unfold Table.define at defined
  split at defined
  · contradiction
  · rename_i free
    cases defined
    exact ⟨free, rfl⟩

namespace Definitions

variable {a : Annotations} {before after : Definitions}

theorem defineFunction_eq_ok {index : Nat} {f : FunctionDefinition}
    (defined : defineFunction a before index f = .ok after) :
    ∃ signature, f.header.signature a = .ok signature ∧ before.functions.lookup signature.text = none ∧
      after.functions = before.functions ++ [(signature.text, ⟨.function index, f.header.verb.location⟩)] := by
  obtain ⟨signature, signed, rest⟩ := ok_of_bind defined
  obtain ⟨functions, added, returned⟩ := ok_of_bind rest
  obtain ⟨free, grown⟩ := Table.define_eq_ok added
  cases returned
  exact ⟨signature, signed, free, grown⟩

theorem defineImplementation_functions {index : Nat} {i : ImplementationDefinition}
    (defined : defineImplementation a before index i = .ok after) : after.functions = before.functions := by
  obtain ⟨name, _, rest⟩ := ok_of_bind defined
  split at rest
  · contradiction
  · obtain ⟨_, _, rest⟩ := ok_of_bind rest
    obtain ⟨_, _, returned⟩ := ok_of_bind rest
    cases returned
    rfl

/-- Functions come behind those that there are. -/
theorem defineUnlessClass_functions {entry : Definition × Nat} (defined : defineUnlessClass a before entry = .ok after) :
    before.functions <+: after.functions := by
  unfold defineUnlessClass at defined
  split at defined
  · obtain ⟨_, _, _, grown⟩ := defineFunction_eq_ok defined
    rw [grown]
    exact List.prefix_append _ _
  · exact ⟨[], by rw [List.append_nil, defineImplementation_functions defined]⟩
  · cases defined
    exact List.prefix_rfl
  · cases defined
    exact List.prefix_rfl

theorem foldlM_functions {entries : List (Definition × Nat)}
    (defined : entries.foldlM (defineUnlessClass a) before = .ok after) : before.functions <+: after.functions := by
  induction entries generalizing before with
  | nil =>
    cases defined
    exact List.prefix_rfl
  | cons entry later ih =>
    rw [List.foldlM_cons] at defined
    obtain ⟨middle, first, rest⟩ := ok_of_bind defined
    exact (defineUnlessClass_functions first).trans (ih rest)

/-- Every function that is defined is found by its signature. -/
theorem foldlM_lookup {entries : List (Definition × Nat)}
    (defined : entries.foldlM (defineUnlessClass a) before = .ok after) {f : FunctionDefinition} {index : Nat}
    (member : (.function f, index) ∈ entries) :
    ∃ signature, f.header.signature a = .ok signature ∧
      after.functions.lookup signature.text = some ⟨.function index, f.header.verb.location⟩ := by
  induction entries generalizing before with
  | nil => contradiction
  | cons entry later ih =>
    rw [List.foldlM_cons] at defined
    obtain ⟨middle, first, rest⟩ := ok_of_bind defined
    rcases List.mem_cons.mp member with same | inLater
    · subst same
      obtain ⟨signature, signed, free, grown⟩ := defineFunction_eq_ok first
      have here : middle.functions.lookup signature.text = some ⟨.function index, f.header.verb.location⟩ := by
        rw [grown, List.lookup_append, free]
        simp
      exact ⟨signature, signed, (foldlM_functions rest).lookup_eq_some here⟩
    · exact ih rest inLater

/-- Every function of a program is found by the signature of its header. -/
theorem ofProgram_lookup {p : Program} {definitions : Definitions} (defined : ofProgram a p = .ok definitions)
    {f : FunctionDefinition} (member : .function f ∈ p.definitions) :
    ∃ signature index, f.header.signature a = .ok signature ∧ p.definitions[index]? = some (.function f) ∧
      definitions.functions.lookup signature.text = some ⟨.function index, f.header.verb.location⟩ := by
  obtain ⟨index, found⟩ := List.mem_iff_getElem?.mp member
  obtain ⟨classes, _, rest⟩ := ok_of_bind defined
  obtain ⟨complete, folded, rest⟩ := ok_of_bind rest
  obtain ⟨calls, _, returned⟩ := ok_of_bind rest
  cases returned
  obtain ⟨signature, signed, known⟩ := foldlM_lookup folded (List.mk_mem_zipIdx_iff_getElem?.mpr found)
  exact ⟨signature, index, signed, found, known⟩

end Definitions

end Satzbau

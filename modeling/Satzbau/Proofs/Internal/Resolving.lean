import Satzbau.Proofs.Internal.Checking
import Satzbau.Proofs.Internal.Defining
import Satzbau.Proofs.Internal.Programs
import Satzbau.Proofs.Backtracking
import Satzbau.Proofs.Text

namespace Satzbau

variable {a : Annotations} {p : Program} {dictionary : Dictionary}

theorem FunctionHeader.roles_mem {d : Definition} (inProgram : d ∈ p.definitions) {f : FunctionDefinition}
    (inDefinition : f ∈ d.functions) : f.header.roles ∈ p.roles := by
  refine List.mem_append_left _ (List.mem_map_of_mem (List.mem_map_of_mem ?_))
  exact List.mem_flatMap.mpr ⟨d, inProgram, inDefinition⟩

theorem Definition.occurrence_mem {d : Definition} (inProgram : d ∈ p.definitions) {o : Occurrence}
    (inDefinition : o ∈ d.occurrences) : o ∈ p.occurrences :=
  List.mem_append_left _ (List.mem_flatMap.mpr ⟨d, inProgram, inDefinition⟩)

/-- Every call that a walk meets is a call of the program. -/
theorem Program.call_mem_of_visits {α : Type} {pass : Node → α → α} {inherited handed : α} {c : Call}
    (visited : (handed, .call c) ∈ p.visits pass inherited) : c ∈ p.calls := by
  obtain ⟨node, inside, here⟩ := List.mem_flatMap.mp visited
  have inNode : c ∈ node.calls := by
    rw [← Node.filterMap_visits pass inherited node]
    exact List.mem_filterMap.mpr ⟨_, here, rfl⟩
  obtain ⟨first, outermost, again⟩ := List.mem_filterMap.mp (Node.filterMap_visits (fun _ depth => depth + 1) 0 node ▸ inNode)
  refine List.mem_filterMap.mpr ⟨first, List.mem_flatMap.mpr ⟨node, inside, outermost⟩, ?_⟩
  obtain ⟨depth, met⟩ := first
  cases met with
  | call d => exact again
  | definition d => contradiction
  | statement s => contradiction
  | expression e => contradiction

namespace Definitions

section Defining

variable {before : Definitions} {index : Nat} (known : p.IsChecked dictionary a)

include known

theorem signature_noInternal {d : Definition} (inProgram : d ∈ p.definitions) {f : FunctionDefinition}
    (inDefinition : f ∈ d.functions) : NoInternal (f.header.signature a) :=
  Roles.signature_noInternal fun _ => (known.noted _ (FunctionHeader.roles_mem inProgram inDefinition)).annotated

theorem defineClass_noInternal {c : ClassDefinition} (inProgram : .noun c ∈ p.definitions) :
    NoInternal (defineClass a before index c) := by
  have annotated := known.annotated (Definition.occurrence_mem inProgram (List.mem_cons_self ..))
  refine annotated.typeName_noInternal.bind fun name _ => ?_
  split
  · dsimp only
    split
    · exact .bind (.throw nofun) fun _ _ => .throw nofun
    · exact .throw nofun
  · dsimp only
    split
    · exact .bind (.throw nofun) fun _ _ => .pure _
    · exact .pure _

theorem defineFunction_noInternal {f : FunctionDefinition} (inProgram : .function f ∈ p.definitions) :
    NoInternal (defineFunction a before index f) :=
  (signature_noInternal known inProgram (List.mem_singleton_self f)).bind fun _ _ =>
    .bind (Table.define_noInternal _ _ _ _ _) fun _ _ => .pure _

theorem defineMethod_noInternal {i : ImplementationDefinition} (inProgram : .implementation i ∈ p.definitions)
    {c : ClassEntry} {entry : FunctionDefinition × Nat} (member : entry ∈ i.methods.zipIdx) :
    NoInternal (defineMethod a index c entry) :=
  (signature_noInternal known inProgram (List.fst_mem_of_mem_zipIdx member)).bind fun _ _ =>
    .bind (Table.define_noInternal _ _ _ _ _) fun _ _ => .pure _

theorem defineConversion_noInternal {i : ImplementationDefinition} (inProgram : .implementation i ∈ p.definitions)
    {c : ClassEntry} {entry : ConversionDefinition × Nat} (member : entry ∈ i.conversions.zipIdx) :
    NoInternal (defineConversion a index c entry) := by
  have inDefinition : .phrase entry.1.target ∈ (Definition.implementation i).occurrences := by
    refine List.mem_cons_of_mem _ (List.mem_append_right _ ?_)
    exact List.mem_flatMap.mpr ⟨entry.1, List.fst_mem_of_mem_zipIdx member, List.mem_cons_self ..⟩
  have annotated := known.annotated (Definition.occurrence_mem inProgram inDefinition)
  exact annotated.typeName_noInternal.bind fun _ _ => .bind (Table.define_noInternal _ _ _ _ _) fun _ _ => .pure _

theorem defineImplementation_noInternal {i : ImplementationDefinition} (inProgram : .implementation i ∈ p.definitions) :
    NoInternal (defineImplementation a before index i) := by
  have annotated := known.annotated (Definition.occurrence_mem inProgram (List.mem_cons_self ..))
  refine annotated.typeName_noInternal.bind fun name _ => ?_
  split
  · exact .error nofun
  · refine .bind (.foldlM fun _ _ member => defineMethod_noInternal known inProgram member) fun _ _ => ?_
    exact .bind (.foldlM fun _ _ member => defineConversion_noInternal known inProgram member) fun _ _ => .pure _

theorem defineIfClass_noInternal {entry : Definition × Nat} (member : entry ∈ p.definitions.zipIdx) :
    NoInternal (defineIfClass a before entry) := by
  have inProgram := List.fst_mem_of_mem_zipIdx member
  unfold defineIfClass
  split
  · rename_i isClass
    exact defineClass_noInternal known (isClass ▸ inProgram)
  · exact .pure _

theorem defineUnlessClass_noInternal {entry : Definition × Nat} (member : entry ∈ p.definitions.zipIdx) :
    NoInternal (defineUnlessClass a before entry) := by
  have inProgram := List.fst_mem_of_mem_zipIdx member
  unfold defineUnlessClass
  split
  · rename_i isFunction
    exact defineFunction_noInternal known (isFunction ▸ inProgram)
  · rename_i isImplementation
    exact defineImplementation_noInternal known (isImplementation ▸ inProgram)
  · exact .pure _
  · exact .pure _

theorem callSignature_noInternal {c : Call} (inProgram : c ∈ p.calls) : NoInternal (callSignature a c) := by
  have noted := known.noted c.roles (List.mem_append_right _ (List.mem_map_of_mem inProgram))
  exact (Roles.signature_noInternal fun _ => noted.annotated).bind fun _ _ => .pure _

theorem ofProgram_noInternal : NoInternal (ofProgram a p) :=
  .bind (.foldlM fun _ _ member => defineIfClass_noInternal known member) fun _ _ =>
    .bind (.foldlM fun _ _ member => defineUnlessClass_noInternal known member) fun _ _ =>
      .bind (.mapM fun _ member => callSignature_noInternal known member) fun _ _ => .pure _

end Defining

variable {definitions : Definitions}

/-- Every call of a program has a signature. -/
theorem signature_isSome (defined : ofProgram a p = .ok definitions) {c : Call} (inProgram : c ∈ p.calls) :
    (definitions.signature? c).isSome := by
  rw [Option.isSome_iff_ne_none]
  intro unsigned
  have member : c.id ∈ definitions.calls.map Prod.fst := by
    rw [ofProgram_calls defined]
    exact List.mem_map_of_mem inProgram
  obtain ⟨entry, inside, same⟩ := List.mem_map.mp member
  have different := List.lookup_eq_none_iff.mp unsigned entry inside
  rw [← same] at different
  simp at different

theorem function_noInternal {c : Call} (signed : (definitions.signature? c).isSome) : NoInternal (definitions.function c) := by
  obtain ⟨signature, known⟩ := Option.isSome_iff_exists.mp signed
  unfold Definitions.function Definitions.signature
  rw [known]
  refine .bind (.ok _) fun _ _ => ?_
  split
  · exact .pure _
  · exact .throw nofun

theorem method_noInternal {c : Call} (signed : (definitions.signature? c).isSome) (owner : String) :
    NoInternal (definitions.method owner c) := by
  obtain ⟨signature, known⟩ := Option.isSome_iff_exists.mp signed
  unfold Definitions.method Definitions.signature
  rw [known]
  refine .bind (.ok _) fun _ _ => ?_
  split
  · exact .throw nofun
  · split
    · exact .pure _
    · exact .throw nofun

theorem type_noInternal (name : String) (phrase : NounPhrase) : NoInternal (definitions.type name phrase) := by
  unfold Definitions.type
  split
  · exact .ok _
  · exact .error nofun

theorem conversion_noInternal (owner target : String) (phrase : NounPhrase) :
    NoInternal (definitions.conversion owner target phrase) := by
  refine (type_noInternal owner phrase).bind fun entry _ => ?_
  split
  · exact .pure _
  · exact .throw nofun

theorem verify_noInternal (signed : ∀ c ∈ p.calls, (definitions.signature? c).isSome) : NoInternal (definitions.verify p) := by
  unfold verify
  dsimp only
  split
  · rename_i fault found
    obtain ⟨⟨withMethods, node⟩, visited, here⟩ := List.exists_of_findSome?_eq_some found
    cases node with
    | call c =>
      have inProgram : c ∈ p.calls := p.call_mem_of_visits visited
      dsimp only [unresolved?] at here
      split at here
      · contradiction
      · rename_i fault' failed
        split at here
        · contradiction
        · cases here
          exact .error (function_noInternal (signed c inProgram) fault failed)
    | definition d => contradiction
    | statement s => contradiction
    | expression e => contradiction
  · exact .ok ()

section Places

variable (points : definitions.Points p)

include points

theorem function_points {c : Call} {callable : Callable} (found : definitions.function c = .ok callable) :
    (callable.definition? p).isSome := by
  obtain ⟨signature, _, rest⟩ := ok_of_bind found
  split at rest
  · rename_i entry known
    cases rest
    exact points.functions _ (Table.mem_of_lookup known)
  · contradiction

theorem method_points {owner : String} {c : Call} {callable : Callable} (found : definitions.method owner c = .ok callable) :
    (callable.definition? p).isSome := by
  obtain ⟨signature, _, rest⟩ := ok_of_bind found
  split at rest
  · contradiction
  · rename_i entry known
    split at rest
    · rename_i target named
      cases rest
      exact (points.classes _ (Table.mem_of_lookup known)).methods _ (Table.mem_of_lookup named)
    · contradiction

theorem type_points {name : String} {phrase : NounPhrase} {entry : ClassEntry}
    (found : definitions.type name phrase = .ok entry) : entry.Points p := by
  unfold Definitions.type at found
  split at found
  · rename_i known
    cases found
    exact points.classes _ (Table.mem_of_lookup known)
  · contradiction

theorem conversion_points {owner target : String} {phrase : NounPhrase} {place : ConversionPlace}
    (found : definitions.conversion owner target phrase = .ok place) : (place.definition? p).isSome := by
  obtain ⟨entry, known, rest⟩ := ok_of_bind found
  split at rest
  · rename_i named
    cases rest
    exact (type_points points known).conversions _ (Table.mem_of_lookup named)
  · contradiction

end Places

end Definitions

theorem CompiledProgram.atPlace_noInternal {α : Type} (name : String) {found : Option α} (there : found.isSome) :
    NoInternal (atPlace name found) := by
  obtain ⟨x, rfl⟩ := Option.isSome_iff_exists.mp there
  exact .ok x

namespace CompiledProgram

variable {compiled : CompiledProgram}

theorem function_noInternal {c : Call} (points : compiled.definitions.Points compiled.program)
    (signed : (compiled.definitions.signature? c).isSome) : NoInternal (compiled.function c) :=
  (Definitions.function_noInternal signed).bind fun _ found => atPlace_noInternal _ (Definitions.function_points points found)

theorem method_noInternal {c : Call} {instanceOf : NounPhrase} (points : compiled.definitions.Points compiled.program)
    (signed : (compiled.definitions.signature? c).isSome) (annotated : instanceOf.IsAnnotated compiled.annotations) :
    NoInternal (compiled.method instanceOf c) :=
  annotated.typeName_noInternal.bind fun owner _ => (Definitions.method_noInternal signed owner).bind fun _ found =>
    atPlace_noInternal _ (Definitions.method_points points found)

theorem type_noInternal {phrase : NounPhrase} (points : compiled.definitions.Points compiled.program)
    (annotated : phrase.IsAnnotated compiled.annotations) : NoInternal (compiled.type phrase) :=
  annotated.typeName_noInternal.bind fun name _ => (Definitions.type_noInternal name phrase).bind fun _ found =>
    atPlace_noInternal _ (Definitions.type_points points found).noun

theorem conversion_noInternal {instanceOf target : NounPhrase} (points : compiled.definitions.Points compiled.program)
    (annotated : instanceOf.IsAnnotated compiled.annotations) (targetAnnotated : target.IsAnnotated compiled.annotations) :
    NoInternal (compiled.conversion instanceOf target) :=
  annotated.typeName_noInternal.bind fun owner _ => targetAnnotated.typeName_noInternal.bind fun name _ =>
    (Definitions.conversion_noInternal owner name target).bind fun _ found =>
      atPlace_noInternal _ (Definitions.conversion_points points found)

end CompiledProgram

theorem TokenStream.IsRead.analyze_noInternal {stream : TokenStream} (read : stream.IsRead) (parsed : stream.program = .ok p)
    (dictionary : Dictionary) : NoInternal (p.analyze dictionary) := by
  refine (p.annotations_noInternal dictionary).bind fun a checked => ?_
  have known : p.IsChecked dictionary a := ⟨⟨stream, read, parsed⟩, checked⟩
  refine (Definitions.ofProgram_noInternal known).bind fun definitions defined => ?_
  exact (Definitions.verify_noInternal fun c => Definitions.signature_isSome defined).bind fun _ _ => .pure _

/-- A class with a method and a conversion, and a call of the method that names its object by an owner
and tries two cases behind its preposition. -/
def layingMethod : String :=
  "Nomen Mensch mit der Zahl:\n.\nImplementiere den Menschen:\n  Verb lege die Zahl auf einen Menschen:\n    intern\n  .\n" ++
    "  Als Zahl:\n    intern\n  .\n.\nder Mensch:\n  lege die Zahl des Menschen auf einen Menschen\n!\n"

end Satzbau

import Satzbau.Proofs.Checking.Noted
import Satzbau.Proofs.Internal.Faults
import Satzbau.Proofs.Repeating.Calling

namespace Satzbau

variable {a : Annotations} {p : Program} {dictionary : Dictionary}

def NounPhrase.IsAnnotated (a : Annotations) (p : NounPhrase) : Prop :=
  ∃ reading, a.get? p.id = some reading

/-- The grammar check annotates every phrase. -/
theorem Program.IsChecked.annotated (known : p.IsChecked dictionary a) {phrase : NounPhrase}
    (member : .phrase phrase ∈ p.occurrences) : phrase.IsAnnotated a := by
  have agrees := Program.agrees_noted known.distinct known.checked
  obtain ⟨_, _, reading, _, noted⟩ := agrees.occurrences _ member
  exact ⟨reading, noted⟩

theorem Roles.Noted.annotated {r : Roles} (noted : r.Noted dictionary a) {phrase : NounPhrase} (member : phrase ∈ r.phrases) :
    phrase.IsAnnotated a := by
  obtain inObject | inGroups := List.mem_append.mp member
  · obtain ⟨reading, _, known⟩ := noted.object phrase inObject
    exact ⟨reading, known⟩
  · obtain ⟨g, inside, inItems⟩ := List.mem_flatMap.mp inGroups
    obtain ⟨_, _, c, _, atItems⟩ := noted.groups g inside
    obtain ⟨reading, _, known⟩ := atItems phrase inItems
    exact ⟨reading, known⟩

namespace NounPhrase.IsAnnotated

variable {phrase : NounPhrase}

theorem phrase_noInternal (annotated : phrase.IsAnnotated a) : NoInternal (a.phrase phrase) := by
  obtain ⟨reading, known⟩ := annotated
  unfold Annotations.phrase
  rw [known]
  exact .ok reading

theorem typeName_noInternal (annotated : phrase.IsAnnotated a) : NoInternal (a.typeName phrase) :=
  annotated.phrase_noInternal.bind fun _ _ => .pure _

theorem canonicalPhrase_noInternal (annotated : phrase.IsAnnotated a) : NoInternal (Signature.canonicalPhrase a phrase) := by
  refine annotated.phrase_noInternal.bind fun reading _ => ?_
  split
  · exact .pure _
  · split
    · exact .pure _
    · exact .pure _

end NounPhrase.IsAnnotated

/-- Roles whose phrases are annotated have a signature. -/
theorem Roles.signature_noInternal {r : Roles} (annotated : ∀ phrase ∈ r.phrases, phrase.IsAnnotated a) :
    NoInternal (r.signature a) := by
  obtain ⟨verb, object, groups, suffix⟩ := r
  have atObject : NoInternal (Signature.canonicalObject a object) := by
    cases object with
    | absent => exact .pure _
    | thing phrase =>
      have inObject := annotated phrase (List.mem_append_left _ (List.mem_singleton_self phrase))
      exact inObject.canonicalPhrase_noInternal.bind fun _ _ => .pure _
    | reflexive token => exact .pure _
  have atGroups : NoInternal (groups.mapM (Signature.canonicalGroup a)) := by
    refine .mapM fun g inside => .bind (.mapM fun phrase inItems => ?_) fun _ _ => .pure _
    exact (annotated phrase (List.mem_append_right _ (List.mem_flatMap.mpr ⟨g, inside, inItems⟩))).canonicalPhrase_noInternal
  exact atObject.bind fun _ _ => atGroups.bind fun _ _ => .pure _

theorem Table.define_noInternal {α : Type} (t : Table (Entry α)) (what : Definable) (key : String) (target : α)
    (origin : Location) : NoInternal (t.define what key target origin) := by
  unfold Table.define
  split
  · exact .error nofun
  · exact .ok _

/-- What is found under a key of a table is one of its targets. -/
theorem Table.mem_of_lookup {α : Type} {t : Table α} {key : String} {found : α} (known : t.lookup key = some found) :
    (key, found) ∈ t := by
  obtain ⟨_, _, cut, _⟩ := List.lookup_eq_some_iff.mp known
  rw [cut]
  simp

/-- What holds of a state and is kept by every step holds of the last state. -/
theorem holds_of_foldlM {ε α β : Type} {step : β → α → Except ε β} {holds : β → Prop} {xs : List α}
    (kept : ∀ s, ∀ x ∈ xs, ∀ t, holds s → step s x = .ok t → holds t) {s t : β} (start : holds s)
    (run : xs.foldlM step s = .ok t) : holds t := by
  induction xs generalizing s with
  | nil =>
    cases run
    exact start
  | cons x later ih =>
    rw [List.foldlM_cons] at run
    obtain ⟨middle, first, rest⟩ := ok_of_bind run
    exact ih (fun s y member => kept s y (List.mem_cons_of_mem x member)) (kept s x (List.mem_cons_self ..) middle start first) rest

/-- What the tables of a class point at is in the program. -/
structure ClassEntry.Points (p : Program) (entry : ClassEntry) : Prop where
  noun : (entry.definition? p).isSome
  methods : ∀ named ∈ entry.methods, (named.2.target.definition? p).isSome
  conversions : ∀ named ∈ entry.conversions, (named.2.target.definition? p).isSome

/-- What the tables of definitions point at is in the program. -/
structure Definitions.Points (p : Program) (definitions : Definitions) : Prop where
  functions : ∀ named ∈ definitions.functions, (named.2.target.definition? p).isSome
  classes : ∀ named ∈ definitions.classes, named.2.Points p

namespace Definitions

theorem points_empty : empty.Points p where
  functions := nofun
  classes := nofun

/-- A table whose targets are in the program gets another one. -/
theorem define_points {α β : Type} {definition? : α → Option β} {t grown : Table (Entry α)} {what : Definable}
    {key : String} {target : α} {origin : Location} (points : ∀ named ∈ t, (definition? named.2.target).isSome)
    (inside : (definition? target).isSome) (defined : t.define what key target origin = .ok grown) :
    ∀ named ∈ grown, (definition? named.2.target).isSome := by
  obtain ⟨_, rfl⟩ := Table.define_eq_ok defined
  intro named member
  obtain before | new := List.mem_append.mp member
  · exact points named before
  · rw [List.mem_singleton.mp new]
    exact inside

section Points

variable {before after : Definitions} {index : Nat}

theorem defineClass_points {c : ClassDefinition} (found : p.definitions[index]? = some (.noun c)) (points : before.Points p)
    (defined : defineClass a before index c = .ok after) : after.Points p := by
  obtain ⟨name, _, rest⟩ := ok_of_bind defined
  split at rest
  · dsimp only at rest
    split at rest
    · contradiction
    · contradiction
  · dsimp only at rest
    split at rest
    · contradiction
    · cases rest
      refine ⟨points.functions, fun named member => ?_⟩
      obtain earlier | new := List.mem_append.mp member
      · exact points.classes named earlier
      · rw [List.mem_singleton.mp new]
        refine ⟨?_, nofun, nofun⟩
        simp [ClassEntry.definition?, found]

theorem defineFunction_points {f : FunctionDefinition} (found : p.definitions[index]? = some (.function f))
    (points : before.Points p) (defined : defineFunction a before index f = .ok after) : after.Points p := by
  obtain ⟨signature, _, rest⟩ := ok_of_bind defined
  obtain ⟨functions, added, returned⟩ := ok_of_bind rest
  cases returned
  have inside : ((Callable.function index).definition? p).isSome := by simp [Callable.definition?, found]
  exact ⟨define_points points.functions inside added, points.classes⟩

theorem defineMethod_points {i : ImplementationDefinition} (found : p.definitions[index]? = some (.implementation i))
    {c d : ClassEntry} {entry : FunctionDefinition × Nat} (member : entry ∈ i.methods.zipIdx) (points : c.Points p)
    (defined : defineMethod a index c entry = .ok d) : d.Points p := by
  obtain ⟨signature, _, rest⟩ := ok_of_bind defined
  obtain ⟨methods, added, returned⟩ := ok_of_bind rest
  cases returned
  have inside : ((Callable.method index entry.2).definition? p).isSome := by
    simp [Callable.definition?, found, List.mem_zipIdx_iff_getElem?.mp member]
  exact ⟨points.noun, define_points points.methods inside added, points.conversions⟩

theorem defineConversion_points {i : ImplementationDefinition} (found : p.definitions[index]? = some (.implementation i))
    {c d : ClassEntry} {entry : ConversionDefinition × Nat} (member : entry ∈ i.conversions.zipIdx) (points : c.Points p)
    (defined : defineConversion a index c entry = .ok d) : d.Points p := by
  obtain ⟨target, _, rest⟩ := ok_of_bind defined
  obtain ⟨conversions, added, returned⟩ := ok_of_bind rest
  cases returned
  have inside : ((⟨index, entry.2⟩ : ConversionPlace).definition? p).isSome := by
    simp [ConversionPlace.definition?, found, List.mem_zipIdx_iff_getElem?.mp member]
  exact ⟨points.noun, points.methods, define_points points.conversions inside added⟩

theorem defineImplementation_points {i : ImplementationDefinition} (found : p.definitions[index]? = some (.implementation i))
    (points : before.Points p) (defined : defineImplementation a before index i = .ok after) : after.Points p := by
  obtain ⟨name, _, rest⟩ := ok_of_bind defined
  split at rest
  · contradiction
  · rename_i c known
    obtain ⟨withMethods, methods, rest⟩ := ok_of_bind rest
    obtain ⟨complete, conversions, returned⟩ := ok_of_bind rest
    cases returned
    have atClass : c.Points p := points.classes (name, c) (Table.mem_of_lookup known)
    have atMethods := holds_of_foldlM (fun _ entry member _ holds => defineMethod_points found member holds) atClass methods
    have atComplete := holds_of_foldlM (fun _ entry member _ holds => defineConversion_points found member holds) atMethods conversions
    refine ⟨points.functions, fun named member => ?_⟩
    obtain ⟨earlier, inside, rfl⟩ := List.mem_map.mp member
    split
    · exact atComplete
    · exact points.classes earlier inside

theorem defineIfClass_points {entry : Definition × Nat} (member : entry ∈ p.definitions.zipIdx) (points : before.Points p)
    (defined : defineIfClass a before entry = .ok after) : after.Points p := by
  have found := List.mem_zipIdx_iff_getElem?.mp member
  unfold defineIfClass at defined
  split at defined
  · rename_i isClass
    exact defineClass_points (isClass ▸ found) points defined
  · cases defined
    exact points

theorem defineUnlessClass_points {entry : Definition × Nat} (member : entry ∈ p.definitions.zipIdx) (points : before.Points p)
    (defined : defineUnlessClass a before entry = .ok after) : after.Points p := by
  have found := List.mem_zipIdx_iff_getElem?.mp member
  unfold defineUnlessClass at defined
  split at defined
  · rename_i isFunction
    exact defineFunction_points (isFunction ▸ found) points defined
  · rename_i isImplementation
    exact defineImplementation_points (isImplementation ▸ found) points defined
  · cases defined
    exact points
  · cases defined
    exact points

/-- No table of a program points outside of it. -/
theorem ofProgram_points {definitions : Definitions} (defined : ofProgram a p = .ok definitions) : definitions.Points p := by
  obtain ⟨classes, first, rest⟩ := ok_of_bind defined
  obtain ⟨complete, second, rest⟩ := ok_of_bind rest
  obtain ⟨calls, _, returned⟩ := ok_of_bind rest
  cases returned
  have atClasses := holds_of_foldlM (fun _ entry member _ holds => defineIfClass_points member holds) points_empty first
  have atComplete := holds_of_foldlM (fun _ entry member _ holds => defineUnlessClass_points member holds) atClasses second
  exact ⟨atComplete.functions, atComplete.classes⟩

end Points

end Definitions

end Satzbau

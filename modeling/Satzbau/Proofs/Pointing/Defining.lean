import Satzbau.Compilation
import Satzbau.Proofs.Internal.Defining
import Satzbau.Proofs.Pointing.Checking

namespace Satzbau

variable {fact : Location → Prop} {a : Annotations}

theorem NounPhrase.IsAt.phrase_yields {p : NounPhrase} (isAt : p.IsAt fact) : Yields fact (fun _ => True) (a.phrase p) := by
  unfold Annotations.phrase
  split
  · exact .ok trivial
  · exact .throw isAt.noun rfl

theorem NounPhrase.IsAt.typeName_yields {p : NounPhrase} (isAt : p.IsAt fact) :
    Yields fact (fun _ => True) (a.typeName p) :=
  isAt.phrase_yields.bind fun _ _ => .pure trivial

theorem NounPhrase.IsAt.canonicalPhrase_yields {p : NounPhrase} (isAt : p.IsAt fact) :
    Yields fact (fun _ => True) (Signature.canonicalPhrase a p) := by
  refine isAt.phrase_yields.bind fun reading _ => ?_
  split
  · exact .pure trivial
  · split
    · exact .pure trivial
    · exact .pure trivial

theorem Roles.signature_yields {r : Roles} (known : ∀ p ∈ r.phrases, p.IsAt fact) :
    Yields fact (fun _ => True) (r.signature a) := by
  obtain ⟨verb, object, groups, suffix⟩ := r
  have atObject : Yields fact (fun _ => True) (Signature.canonicalObject a object) := by
    cases object with
    | absent => exact .pure trivial
    | thing phrase =>
      have inObject := known phrase (List.mem_append_left _ (List.mem_singleton_self phrase))
      exact inObject.canonicalPhrase_yields.bind fun _ _ => .pure trivial
    | reflexive token => exact .pure trivial
  have atGroups : Yields fact (fun _ => True) (groups.mapM (Signature.canonicalGroup a)) := by
    refine .mapM fun g inside => .bind (.mapM fun phrase inItems => ?_) fun _ _ => .pure trivial
    exact (known phrase (List.mem_append_right _ (List.mem_flatMap.mpr ⟨g, inside, inItems⟩))).canonicalPhrase_yields
  exact atObject.bind fun _ _ => atGroups.bind fun _ _ => .pure trivial

theorem FunctionHeader.tokensAt_roles {h : FunctionHeader} (known : TokensAt fact h.constituents) :
    fact h.verb.location ∧ ∀ p ∈ h.roles.phrases, p.IsAt fact := by
  obtain ⟨verb, result, object, groups, suffix⟩ := h
  simp only [FunctionHeader.constituents, headerGroupConstituents, Parameter.constituents, tokensAt_append, tokensAt_token,
    tokensAt_flatMap, tokensAt_phrase] at known
  obtain ⟨_, atVerb, ⟨atObject, atGroups⟩, _⟩ := known
  refine ⟨atVerb, fun p member => ?_⟩
  rcases List.mem_append.mp member with inObject | inGroups
  · cases object with
    | thing item =>
      obtain rfl := List.mem_singleton.mp inObject
      exact (tokensAt_phrase.mp atObject).1
    | _ => contradiction
  · obtain ⟨_, mapped, inItems⟩ := List.mem_flatMap.mp inGroups
    obtain ⟨g, inside, rfl⟩ := List.mem_map.mp mapped
    obtain ⟨parameter, item, rfl⟩ := List.mem_map.mp inItems
    exact ((atGroups g inside).2 parameter item).1

theorem argumentConstituents_isAt {arguments : List Argument} (known : TokensAt fact (argumentConstituents arguments))
    {argument : Argument} (member : argument ∈ arguments) : argument.phrase.IsAt fact := by
  induction arguments with
  | nil => contradiction
  | cons first later ih =>
    rw [argumentConstituents, tokensAt_append] at known
    rcases List.mem_cons.mp member with rfl | inLater
    · exact known.1.argument.1
    · exact ih known.2 inLater

theorem groupConstituents_isAt {groups : List (PrepositionGroup Argument)}
    (known : TokensAt fact (groupConstituents groups)) {g : PrepositionGroup Argument} (member : g ∈ groups) :
    ∀ argument ∈ g.items, argument.phrase.IsAt fact := by
  induction groups with
  | nil => contradiction
  | cons first later ih =>
    rw [groupConstituents, tokensAt_token, tokensAt_append] at known
    rcases List.mem_cons.mp member with rfl | inLater
    · exact fun argument => argumentConstituents_isAt known.2.1
    · exact ih known.2.2 inLater

theorem Call.tokensAt_roles {c : Call} (known : TokensAt fact c.constituents) :
    fact c.verb.location ∧ ∀ p ∈ c.roles.phrases, p.IsAt fact := by
  obtain ⟨id, verb, object, groups, suffix⟩ := c
  rw [Call.constituents, tokensAt_call, tokensAt_token, tokensAt_append, tokensAt_append] at known
  obtain ⟨atVerb, ⟨atObject, atGroups⟩, _⟩ := known
  refine ⟨atVerb, fun p member => ?_⟩
  rcases List.mem_append.mp member with inObject | inGroups
  · cases object with
    | thing argument =>
      obtain rfl := List.mem_singleton.mp inObject
      rw [objectConstituents] at atObject
      exact atObject.argument.1
    | _ => contradiction
  · obtain ⟨_, mapped, inItems⟩ := List.mem_flatMap.mp inGroups
    obtain ⟨g, inside, rfl⟩ := List.mem_map.mp mapped
    obtain ⟨argument, item, rfl⟩ := List.mem_map.mp inItems
    exact groupConstituents_isAt atGroups inside argument item

/-- Whether the origins in a table are of some kind. -/
def Table.OriginsAt {α : Type} (fact : Location → Prop) (t : Table (Entry α)) : Prop :=
  ∀ named ∈ t, fact named.2.origin

/-- What is defined anew points at both places if its key is taken. -/
theorem Table.define_yields {α : Type} {t : Table (Entry α)} (known : t.OriginsAt fact) (what : Definable) (key : String)
    (target : α) {origin : Location} (atOrigin : fact origin) :
    Yields fact (Table.OriginsAt fact) (t.define what key target origin) := by
  unfold Table.define
  split
  · rename_i earlier taken
    refine .error ⟨fun place same => Option.some.inj same ▸ atOrigin, nofun, fun place same => ?_⟩
    cases same
    exact known _ (Table.mem_of_lookup taken)
  · refine .ok fun named member => ?_
    rcases List.mem_append.mp member with before | new
    · exact known named before
    · rw [List.mem_singleton.mp new]
      exact atOrigin

structure ClassEntry.OriginsAt (fact : Location → Prop) (entry : ClassEntry) : Prop where
  origin : fact entry.origin
  methods : entry.methods.OriginsAt fact
  conversions : entry.conversions.OriginsAt fact

/-- Whether all origins in the tables of definitions are of some kind. -/
structure Definitions.OriginsAt (fact : Location → Prop) (definitions : Definitions) : Prop where
  functions : definitions.functions.OriginsAt fact
  classes : ∀ named ∈ definitions.classes, named.2.OriginsAt fact

namespace ClassEntry.OriginsAt

variable {c : ClassEntry} (known : c.OriginsAt fact) (index : Nat)

include known

theorem defineMethod_yields {entry : FunctionDefinition × Nat} (tokens : TokensAt fact entry.1.constituents) :
    Yields fact (ClassEntry.OriginsAt fact) (Definitions.defineMethod a index c entry) := by
  obtain ⟨atVerb, phrases⟩ := FunctionHeader.tokensAt_roles (tokensAt_append.mp tokens).1
  exact (Roles.signature_yields phrases).bind fun signature _ =>
    (Table.define_yields known.methods _ _ _ atVerb).bind fun methods isAt => .pure ⟨known.origin, isAt, known.conversions⟩

theorem defineConversion_yields {entry : ConversionDefinition × Nat} (atToken : fact entry.1.token.location)
    (atTarget : entry.1.target.IsAt fact) :
    Yields fact (ClassEntry.OriginsAt fact) (Definitions.defineConversion a index c entry) :=
  atTarget.typeName_yields.bind fun _ _ => (Table.define_yields known.conversions _ _ _ atToken).bind
    fun _ isAt => .pure ⟨known.origin, known.methods, isAt⟩

end ClassEntry.OriginsAt

/-- Why a call names no function is found at its verb. -/
theorem Definitions.function_yields {definitions : Definitions} {c : Call} (atVerb : fact c.verb.location) :
    Yields fact (fun _ => True) (definitions.function c) := by
  have signed : Yields fact (fun _ => True) (definitions.signature c) := by
    unfold Definitions.signature
    split
    · exact .ok trivial
    · exact .throw atVerb rfl
  refine signed.bind fun signature _ => ?_
  split
  · exact .pure trivial
  · exact .throw atVerb rfl

namespace Definitions

variable {before : Definitions} (known : before.OriginsAt fact) (index : Nat)

include known

theorem defineClass_yields {c : ClassDefinition} (isAt : c.name.IsAt fact) :
    Yields fact (OriginsAt fact) (defineClass a before index c) := by
  have reserved (name : String) : Yields fact (fun _ : PUnit => True) (throw (c.name.noun.blame (.reservedTypeName name))) :=
    .throw isAt.noun rfl
  refine isAt.typeName_yields.bind fun name _ => ?_
  split
  · rename_i earlier taken
    have again : Yields fact (OriginsAt fact) (throw (c.name.noun.blame (.duplicateDefinition .noun name earlier.origin))) := by
      refine .error ⟨fun place same => Option.some.inj same ▸ isAt.noun, nofun, fun place same => ?_⟩
      cases same
      exact (known.classes _ (Table.mem_of_lookup taken)).origin
    dsimp only
    split
    · exact (reserved name).bind fun _ _ => again
    · exact again
  · have grown : OriginsAt fact { before with classes := before.classes ++ [(name, ⟨index, c.name.location, [], []⟩)] } := by
      refine ⟨known.functions, fun named member => ?_⟩
      rcases List.mem_append.mp member with earlier | new
      · exact known.classes named earlier
      · rw [List.mem_singleton.mp new]
        exact ⟨isAt.noun, nofun, nofun⟩
    dsimp only
    split
    · exact (reserved name).bind fun _ _ => .pure grown
    · exact .pure grown

theorem defineFunction_yields {f : FunctionDefinition} (tokens : TokensAt fact f.constituents) :
    Yields fact (OriginsAt fact) (defineFunction a before index f) := by
  obtain ⟨atVerb, phrases⟩ := FunctionHeader.tokensAt_roles (tokensAt_append.mp tokens).1
  exact (Roles.signature_yields phrases).bind fun signature _ =>
    (Table.define_yields known.functions _ _ _ atVerb).bind fun functions isAt => .pure ⟨isAt, known.classes⟩

theorem defineImplementation_yields {i : ImplementationDefinition} (tokens : TokensAt fact (Definition.implementation i).constituents) :
    Yields fact (OriginsAt fact) (defineImplementation a before index i) := by
  simp only [Definition.constituents, ConversionDefinition.constituents, tokensAt_token, tokensAt_phrase, tokensAt_append,
    tokensAt_flatMap] at tokens
  obtain ⟨_, atOwner, atMethods, atConversions⟩ := tokens
  refine atOwner.typeName_yields.bind fun name _ => ?_
  split
  · exact .throw atOwner.noun rfl
  · rename_i c found
    refine .bind (.foldlM (known.classes _ (Table.mem_of_lookup found)) fun s isAt entry member =>
      isAt.defineMethod_yields index (atMethods entry.1 (List.fst_mem_of_mem_zipIdx member))) fun withMethods isAt => ?_
    refine .bind (.foldlM isAt fun s isAt entry member => ?_) fun complete isAt => .pure ⟨known.functions, ?_⟩
    · obtain ⟨atToken, atTarget, _⟩ := atConversions entry.1 (List.fst_mem_of_mem_zipIdx member)
      exact isAt.defineConversion_yields index atToken atTarget
    · intro named member
      obtain ⟨entry, inside, rfl⟩ := List.mem_map.mp member
      split
      · exact isAt
      · exact known.classes entry inside

theorem defineIfClass_yields {entry : Definition × Nat} (tokens : TokensAt fact entry.1.constituents) :
    Yields fact (OriginsAt fact) (defineIfClass a before entry) := by
  unfold defineIfClass
  split
  · rename_i isClass
    rw [isClass, Definition.constituents, tokensAt_token, tokensAt_phrase] at tokens
    exact defineClass_yields known _ tokens.2.1
  · exact .pure known

theorem defineUnlessClass_yields {entry : Definition × Nat} (tokens : TokensAt fact entry.1.constituents) :
    Yields fact (OriginsAt fact) (defineUnlessClass a before entry) := by
  unfold defineUnlessClass
  split
  · rename_i isFunction
    rw [isFunction] at tokens
    exact defineFunction_yields known _ tokens
  · rename_i isImplementation
    rw [isImplementation] at tokens
    exact defineImplementation_yields known _ tokens
  · exact .pure known
  · exact .pure known

end Definitions

namespace Program

variable {p : Program} (known : TokensAt fact p.constituents)

include known

theorem call_tokensAt {c : Call} (inProgram : c ∈ p.calls) : TokensAt fact c.constituents := by
  obtain ⟨⟨depth, node⟩, met, same⟩ := List.mem_filterMap.mp inProgram
  cases node with
  | call d =>
    cases same
    exact tokensAt_visit known met
  | definition d => contradiction
  | statement s => contradiction
  | expression e => contradiction

theorem definitions_yields : Yields fact (Definitions.OriginsAt fact) (Definitions.ofProgram a p) := by
  have entryAt (entry : Definition × Nat) (member : entry ∈ p.definitions.zipIdx) : TokensAt fact entry.1.constituents :=
    tokensAt_definition known (List.fst_mem_of_mem_zipIdx member)
  refine .bind (.foldlM ⟨nofun, nofun⟩ fun _ isAt entry member => Definitions.defineIfClass_yields isAt (entryAt entry member))
    fun classes isAt => ?_
  refine .bind (.foldlM isAt fun _ isAt entry member => Definitions.defineUnlessClass_yields isAt (entryAt entry member))
    fun definitions isAt => ?_
  refine .bind (.mapM fun c member => ?_) fun _ _ => .pure ⟨isAt.functions, isAt.classes⟩
  exact (Roles.signature_yields (Call.tokensAt_roles (call_tokensAt known member)).2).bind fun _ _ => .pure trivial

theorem verify_yields (definitions : Definitions) : Yields fact (fun _ => True) (definitions.verify p) := by
  unfold Definitions.verify
  dsimp only
  split
  · rename_i fault found
    obtain ⟨⟨withMethods, node⟩, visited, here⟩ := List.exists_of_findSome?_eq_some found
    cases node with
    | call c =>
      have atVerb := (Call.tokensAt_roles (tokensAt_visit known visited)).1
      dsimp only [Definitions.unresolved?] at here
      split at here
      · contradiction
      · rename_i fault' failed
        split at here
        · contradiction
        · cases here
          exact .error ((Definitions.function_yields atVerb).points failed)
    | definition d => contradiction
    | statement s => contradiction
    | expression e => contradiction
  · exact .ok trivial

/-- What an analysis finds wrong is at tokens of the program, and so is what it tells of earlier definitions. -/
theorem analyze_yields (dictionary : Dictionary) : Yields fact (fun _ => True) (p.analyze dictionary) :=
  (annotations_yields known dictionary).bind fun _ _ => (definitions_yields known).bind fun definitions _ =>
    (verify_yields known definitions).bind fun _ _ => .pure trivial

end Program

end Satzbau

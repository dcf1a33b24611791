import Satzbau.Proofs.Checking.Joined
import Satzbau.Proofs.Defining.Listing
import Satzbau.Proofs.Defining.Verification

namespace Satzbau

section Annotations

variable {a b : Annotations} (same : ∀ id, a.get? id = b.get? id)

include same

theorem Annotations.phrase_eq : a.phrase = b.phrase := by
  funext p
  rw [phrase, phrase, same]

theorem Annotations.typeName_eq : a.typeName = b.typeName := by
  funext p
  rw [typeName, typeName, phrase_eq same]

theorem Signature.ofRoles_eq : ofRoles a = ofRoles b := by
  have phrases : canonicalPhrase a = canonicalPhrase b := by
    funext p
    rw [canonicalPhrase, canonicalPhrase, Annotations.phrase_eq same]
  have objects : canonicalObject a = canonicalObject b := by
    funext o
    cases o with
    | thing p => rw [canonicalObject, canonicalObject, phrases]
    | absent => rfl
    | reflexive token => rfl
  have groups : canonicalGroup a = canonicalGroup b := by
    funext g
    rw [canonicalGroup, canonicalGroup, phrases]
  funext verb object others suffix
  rw [ofRoles, ofRoles, objects, groups]

theorem FunctionDefinition.hasKey_congr {f : FunctionDefinition} {key : String} : f.HasKey a key ↔ f.HasKey b key := by
  rw [HasKey, HasKey, FunctionHeader.signature, FunctionHeader.signature, Signature.ofRoles_eq same]

theorem Call.hasKey_congr {c : Call} {key : String} : c.HasKey a key ↔ c.HasKey b key := by
  rw [HasKey, HasKey, Call.signature, Call.signature, Signature.ofRoles_eq same]

theorem Definition.defined_eq : Definition.defined a = Definition.defined b := by
  have functions : FunctionDefinition.defined a = FunctionDefinition.defined b := by
    funext table f
    rw [FunctionDefinition.defined, FunctionDefinition.defined, FunctionHeader.signature, FunctionHeader.signature,
      Signature.ofRoles_eq same]
  have conversions : ConversionDefinition.defined a = ConversionDefinition.defined b := by
    funext owner c
    rw [ConversionDefinition.defined, ConversionDefinition.defined, Annotations.typeName_eq same]
  funext d
  cases d with
  | function f => rw [defined, defined, functions]
  | noun c => rw [defined, defined, Annotations.typeName_eq same]
  | implementation i => rw [defined, defined, Annotations.typeName_eq same, functions, conversions]
  | declension d => rfl

end Annotations

/-- What comes of two searches where there are the same things, wherever they are, is the same. -/
theorem Finds.eq {ι κ α : Type} {has : ι → α → Prop} {has' : κ → α → Prop} {fault : Diagnostic}
    {result result' : Except Diagnostic α} (same : ∀ x, (∃ place, has place x) ↔ ∃ place, has' place x)
    (finds : Finds has fault result) (finds' : Finds has' fault result') : result = result' := by
  cases finds with
  | @found place x there only =>
    obtain ⟨place', there'⟩ := (same x).mp ⟨place, there⟩
    cases finds' with
    | @found _ y _ only' => rw [(only' place' x there').2]
    | missing nothing => exact absurd there' (nothing place' x)
  | missing nothing =>
    cases finds' with
    | @found place' y there' _ =>
      obtain ⟨place, there⟩ := (same y).mpr ⟨place', there'⟩
      exact absurd there (nothing place y)
    | missing _ => rfl

namespace Program

variable {p : Program} {a : Annotations}

theorem exists_hasFunction_iff {key : String} {f : FunctionDefinition} :
    (∃ place, p.HasFunction a key place f) ↔ .function f ∈ p.definitions ∧ f.HasKey a key := by
  constructor
  · rintro ⟨place, entry, member, isFunction, _, keyed⟩
    exact ⟨isFunction ▸ List.fst_mem_of_mem_zipIdx member, keyed⟩
  · rintro ⟨member, keyed⟩
    obtain ⟨index, found⟩ := List.mem_iff_getElem?.mp member
    exact ⟨_, _, List.mk_mem_zipIdx_iff_getElem?.mpr found, rfl, rfl, keyed⟩

theorem exists_hasClass_iff {name : String} {c : ClassDefinition} :
    (∃ index, p.HasClass a name index c) ↔ .noun c ∈ p.definitions ∧ a.typeName c.name = .ok name := by
  constructor
  · rintro ⟨index, entry, member, isClass, _, named⟩
    exact ⟨isClass ▸ List.fst_mem_of_mem_zipIdx member, named⟩
  · rintro ⟨member, named⟩
    obtain ⟨index, found⟩ := List.mem_iff_getElem?.mp member
    exact ⟨_, _, List.mk_mem_zipIdx_iff_getElem?.mpr found, rfl, rfl, named⟩

theorem exists_hasMethod_iff {owner key : String} {f : FunctionDefinition} : (∃ place, p.HasMethod a owner key place f) ↔
    ∃ i, .implementation i ∈ p.definitions ∧ a.typeName i.owner = .ok owner ∧ f ∈ i.methods ∧ f.HasKey a key := by
  constructor
  · rintro ⟨place, entry, member, i, position, isImplementation, _, named, found, keyed⟩
    exact ⟨i, isImplementation ▸ List.fst_mem_of_mem_zipIdx member, named, List.mem_of_getElem? found, keyed⟩
  · rintro ⟨i, member, named, inside, keyed⟩
    obtain ⟨index, found⟩ := List.mem_iff_getElem?.mp member
    obtain ⟨position, foundInside⟩ := List.mem_iff_getElem?.mp inside
    exact ⟨_, _, List.mk_mem_zipIdx_iff_getElem?.mpr found, i, position, rfl, rfl, named, foundInside, keyed⟩

end Program

/-- A program with the same definitions in some other order. -/
structure Program.Reordered (p q : Program) : Prop where
  definitions : q.definitions.Perm p.definitions
  statements : q.statements = p.statements

namespace Program.Reordered

variable {p q : Program} {dictionary : Dictionary} {a b : Annotations}

theorem symm (reordered : p.Reordered q) : q.Reordered p :=
  ⟨reordered.definitions.symm, reordered.statements.symm⟩

variable (reordered : p.Reordered q)

include reordered

theorem occurrences : q.occurrences.Perm p.occurrences := by
  rw [Program.occurrences, Program.occurrences, reordered.statements]
  exact (reordered.definitions.flatMap_right _).append_right _

theorem nodup (distinct : (idsOf p.occurrences).Nodup) : (idsOf q.occurrences).Nodup :=
  (reordered.occurrences.map _).nodup_iff.mpr distinct

theorem mem_calls {c : Call} : c ∈ q.calls ↔ c ∈ p.calls := by
  rw [q.calls_eq, p.calls_eq, Occurrence.mem_calls, Occurrence.mem_calls, reordered.occurrences.mem_iff]

theorem mem_placedCalls {placed : PlacedCall} : placed ∈ q.placedCalls ↔ placed ∈ p.placedCalls := by
  rw [Program.placedCalls, Program.placedCalls, reordered.statements, List.mem_append, List.mem_append,
    (reordered.definitions.flatMap_right _).mem_iff]

theorem agrees {J : Judgement} : q.Agrees J ↔ p.Agrees J := by
  rw [Program.Agrees, Program.Agrees, reordered.statements]
  simp only [reordered.definitions.mem_iff]

/-- The order of definitions does not matter for whether a program passes the grammar check. -/
theorem exists_annotations (distinct : (idsOf p.occurrences).Nodup) (checked : p.annotations dictionary = .ok a) :
    ∃ b, q.annotations dictionary = .ok b := by
  -- What the check annotated earlier is no use to it later, so that the annotations of the one run can
  -- be left out of what is known of the program, and the other run starts without any.
  have free := (Program.check_settles dictionary p).mono _ _ () (Judgement.noted_below_free dictionary a)
    (Program.agrees_noted distinct checked)
  have passed := (Program.check_settles dictionary q).complete (reordered.nodup distinct) .empty (fun _ _ => rfl) ()
    (reordered.agrees.mpr free)
  exact ⟨((q.check dictionary).run .empty).2, Program.annotations_eq_ok.mpr (Prod.ext passed rfl)⟩

/-- The annotation of a phrase does not depend on the order of definitions. -/
theorem get?_eq (distinct : (idsOf p.occurrences).Nodup) (checked : p.annotations dictionary = .ok a)
    (checked' : q.annotations dictionary = .ok b) (id : NodeId) : a.get? id = b.get? id := by
  have agrees := Program.agrees_noted distinct checked
  have agrees' := reordered.agrees.mp (Program.agrees_noted (reordered.nodup distinct) checked')
  by_cases inside : id ∈ phraseIds p.occurrences
  · obtain ⟨phrase, member, rfl⟩ := mem_phraseIds.mp inside
    exact agrees.get?_eq agrees' member
  · have outside : id ∉ phraseIds q.occurrences := by
      rwa [phraseIds, (reordered.occurrences.filterMap _).mem_iff]
    have none {r : Program} {c : Annotations} (known : r.annotations dictionary = .ok c)
        (outside : id ∉ phraseIds r.occurrences) : c.get? id = none := by
      refine Option.eq_none_iff_forall_ne_some.mpr fun reading noted => ?_
      exact outside (Program.mem_phraseIds_of_annotated known noted)
    rw [none checked inside, none checked' outside]

section Tables

variable (same : ∀ id, a.get? id = b.get? id)

include same

theorem hasFunction_congr {key : String} {f : FunctionDefinition} :
    (∃ place, p.HasFunction a key place f) ↔ ∃ place, q.HasFunction b key place f := by
  rw [exists_hasFunction_iff, exists_hasFunction_iff, reordered.definitions.mem_iff, FunctionDefinition.hasKey_congr same]

theorem hasClass_congr {name : String} {c : ClassDefinition} :
    (∃ index, p.HasClass a name index c) ↔ ∃ index, q.HasClass b name index c := by
  rw [exists_hasClass_iff, exists_hasClass_iff, reordered.definitions.mem_iff, Annotations.typeName_eq same]

theorem hasMethod_congr {owner key : String} {f : FunctionDefinition} :
    (∃ place, p.HasMethod a owner key place f) ↔ ∃ place, q.HasMethod b owner key place f := by
  simp only [exists_hasMethod_iff, reordered.definitions.mem_iff, FunctionDefinition.hasKey_congr same,
    Annotations.typeName_eq same]

theorem names_congr {placed : PlacedCall} : p.Names a placed ↔ q.Names b placed := by
  have functions (key : String) : (∃ place f, p.HasFunction a key place f) ↔ ∃ place f, q.HasFunction b key place f := by
    rw [exists_comm, exists_comm (p := fun place f => q.HasFunction b key place f)]
    exact exists_congr fun f => reordered.hasFunction_congr same
  have methods (key : String) : (∃ owner place f, p.HasMethod a owner key place f) ↔
      ∃ owner place f, q.HasMethod b owner key place f := by
    refine exists_congr fun owner => ?_
    rw [exists_comm, exists_comm (p := fun place f => q.HasMethod b owner key place f)]
    exact exists_congr fun f => reordered.hasMethod_congr same
  simp only [Names, Call.hasKey_congr same, functions, methods]

theorem collisionFree {all all' : List Defined} (perm : all.Perm all') (free : p.CollisionFree a all) :
    q.CollisionFree b all' where
  unreserved x member := free.unreserved x (perm.mem_iff.mpr member)
  implemented i member := by
    obtain ⟨x, inside, isClass, named⟩ := free.implemented i (reordered.definitions.mem_iff.mp member)
    exact ⟨x, perm.mem_iff.mp inside, isClass, Annotations.typeName_eq same ▸ named⟩
  distinct table := ((Defined.ofTable_perm perm table).map _).nodup (free.distinct table)

/-- Both programs put the same definitions into their tables. -/
theorem registers (agrees : p.Agrees (.noted dictionary a)) (agrees' : q.Agrees (.noted dictionary b)) :
    ∃ all all', all.Perm all' ∧
      Registers Definitions.defined (p.Admitted a all) .empty (Defined.classes all ++ Defined.members all)
        (Definitions.ofProgram a p) ∧
      Registers Definitions.defined (q.Admitted b all') .empty (Defined.classes all' ++ Defined.members all')
        (Definitions.ofProgram b q) := by
  obtain ⟨each, known, _⟩ := agrees.exists_each
  obtain ⟨calls, signed⟩ := agrees.exists_callSignatures
  obtain ⟨calls', signed'⟩ := agrees'.exists_callSignatures
  have known' : ∀ d ∈ q.definitions, d.defined b = .ok (each d) := by
    intro d member
    rw [← Definition.defined_eq same]
    exact known d (reordered.definitions.mem_iff.mp member)
  exact ⟨_, _, reordered.definitions.symm.flatMap_right each, Definitions.registers_ofProgram known signed,
    Definitions.registers_ofProgram known' signed'⟩

end Tables

end Program.Reordered

/-- What is known of a program and of the same program with its definitions in another order, where the
annotations say the same and both have their tables. -/
structure CompiledProgram.Reordered (compiled reordered : CompiledProgram) : Prop where
  program : compiled.program.Reordered reordered.program
  annotations : ∀ id, compiled.annotations.get? id = reordered.annotations.get? id
  described : compiled.definitions.Describe compiled.program compiled.annotations
  described' : reordered.definitions.Describe reordered.program reordered.annotations
  calls : compiled.definitions.calls.map Prod.fst = compiled.program.calls.map Call.id
  calls' : reordered.definitions.calls.map Prod.fst = reordered.program.calls.map Call.id

namespace CompiledProgram

variable {compiled reordered : CompiledProgram} {c : Call}

theorem signature?_eq_none {ids : List NodeId} (calls : compiled.definitions.calls.map Prod.fst = ids) (outside : c.id ∉ ids) :
    compiled.definitions.signature? c = none := by
  refine List.lookup_eq_none_iff.mpr fun entry member => bne_iff_ne.mpr fun same => outside ?_
  rw [same, ← calls]
  exact List.mem_map_of_mem member

/-- A call has the same signature in both programs, if it has one. -/
theorem Reordered.signature?_eq (same : compiled.Reordered reordered) (c : Call) :
    reordered.definitions.signature? c = compiled.definitions.signature? c := by
  by_cases inside : c.id ∈ compiled.program.calls.map Call.id
  · obtain ⟨d, member, sameId⟩ := List.mem_map.mp inside
    obtain ⟨key, keyed, known⟩ := same.described.calls d member
    obtain ⟨key', keyed', known'⟩ := same.described'.calls d (same.program.mem_calls.mpr member)
    obtain rfl := keyed.unique ((Call.hasKey_congr same.annotations).mpr keyed')
    rw [Definitions.signature?, ← sameId]
    exact known'.trans (by rw [← known, Definitions.signature?, Definitions.signature?, sameId])
  · have outside : c.id ∉ reordered.program.calls.map Call.id := by
      intro member
      obtain ⟨d, among, sameId⟩ := List.mem_map.mp member
      exact inside (List.mem_map.mpr ⟨d, same.program.mem_calls.mp among, sameId⟩)
    rw [signature?_eq_none same.calls inside, signature?_eq_none same.calls' outside]

theorem function_of_unsigned (unsigned : compiled.definitions.signature? c = none) :
    compiled.function c = .error (c.verb.blame (.internal s!"no signature computed for '{c.verb.text}'")) := by
  rw [function, Definitions.function, Definitions.signature, unsigned]
  rfl

theorem method_of_unsigned {instanceOf : NounPhrase} {owner : String}
    (named : compiled.annotations.typeName instanceOf = .ok owner) (unsigned : compiled.definitions.signature? c = none) :
    compiled.method instanceOf c = .error (c.verb.blame (.internal s!"no signature computed for '{c.verb.text}'")) := by
  rw [method, named]
  show (compiled.definitions.method owner c >>= _) = _
  rw [Definitions.method, Definitions.signature, unsigned]
  rfl

/-- A call runs the same function in both programs, or has the same fault. -/
theorem Reordered.function_eq (same : compiled.Reordered reordered) (c : Call) :
    reordered.function c = compiled.function c := by
  -- The tables hold different positions, but what is found at them is the same definition.
  have signed := same.signature?_eq c
  cases known : compiled.definitions.signature? c with
  | none => rw [function_of_unsigned known, function_of_unsigned (signed.trans known)]
  | some key =>
    refine (Finds.eq (fun f => ?_) (finds_function same.described known)
      (finds_function same.described' (signed.trans known))).symm
    exact same.program.hasFunction_congr same.annotations

/-- A call runs the same method on an instance in both programs, or has the same fault. -/
theorem Reordered.method_eq (same : compiled.Reordered reordered) (instanceOf : NounPhrase) (c : Call) :
    reordered.method instanceOf c = compiled.method instanceOf c := by
  have signed := same.signature?_eq c
  have names := Annotations.typeName_eq same.annotations
  cases named : compiled.annotations.typeName instanceOf with
  | error fault =>
    have named' := names ▸ named
    rw [method, method, named, named']
    rfl
  | ok owner =>
    have named' := names ▸ named
    cases known : compiled.definitions.signature? c with
    | none => rw [method_of_unsigned named known, method_of_unsigned named' (signed.trans known)]
    | some key =>
      have classes : (∃ index d, compiled.program.HasClass compiled.annotations owner index d) ↔
          ∃ index d, reordered.program.HasClass reordered.annotations owner index d := by
        rw [exists_comm, exists_comm (p := fun index d => reordered.program.HasClass reordered.annotations owner index d)]
        exact exists_congr fun d => same.program.hasClass_congr same.annotations
      by_cases there : ∃ index d, compiled.program.HasClass compiled.annotations owner index d
      · refine (Finds.eq (fun f => ?_) (finds_method same.described known named there)
          (finds_method same.described' (signed.trans known) named' (classes.mp there))).symm
        exact same.program.hasMethod_congr same.annotations
      · exact (method_of_undefined same.described' (signed.trans known) named' (there ∘ classes.mpr)).trans
          (method_of_undefined same.described known named there).symm

end CompiledProgram

theorem Definitions.verify_isOk_iff_names {p : Program} {a : Annotations} {definitions : Definitions}
    (described : definitions.Describe p a) : definitions.verify p = .ok () ↔ ∀ placed ∈ p.placedCalls, p.Names a placed := by
  rw [verify_isOk_iff]
  refine forall₂_congr fun placed member => ?_
  have inProgram : placed.2 ∈ p.calls := p.placedCalls_calls ▸ List.mem_map_of_mem member
  obtain ⟨key, keyed, signed⟩ := described.calls placed.2 inProgram
  constructor
  · intro resolved
    by_contra nameless
    rw [unresolved?_of_not_names described signed keyed nameless] at resolved
    contradiction
  · exact unresolved?_of_names described signed keyed

section Analyzing

variable {p q : Program} {dictionary : Dictionary}

theorem Program.Reordered.exists_analyze (reordered : p.Reordered q) (distinct : (idsOf p.occurrences).Nodup)
    (analyzed : ∃ compiled, p.analyze dictionary = .ok compiled) : ∃ compiled, q.analyze dictionary = .ok compiled := by
  obtain ⟨compiled, analyzed⟩ := analyzed
  obtain ⟨a, definitions, checked, defined, verified, _⟩ := Program.analyze_eq_ok.mp analyzed
  obtain ⟨b, checked'⟩ := reordered.exists_annotations distinct checked
  have same := reordered.get?_eq distinct checked checked'
  obtain ⟨all, all', perm, registers, registers'⟩ := reordered.registers same (agrees_noted distinct checked)
    (agrees_noted (reordered.nodup distinct) checked')
  have free := (Definitions.ofProgram_isOk_iff registers).mp ⟨definitions, defined⟩
  obtain ⟨definitions', defined'⟩ := (Definitions.ofProgram_isOk_iff registers').mpr (reordered.collisionFree same perm free)
  have described := Definitions.ofProgram_describe defined (p.nodup_callIds distinct)
  have described' := Definitions.ofProgram_describe defined' (q.nodup_callIds (reordered.nodup distinct))
  have verified' : definitions'.verify q = .ok () := by
    rw [Definitions.verify_isOk_iff_names described] at verified
    rw [Definitions.verify_isOk_iff_names described']
    intro placed member
    exact (reordered.names_congr same).mp (verified placed (reordered.mem_placedCalls.mp member))
  exact ⟨_, Program.analyze_eq_ok.mpr ⟨b, definitions', checked', defined', verified', rfl⟩⟩

/-- What was analyzed of both programs belongs together, and the signatures are the same. -/
theorem Program.Reordered.compiled (reordered : p.Reordered q) (distinct : (idsOf p.occurrences).Nodup)
    {compiled compiled' : CompiledProgram} (analyzed : p.analyze dictionary = .ok compiled)
    (analyzed' : q.analyze dictionary = .ok compiled') :
    compiled.Reordered compiled' ∧ compiled'.signatures = compiled.signatures := by
  obtain ⟨a, definitions, checked, defined, _, rfl⟩ := Program.analyze_eq_ok.mp analyzed
  obtain ⟨b, definitions', checked', defined', _, rfl⟩ := Program.analyze_eq_ok.mp analyzed'
  have same := reordered.get?_eq distinct checked checked'
  obtain ⟨all, all', perm, registers, registers'⟩ := reordered.registers same (agrees_noted distinct checked)
    (agrees_noted (reordered.nodup distinct) checked')
  rw [defined] at registers
  rw [defined'] at registers'
  constructor
  · exact {
      program := reordered
      annotations := same
      described := Definitions.ofProgram_describe defined (p.nodup_callIds distinct)
      described' := Definitions.ofProgram_describe defined' (q.nodup_callIds (reordered.nodup distinct))
      calls := Definitions.ofProgram_calls defined
      calls' := Definitions.ofProgram_calls defined' }
  · obtain ⟨grown, slots⟩ := registers.defined_perm
    obtain ⟨grown', slots'⟩ := registers'.defined_perm
    rw [CompiledProgram.signatures_eq_listing slots', CompiledProgram.signatures_eq_listing slots]
    exact Defined.listing_eq_of_perm (grown'.trans (perm.symm.trans grown.symm))

/-- The order of the definitions does not matter. With its definitions in another order a parsed program
is analyzed exactly if it is analyzed as it stands, and then it has the same signatures, every phrase has
the same annotation, and every call runs the same function, and on every instance the same method, or
has the same fault. -/
theorem TokenStream.analyze_reordered {stream : TokenStream} (parsed : stream.program = .ok p)
    {definitions : List Definition} (perm : definitions.Perm p.definitions) (dictionary : Dictionary) :
    ((∃ reordered, (⟨definitions, p.statements⟩ : Program).analyze dictionary = .ok reordered) ↔
        ∃ compiled, p.analyze dictionary = .ok compiled) ∧
      ∀ compiled reordered, p.analyze dictionary = .ok compiled →
        (⟨definitions, p.statements⟩ : Program).analyze dictionary = .ok reordered →
          reordered.signatures = compiled.signatures ∧
          (∀ phrase : NounPhrase, reordered.annotations.get? phrase.id = compiled.annotations.get? phrase.id) ∧
          (∀ c, reordered.function c = compiled.function c) ∧
          ∀ instanceOf c, reordered.method instanceOf c = compiled.method instanceOf c := by
  have distinct := stream.nodup_ids parsed
  have reordered : p.Reordered ⟨definitions, p.statements⟩ := ⟨perm, rfl⟩
  refine ⟨⟨reordered.symm.exists_analyze (reordered.nodup distinct), reordered.exists_analyze distinct⟩,
    fun compiled compiled' analyzed analyzed' => ?_⟩
  obtain ⟨same, signatures⟩ := reordered.compiled distinct analyzed analyzed'
  exact ⟨signatures, fun phrase => (same.annotations phrase.id).symm, same.function_eq, same.method_eq⟩

end Analyzing

/-- The definitions in the other direction: the class before its implementation. -/
theorem readingTwice_reordered :
    ∃ p compiled reordered, (TokenStream.ofText .none ⟨"satz"⟩ readingTwice).program = .ok p ∧
      p.definitions.reverse.Perm p.definitions ∧ p.analyze ⟨[mensch]⟩ = .ok compiled ∧
      (⟨p.definitions.reverse, p.statements⟩ : Program).analyze ⟨[mensch]⟩ = .ok reordered ∧
      compiled.signatures = ["Verb lies", "Nomen Mensch", "  Verb lies"] ∧ reordered.signatures = compiled.signatures ∧
      ∀ c ∈ p.calls, reordered.function c = compiled.function c := by
  have stream := TokenStream.ofText_eq .none ⟨"satz"⟩ readingTwice (by decide +kernel)
  have computed : ((TokenStream.ofText .none ⟨"satz"⟩ readingTwice).program.bind fun p =>
      (p.analyze ⟨[mensch]⟩).map CompiledProgram.signatures).toOption =
        some ["Verb lies", "Nomen Mensch", "  Verb lies"] := by
    rw [stream]
    decide +kernel
  obtain ⟨p, compiled, parsed, analyzed, signatures⟩ := exists_ok_of_map computed
  have perm := p.definitions.reverse_perm
  obtain ⟨passes, same⟩ := TokenStream.analyze_reordered parsed perm ⟨[mensch]⟩
  obtain ⟨reordered, analyzed'⟩ := passes.mpr ⟨compiled, analyzed⟩
  obtain ⟨sameSignatures, _, sameFunctions, _⟩ := same compiled reordered analyzed analyzed'
  exact ⟨p, compiled, reordered, parsed, perm, analyzed, analyzed', signatures, sameSignatures,
    fun c _ => sameFunctions c⟩

end Satzbau

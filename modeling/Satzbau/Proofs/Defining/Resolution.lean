import Satzbau.Proofs.Defining.Tables
import Satzbau.Proofs.Internal.Resolving

namespace Satzbau

/-- What comes of a search: the one thing that there is, or a fault where there is nothing. -/
inductive Finds {ι α : Type} (has : ι → α → Prop) (fault : Diagnostic) : Except Diagnostic α → Prop
  | found {place : ι} {x : α} (there : has place x) (only : ∀ other y, has other y → other = place ∧ y = x) :
    Finds has fault (.ok x)
  | missing (nothing : ∀ place x, ¬ has place x) : Finds has fault (.error fault)

/-- A search in a table finds what the table lists, if its places are those of the program. -/
theorem Table.Lists.finds {ι α β : Type} {view : β → ι} {t : Table β} {has : String → ι → α → Prop}
    (lists : t.Lists view fun key place => ∃ x, has key place x) {definition? : ι → Option α}
    (points : ∀ key place x, has key place x → definition? place = some x) {key : String} {fault : Diagnostic}
    {result : Except Diagnostic α}
    (atSome : ∀ y, t.lookup key = some y → ∃ name, result = CompiledProgram.atPlace name (definition? (view y)))
    (atNone : t.lookup key = none → result = .error fault) : Finds (has key) fault result := by
  cases known : t.lookup key with
  | none =>
    rw [atNone known]
    exact .missing fun place x there => lists.of_lookup_eq_none known place ⟨x, there⟩
  | some y =>
    obtain ⟨x, there⟩ := lists.of_lookup known
    obtain ⟨name, same⟩ := atSome y known
    rw [same, points key (view y) x there]
    refine .found there fun other z there' => ?_
    have place : other = view y := lists.unique ⟨z, there'⟩ ⟨x, there⟩
    subst place
    exact ⟨rfl, Option.some.inj ((points key _ z there').symm.trans (points key _ x there))⟩

namespace Program

variable {p : Program} {a : Annotations}

theorem HasFunction.definition? {key : String} {place : Callable} {f : FunctionDefinition}
    (there : p.HasFunction a key place f) : place.definition? p = some f := by
  obtain ⟨entry, member, isFunction, rfl, _⟩ := there
  have found := List.mem_zipIdx_iff_getElem?.mp member
  simp [Callable.definition?, found, isFunction]

theorem HasMethod.definition? {owner key : String} {place : Callable} {f : FunctionDefinition}
    (there : p.HasMethod a owner key place f) : place.definition? p = some f := by
  obtain ⟨entry, member, i, position, isImplementation, rfl, _, inside, _⟩ := there
  have found := List.mem_zipIdx_iff_getElem?.mp member
  simp [Callable.definition?, found, isImplementation, inside]

theorem HasConversion.definition? {owner target : String} {place : ConversionPlace} {c : ConversionDefinition}
    (there : p.HasConversion a owner target place c) : place.definition? p = some c := by
  obtain ⟨entry, member, i, position, isImplementation, rfl, _, inside, _⟩ := there
  have found := List.mem_zipIdx_iff_getElem?.mp member
  simp [ConversionPlace.definition?, found, isImplementation, inside]

/-- The class at an index among the definitions. -/
def classAt? (p : Program) (index : Nat) : Option ClassDefinition :=
  match p.definitions[index]? with
  | some (.noun c) => some c
  | _ => none

theorem HasClass.classAt? {name : String} {index : Nat} {c : ClassDefinition} (there : p.HasClass a name index c) :
    p.classAt? index = some c := by
  obtain ⟨entry, member, isClass, rfl, _⟩ := there
  have found := List.mem_zipIdx_iff_getElem?.mp member
  simp [Program.classAt?, found, isClass]

end Program

theorem Call.HasKey.unique {a : Annotations} {c : Call} {key other : String} (keyed : c.HasKey a key)
    (keyed' : c.HasKey a other) : key = other := by
  obtain ⟨signature, signed, rfl⟩ := keyed
  obtain ⟨signature', signed', rfl⟩ := keyed'
  cases signed.symm.trans signed'
  rfl

namespace Definitions

variable {definitions : Definitions} {c : Call} {key owner : String}

theorem function_of_signature (signed : definitions.signature? c = some key) : definitions.function c =
    (definitions.functions.lookup key).elim (.error (c.verb.blame (.undefinedFunction key))) fun entry =>
      .ok entry.target := by
  unfold Definitions.function Definitions.signature
  rw [signed]
  simp only [bind, Except.bind]
  cases definitions.functions.lookup key <;> rfl

theorem method_of_class (signed : definitions.signature? c = some key) {entry : ClassEntry}
    (known : definitions.classes.lookup owner = some entry) : definitions.method owner c =
      (entry.methods.lookup key).elim (.error (c.verb.blame (.undefinedMethod owner key))) fun found =>
        .ok found.target := by
  unfold Definitions.method Definitions.signature
  rw [signed]
  simp only [bind, Except.bind, known]
  cases entry.methods.lookup key <;> rfl

theorem method_of_undefined (signed : definitions.signature? c = some key)
    (nothing : definitions.classes.lookup owner = none) :
    definitions.method owner c = .error (c.verb.blame (.undefinedType owner)) := by
  unfold Definitions.method Definitions.signature
  rw [signed]
  simp only [bind, Except.bind, nothing]
  rfl

theorem conversion_of_class {entry : ClassEntry} (known : definitions.classes.lookup owner = some entry)
    (name : String) (target : NounPhrase) : definitions.conversion owner name target =
      (entry.conversions.lookup name).elim (.error (target.noun.blame (.undefinedConversion owner name))) fun found =>
        .ok found.target := by
  unfold Definitions.conversion Definitions.type
  rw [known]
  simp only [bind, Except.bind]
  cases entry.conversions.lookup name <;> rfl

end Definitions

theorem Definitions.Describe.lookup_eq_none {p : Program} {a : Annotations} {definitions : Definitions} {name : String}
    (described : definitions.Describe p a) (nothing : ¬ ∃ index c, p.HasClass a name index c) :
    definitions.classes.lookup name = none := by
  cases known : definitions.classes.lookup name with
  | none => rfl
  | some entry =>
    obtain ⟨c, isClass⟩ := described.classes.of_lookup known
    exact absurd ⟨entry.definition, c, isClass⟩ nothing

theorem Program.nodup_callIds {p : Program} (distinct : (idsOf p.occurrences).Nodup) : (p.calls.map Call.id).Nodup := by
  rw [p.calls_eq]
  exact distinct.sublist (callIds_sublist p.occurrences)

namespace CompiledProgram

/-- What calls and phrases of a program stand for: the one definition of the program that has the
signature or the type name in question, wherever it stands. -/
structure Resolves (compiled : CompiledProgram) : Prop where
  named : ∀ phrase, .phrase phrase ∈ compiled.program.occurrences → ∃ name, compiled.annotations.typeName phrase = .ok name
  signed : ∀ c ∈ compiled.program.calls, ∃ key, c.HasKey compiled.annotations key
  function : ∀ c ∈ compiled.program.calls, ∀ key, c.HasKey compiled.annotations key →
    Finds (compiled.program.HasFunction compiled.annotations key) (c.verb.blame (.undefinedFunction key))
      (compiled.function c)
  method : ∀ c ∈ compiled.program.calls, ∀ key, c.HasKey compiled.annotations key →
    ∀ instanceOf owner, compiled.annotations.typeName instanceOf = .ok owner →
      ((∃ index d, compiled.program.HasClass compiled.annotations owner index d) →
        Finds (compiled.program.HasMethod compiled.annotations owner key) (c.verb.blame (.undefinedMethod owner key))
          (compiled.method instanceOf c)) ∧
      ((¬ ∃ index d, compiled.program.HasClass compiled.annotations owner index d) →
        compiled.method instanceOf c = .error (c.verb.blame (.undefinedType owner)))
  type : ∀ phrase name, compiled.annotations.typeName phrase = .ok name →
    Finds (compiled.program.HasClass compiled.annotations name) (phrase.noun.blame (.undefinedType name))
      (compiled.type phrase)
  conversion : ∀ instanceOf owner, compiled.annotations.typeName instanceOf = .ok owner →
    ∀ target name, compiled.annotations.typeName target = .ok name →
      ((∃ index d, compiled.program.HasClass compiled.annotations owner index d) →
        Finds (compiled.program.HasConversion compiled.annotations owner name)
          (target.noun.blame (.undefinedConversion owner name)) (compiled.conversion instanceOf target)) ∧
      ((¬ ∃ index d, compiled.program.HasClass compiled.annotations owner index d) →
        compiled.conversion instanceOf target = .error (target.noun.blame (.undefinedType owner)))

variable {p : Program} {dictionary : Dictionary} {a : Annotations} {definitions : Definitions}

theorem method_of_named {instanceOf : NounPhrase} {owner : String} (named : a.typeName instanceOf = .ok owner) (c : Call) :
    method ⟨p, dictionary, a, definitions⟩ instanceOf c =
      (definitions.method owner c).bind fun place => atPlace c.verb.text (place.definition? p) := by
  rw [method, named]
  rfl

theorem type_of_named {phrase : NounPhrase} {name : String} (named : a.typeName phrase = .ok name) :
    type ⟨p, dictionary, a, definitions⟩ phrase =
      (definitions.type name phrase).bind fun entry => atPlace name (entry.definition? p) := by
  rw [type, named]
  rfl

theorem conversion_of_named {instanceOf target : NounPhrase} {owner name : String}
    (named : a.typeName instanceOf = .ok owner) (targetNamed : a.typeName target = .ok name) :
    conversion ⟨p, dictionary, a, definitions⟩ instanceOf target =
      (definitions.conversion owner name target).bind fun place => atPlace name (place.definition? p) := by
  rw [conversion, named]
  show (a.typeName target).bind _ = _
  rw [targetNamed]
  rfl

theorem finds_function (described : definitions.Describe p a) {c : Call} {key : String}
    (signed : definitions.signature? c = some key) :
    Finds (p.HasFunction a key) (c.verb.blame (.undefinedFunction key))
      (function ⟨p, dictionary, a, definitions⟩ c) := by
  refine described.functions.finds (fun _ _ _ there => there.definition?) (fun entry known => ?_) fun nothing => ?_
  · refine ⟨c.verb.text, ?_⟩
    rw [function, Definitions.function_of_signature signed, known]
    rfl
  · rw [function, Definitions.function_of_signature signed, nothing]
    rfl

theorem finds_class (described : definitions.Describe p a) {phrase : NounPhrase} {name : String}
    (named : a.typeName phrase = .ok name) :
    Finds (p.HasClass a name) (phrase.noun.blame (.undefinedType name)) (type ⟨p, dictionary, a, definitions⟩ phrase) := by
  refine described.classes.finds (fun _ _ _ there => there.classAt?) (fun entry known => ?_) fun nothing => ?_
  · refine ⟨name, ?_⟩
    rw [type_of_named named, Definitions.type, known]
    rfl
  · rw [type_of_named named, Definitions.type, nothing]
    rfl

theorem finds_method (described : definitions.Describe p a) {c : Call} {key : String}
    (signed : definitions.signature? c = some key) {instanceOf : NounPhrase} {owner : String}
    (named : a.typeName instanceOf = .ok owner) (there : ∃ index d, p.HasClass a owner index d) :
    Finds (p.HasMethod a owner key) (c.verb.blame (.undefinedMethod owner key))
      (method ⟨p, dictionary, a, definitions⟩ instanceOf c) := by
  obtain ⟨index, d, isClass⟩ := there
  obtain ⟨entry, known, _⟩ := described.classes.lookup_eq_some ⟨d, isClass⟩
  have lists := described.methods owner
  rw [Definitions.membersOf, known, Option.elim_some] at lists
  refine lists.finds (fun _ _ _ there => there.definition?) (fun found inside => ?_) fun nothing => ?_
  · refine ⟨c.verb.text, ?_⟩
    rw [method_of_named named, Definitions.method_of_class signed known, inside]
    rfl
  · rw [method_of_named named, Definitions.method_of_class signed known, nothing]
    rfl

theorem method_of_undefined (described : definitions.Describe p a) {c : Call} {key : String}
    (signed : definitions.signature? c = some key) {instanceOf : NounPhrase} {owner : String}
    (named : a.typeName instanceOf = .ok owner) (nothing : ¬ ∃ index d, p.HasClass a owner index d) :
    method ⟨p, dictionary, a, definitions⟩ instanceOf c = .error (c.verb.blame (.undefinedType owner)) := by
  rw [method_of_named named, Definitions.method_of_undefined signed (described.lookup_eq_none nothing)]
  rfl

theorem finds_conversion (described : definitions.Describe p a) {instanceOf target : NounPhrase} {owner name : String}
    (named : a.typeName instanceOf = .ok owner) (targetNamed : a.typeName target = .ok name)
    (there : ∃ index d, p.HasClass a owner index d) :
    Finds (p.HasConversion a owner name) (target.noun.blame (.undefinedConversion owner name))
      (conversion ⟨p, dictionary, a, definitions⟩ instanceOf target) := by
  obtain ⟨index, d, isClass⟩ := there
  obtain ⟨entry, known, _⟩ := described.classes.lookup_eq_some ⟨d, isClass⟩
  have lists := described.conversions owner
  rw [Definitions.membersOf, known, Option.elim_some] at lists
  refine lists.finds (fun _ _ _ there => there.definition?) (fun found inside => ?_) fun nothing => ?_
  · refine ⟨name, ?_⟩
    rw [conversion_of_named named targetNamed, Definitions.conversion_of_class known, inside]
    rfl
  · rw [conversion_of_named named targetNamed, Definitions.conversion_of_class known, nothing]
    rfl

theorem conversion_of_undefined (described : definitions.Describe p a) {instanceOf target : NounPhrase}
    {owner name : String} (named : a.typeName instanceOf = .ok owner) (targetNamed : a.typeName target = .ok name)
    (nothing : ¬ ∃ index d, p.HasClass a owner index d) :
    conversion ⟨p, dictionary, a, definitions⟩ instanceOf target =
      .error (target.noun.blame (.undefinedType owner)) := by
  rw [conversion_of_named named targetNamed, Definitions.conversion, Definitions.type, described.lookup_eq_none nothing]
  rfl

end CompiledProgram

/-- Whatever a program that was analyzed says that a call or a phrase stands for is the only definition
that has its signature or its type name, and it says so of each that there is. -/
theorem TokenStream.analyzed_resolves {stream : TokenStream} {p : Program} (parsed : stream.program = .ok p)
    {dictionary : Dictionary} {compiled : CompiledProgram} (analyzed : p.analyze dictionary = .ok compiled) :
    compiled.program = p ∧ compiled.Resolves := by
  obtain ⟨a, definitions, checked, defined, _, rfl⟩ := Program.analyze_eq_ok.mp analyzed
  have distinct := stream.nodup_ids parsed
  have described := Definitions.ofProgram_describe defined (p.nodup_callIds distinct)
  have annotated : ∀ phrase, .phrase phrase ∈ p.occurrences → ∃ reading, a.get? phrase.id = some reading := by
    intro phrase member
    obtain ⟨_, _, reading, _, noted⟩ := (Program.agrees_noted distinct checked).occurrences _ member
    exact ⟨reading, noted⟩
  have signed : ∀ c ∈ p.calls, ∀ key, c.HasKey a key → definitions.signature? c = some key := by
    intro c member key keyed
    obtain ⟨other, keyed', known⟩ := described.calls c member
    rw [known, keyed.unique keyed']
  refine ⟨rfl, {
    named := fun phrase member => ?_
    signed := fun c member => ?_
    function := fun c member key keyed => CompiledProgram.finds_function described (signed c member key keyed)
    method := fun c member key keyed instanceOf owner named =>
      ⟨CompiledProgram.finds_method described (signed c member key keyed) named,
        CompiledProgram.method_of_undefined described (signed c member key keyed) named⟩
    type := fun phrase name named => CompiledProgram.finds_class described named
    conversion := fun instanceOf owner named target name targetNamed =>
      ⟨CompiledProgram.finds_conversion described named targetNamed,
        CompiledProgram.conversion_of_undefined described named targetNamed⟩ }⟩
  · obtain ⟨reading, known⟩ := annotated phrase member
    refine ⟨reading.nominative.getD phrase.word, ?_⟩
    unfold Annotations.typeName Annotations.phrase
    rw [known]
    rfl
  · obtain ⟨key, keyed, _⟩ := described.calls c member
    exact ⟨key, keyed⟩

/-- A function and a method that have one signature, the method before its class, and a call. -/
def readingTwice : String :=
  "Implementiere den Menschen:\n  Verb lies:\n    intern\n  .\n.\nNomen Mensch:\n.\n" ++
    "Verb lies:\n  intern\n.\nlies\n"

theorem readingTwice_resolves :
    ∃ p compiled, (TokenStream.ofText .none ⟨"satz"⟩ readingTwice).program = .ok p ∧
      p.analyze ⟨[mensch]⟩ = .ok compiled ∧ compiled.definitions.calls.map Prod.snd = ["lies"] ∧
      compiled.program = p ∧ compiled.Resolves := by
  have stream := TokenStream.ofText_eq .none ⟨"satz"⟩ readingTwice (by decide +kernel)
  have computed : ((TokenStream.ofText .none ⟨"satz"⟩ readingTwice).program.bind fun p =>
      (p.analyze ⟨[mensch]⟩).map fun compiled => compiled.definitions.calls.map Prod.snd).toOption =
        some ["lies"] := by
    rw [stream]
    decide +kernel
  obtain ⟨p, compiled, parsed, analyzed, viewed⟩ := exists_ok_of_map computed
  exact ⟨p, compiled, parsed, analyzed, viewed, TokenStream.analyzed_resolves parsed analyzed⟩

end Satzbau

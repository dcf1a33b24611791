import Satzbau.Proofs.Defining.Listed
import Satzbau.Proofs.Internal.Defining

namespace Satzbau

/-- A function is found by the text of its signature. -/
def FunctionDefinition.HasKey (a : Annotations) (key : String) (f : FunctionDefinition) : Prop :=
  ∃ signature, f.header.signature a = .ok signature ∧ signature.text = key

/-- A call names what it calls by the text of its signature. -/
def Call.HasKey (a : Annotations) (key : String) (c : Call) : Prop :=
  ∃ signature, c.signature a = .ok signature ∧ signature.text = key

theorem FunctionDefinition.hasKey_iff {a : Annotations} {f : FunctionDefinition} {signature : Signature} {key : String}
    (signed : f.header.signature a = .ok signature) : f.HasKey a key ↔ key = signature.text := by
  constructor
  · rintro ⟨other, signed', rfl⟩
    rw [signed] at signed'
    cases signed'
    rfl
  · rintro rfl
    exact ⟨signature, signed, rfl⟩

/-- A definition, with its index, is a function. -/
def IsFunction (a : Annotations) (key : String) (place : Callable) (f : FunctionDefinition)
    (entry : Definition × Nat) : Prop :=
  entry.1 = .function f ∧ place = .function entry.2 ∧ f.HasKey a key

/-- A definition, with its index, is the class with some name. -/
def IsClass (a : Annotations) (name : String) (index : Nat) (c : ClassDefinition) (entry : Definition × Nat) : Prop :=
  entry.1 = .noun c ∧ index = entry.2 ∧ a.typeName c.name = .ok name

/-- A definition, with its index, implements some class, and one of its methods has some key. -/
def ImplementsMethod (a : Annotations) (owner key : String) (place : Callable) (f : FunctionDefinition)
    (entry : Definition × Nat) : Prop :=
  ∃ i position, entry.1 = .implementation i ∧ place = .method entry.2 position ∧ a.typeName i.owner = .ok owner ∧
    i.methods[position]? = some f ∧ f.HasKey a key

/-- A definition, with its index, implements some class, and one of its conversions has some target. -/
def ImplementsConversion (a : Annotations) (owner target : String) (place : ConversionPlace) (c : ConversionDefinition)
    (entry : Definition × Nat) : Prop :=
  ∃ i position, entry.1 = .implementation i ∧ place = ⟨entry.2, position⟩ ∧ a.typeName i.owner = .ok owner ∧
    i.conversions[position]? = some c ∧ a.typeName c.target = .ok target

namespace Program

/-- What a program has, each with the place where it stands. -/
def HasFunction (p : Program) (a : Annotations) (key : String) (place : Callable) (f : FunctionDefinition) : Prop :=
  ∃ entry ∈ p.definitions.zipIdx, IsFunction a key place f entry

def HasClass (p : Program) (a : Annotations) (name : String) (index : Nat) (c : ClassDefinition) : Prop :=
  ∃ entry ∈ p.definitions.zipIdx, IsClass a name index c entry

def HasMethod (p : Program) (a : Annotations) (owner key : String) (place : Callable) (f : FunctionDefinition) : Prop :=
  ∃ entry ∈ p.definitions.zipIdx, ImplementsMethod a owner key place f entry

def HasConversion (p : Program) (a : Annotations) (owner target : String) (place : ConversionPlace)
    (c : ConversionDefinition) : Prop :=
  ∃ entry ∈ p.definitions.zipIdx, ImplementsConversion a owner target place c entry

end Program

namespace Definitions

variable {a : Annotations} {before after : Definitions} {index : Nat}

/-- Members of the class with some name, if there is one. -/
def membersOf {β : Type} (members : ClassEntry → Table β) (definitions : Definitions) (owner : String) : Table β :=
  (definitions.classes.lookup owner).elim [] members

theorem defineMethod_eq_ok {c d : ClassEntry} {entry : FunctionDefinition × Nat}
    (defined : defineMethod a index c entry = .ok d) :
    ∃ signature methods, entry.1.header.signature a = .ok signature ∧
      c.methods.define .method signature.text (.method index entry.2) entry.1.header.verb.location = .ok methods ∧
      d = { c with methods := methods } := by
  obtain ⟨signature, signed, rest⟩ := ok_of_bind defined
  obtain ⟨methods, added, returned⟩ := ok_of_bind rest
  cases returned
  exact ⟨signature, methods, signed, added, rfl⟩

theorem defineConversion_eq_ok {c d : ClassEntry} {entry : ConversionDefinition × Nat}
    (defined : defineConversion a index c entry = .ok d) :
    ∃ target conversions, a.typeName entry.1.target = .ok target ∧
      c.conversions.define .conversion target ⟨index, entry.2⟩ entry.1.token.location = .ok conversions ∧
      d = { c with conversions := conversions } := by
  obtain ⟨target, named, rest⟩ := ok_of_bind defined
  obtain ⟨conversions, added, returned⟩ := ok_of_bind rest
  cases returned
  exact ⟨target, conversions, named, added, rfl⟩

/-- What an implementation does: the class that it names gets its methods and then its conversions. -/
theorem defineImplementation_eq_ok {i : ImplementationDefinition}
    (defined : defineImplementation a before index i = .ok after) :
    ∃ name c withMethods complete, a.typeName i.owner = .ok name ∧ before.classes.lookup name = some c ∧
      i.methods.zipIdx.foldlM (defineMethod a index) c = .ok withMethods ∧
      i.conversions.zipIdx.foldlM (defineConversion a index) withMethods = .ok complete ∧
      after = { before with
        classes := before.classes.map fun entry => if entry.1 = name then (name, complete) else entry } := by
  obtain ⟨name, named, rest⟩ := ok_of_bind defined
  split at rest
  · contradiction
  · rename_i c known
    obtain ⟨withMethods, methods, rest⟩ := ok_of_bind rest
    obtain ⟨complete, conversions, returned⟩ := ok_of_bind rest
    cases returned
    exact ⟨name, c, withMethods, complete, named, known, methods, conversions, rfl⟩

theorem defineClass_eq_ok {c : ClassDefinition} (defined : defineClass a before index c = .ok after) :
    ∃ name, a.typeName c.name = .ok name ∧ before.classes.lookup name = none ∧
      after = { before with classes := before.classes ++ [(name, ⟨index, c.name.location, [], []⟩)] } := by
  obtain ⟨name, named, rest⟩ := ok_of_bind defined
  split at rest
  · dsimp only at rest
    split at rest
    · contradiction
    · contradiction
  · rename_i free
    dsimp only at rest
    split at rest
    · contradiction
    · cases rest
      exact ⟨name, named, free, rfl⟩

section Steps

variable {β : Type} {entry : Definition × Nat}

/-- A definition that comes to the tables is a class, or it is no class and changes nothing. -/
theorem defineIfClass_eq_ok (defined : defineIfClass a before entry = .ok after) :
    (∃ c, entry.1 = .noun c ∧ defineClass a before entry.2 c = .ok after) ∨ (∀ c, entry.1 ≠ .noun c) ∧ after = before := by
  unfold defineIfClass at defined
  split at defined
  · rename_i c isClass
    exact .inl ⟨c, isClass, defined⟩
  · rename_i other
    cases defined
    exact .inr ⟨other, rfl⟩

/-- A definition that comes to the tables is a function or an implementation, or it is neither and
changes nothing. -/
theorem defineUnlessClass_eq_ok (defined : defineUnlessClass a before entry = .ok after) :
    (∃ f, entry.1 = .function f ∧ defineFunction a before entry.2 f = .ok after) ∨
      (∃ i, entry.1 = .implementation i ∧ defineImplementation a before entry.2 i = .ok after) ∨
        ((∀ f, entry.1 ≠ .function f) ∧ ∀ i, entry.1 ≠ .implementation i) ∧ after = before := by
  unfold defineUnlessClass at defined
  split at defined
  · rename_i f isFunction
    exact .inl ⟨f, isFunction, defined⟩
  · rename_i i isImplementation
    exact .inr (.inl ⟨i, isImplementation, defined⟩)
  · rename_i c isClass
    cases defined
    exact .inr (.inr ⟨by simp [isClass], rfl⟩)
  · rename_i d isDeclension
    cases defined
    exact .inr (.inr ⟨by simp [isDeclension], rfl⟩)

theorem defineIfClass_classes {has : String → Nat → Prop} (defined : defineIfClass a before entry = .ok after)
    (lists : before.classes.Lists ClassEntry.definition has) :
    after.classes.Lists ClassEntry.definition fun name place => has name place ∨ ∃ c, IsClass a name place c entry := by
  obtain ⟨c, isClass, defined⟩ | ⟨other, rfl⟩ := defineIfClass_eq_ok defined
  · obtain ⟨name, named, free, rfl⟩ := defineClass_eq_ok defined
    refine (lists.append free _).congr fun key place => or_congr_right ?_
    simp [IsClass, isClass, named, eq_comm, and_comm]
  · exact lists.unchanged fun name place ⟨c, isClass, _⟩ => other c isClass

theorem defineIfClass_distinct (defined : defineIfClass a before entry = .ok after)
    (distinct : (before.classes.map Prod.fst).Nodup) : (after.classes.map Prod.fst).Nodup := by
  obtain ⟨c, _, defined⟩ | ⟨_, rfl⟩ := defineIfClass_eq_ok defined
  · obtain ⟨name, _, free, rfl⟩ := defineClass_eq_ok defined
    rw [List.map_append, List.nodup_append]
    refine ⟨distinct, by simp, fun key member other new => ?_⟩
    rw [List.mem_singleton.mp new]
    rintro rfl
    exact Table.not_mem_keys free member
  · exact distinct

theorem defineUnlessClass_functions_lists {has : String → Callable → Prop}
    (defined : defineUnlessClass a before entry = .ok after) (lists : before.functions.Lists Entry.target has) :
    after.functions.Lists Entry.target fun key place => has key place ∨ ∃ f, IsFunction a key place f entry := by
  obtain ⟨f, isFunction, defined⟩ | ⟨i, isImplementation, defined⟩ | ⟨other, rfl⟩ := defineUnlessClass_eq_ok defined
  · obtain ⟨signature, signed, free, grown⟩ := defineFunction_eq_ok defined
    rw [grown]
    refine (lists.append free _).congr fun key place => or_congr_right ?_
    simp [IsFunction, isFunction, FunctionDefinition.hasKey_iff signed, and_comm]
  · rw [defineImplementation_functions defined]
    refine lists.unchanged fun key place ⟨f, isFunction, _⟩ => ?_
    rw [isImplementation] at isFunction
    contradiction
  · exact lists.unchanged fun key place ⟨f, isFunction, _⟩ => other.1 f isFunction

end Steps

section Members

variable {c d : ClassEntry} {name : String}

theorem foldlM_defineMethod {has : String → Callable → Prop} {entries : List (FunctionDefinition × Nat)}
    (run : entries.foldlM (defineMethod a index) c = .ok d) (lists : c.methods.Lists Entry.target has) :
    d.methods.Lists Entry.target fun key place =>
      has key place ∨ ∃ x ∈ entries, x.1.HasKey a key ∧ place = .method index x.2 := by
  refine lists.foldlM (fun s x t has defined lists => ?_) run
  obtain ⟨signature, methods, signed, added, rfl⟩ := defineMethod_eq_ok defined
  exact (lists.define added).congr fun key place => by rw [FunctionDefinition.hasKey_iff signed]

theorem foldlM_defineMethod_others {entries : List (FunctionDefinition × Nat)}
    (run : entries.foldlM (defineMethod a index) c = .ok d) :
    d.definition = c.definition ∧ d.conversions = c.conversions := by
  have kept : ∀ s, ∀ x ∈ entries, ∀ t, s.definition = c.definition ∧ s.conversions = c.conversions →
      defineMethod a index s x = .ok t → t.definition = c.definition ∧ t.conversions = c.conversions := by
    intro s x _ t same defined
    obtain ⟨_, _, _, _, rfl⟩ := defineMethod_eq_ok defined
    exact same
  exact holds_of_foldlM kept ⟨rfl, rfl⟩ run

theorem foldlM_defineConversion {has : String → ConversionPlace → Prop} {entries : List (ConversionDefinition × Nat)}
    (run : entries.foldlM (defineConversion a index) c = .ok d) (lists : c.conversions.Lists Entry.target has) :
    d.conversions.Lists Entry.target fun target place =>
      has target place ∨ ∃ x ∈ entries, a.typeName x.1.target = .ok target ∧ place = ⟨index, x.2⟩ := by
  refine lists.foldlM (fun s x t has defined lists => ?_) run
  obtain ⟨target, conversions, named, added, rfl⟩ := defineConversion_eq_ok defined
  exact (lists.define added).congr fun key place => by simp [named, eq_comm]

theorem foldlM_defineConversion_others {entries : List (ConversionDefinition × Nat)}
    (run : entries.foldlM (defineConversion a index) c = .ok d) :
    d.definition = c.definition ∧ d.methods = c.methods := by
  have kept : ∀ s, ∀ x ∈ entries, ∀ t, s.definition = c.definition ∧ s.methods = c.methods →
      defineConversion a index s x = .ok t → t.definition = c.definition ∧ t.methods = c.methods := by
    intro s x _ t same defined
    obtain ⟨_, _, _, _, rfl⟩ := defineConversion_eq_ok defined
    exact same
  exact holds_of_foldlM kept ⟨rfl, rfl⟩ run

/-- What one implementation does to the tables: it adds its members to those of the class that it
names, and nothing else changes. -/
structure Implements (a : Annotations) (before after : Definitions) (index : Nat) (i : ImplementationDefinition)
    (name : String) : Prop where
  owner : a.typeName i.owner = .ok name
  functions : after.functions = before.functions
  names : after.classes.map Prod.fst = before.classes.map Prod.fst
  classes : ∀ key, (after.classes.lookup key).map ClassEntry.definition = (before.classes.lookup key).map ClassEntry.definition
  methods : ∀ has, (before.membersOf ClassEntry.methods name).Lists Entry.target has →
    (after.membersOf ClassEntry.methods name).Lists Entry.target fun key place =>
      has key place ∨ ∃ x ∈ i.methods.zipIdx, x.1.HasKey a key ∧ place = .method index x.2
  conversions : ∀ has, (before.membersOf ClassEntry.conversions name).Lists Entry.target has →
    (after.membersOf ClassEntry.conversions name).Lists Entry.target fun target place =>
      has target place ∨ ∃ x ∈ i.conversions.zipIdx, a.typeName x.1.target = .ok target ∧ place = ⟨index, x.2⟩
  others : ∀ owner, owner ≠ name → after.classes.lookup owner = before.classes.lookup owner

theorem implements_of_eq_ok {i : ImplementationDefinition} (defined : defineImplementation a before index i = .ok after) :
    ∃ name, Implements a before after index i name := by
  obtain ⟨name, c, withMethods, complete, named, known, methods, conversions, rfl⟩ := defineImplementation_eq_ok defined
  have found (key : String) := Table.lookup_replaced before.classes name complete key
  have here := found name
  rw [if_pos rfl, known, Option.map_some] at here
  have same := foldlM_defineMethod_others methods
  have same' := foldlM_defineConversion_others conversions
  refine ⟨name, {
    owner := named
    functions := rfl
    names := ?_
    classes := fun key => ?_
    methods := fun has lists => ?_
    conversions := fun has lists => ?_
    others := fun owner different => (found owner).trans (if_neg different) }⟩
  · rw [List.map_map]
    refine List.map_congr_left fun entry _ => ?_
    by_cases isName : entry.1 = name <;> simp [isName]
  · by_cases isName : key = name
    · subst isName
      simp [here, known, same.1, same'.1]
    · dsimp only
      rw [found, if_neg isName]
  · rw [membersOf, known, Option.elim_some] at lists
    rw [membersOf, here, Option.elim_some, same'.2]
    exact foldlM_defineMethod methods lists
  · rw [membersOf, known, Option.elim_some] at lists
    rw [membersOf, here, Option.elim_some]
    exact foldlM_defineConversion conversions (same.2 ▸ lists)

end Members

section Steps

variable {entry : Definition × Nat}

/-- A definition that implements nothing leaves the classes as they are. -/
theorem defineUnlessClass_eq_classes (defined : defineUnlessClass a before entry = .ok after) :
    (∃ i name, entry.1 = .implementation i ∧ Implements a before after entry.2 i name) ∨
      (∀ i, entry.1 ≠ .implementation i) ∧ after.classes = before.classes := by
  obtain ⟨f, isFunction, defined⟩ | ⟨i, isImplementation, defined⟩ | ⟨other, rfl⟩ := defineUnlessClass_eq_ok defined
  · obtain ⟨signature, _, rest⟩ := ok_of_bind defined
    obtain ⟨functions, _, returned⟩ := ok_of_bind rest
    cases returned
    exact .inr ⟨by simp [isFunction], rfl⟩
  · obtain ⟨name, implements⟩ := implements_of_eq_ok defined
    exact .inl ⟨i, name, isImplementation, implements⟩
  · exact .inr ⟨other.2, rfl⟩

theorem defineUnlessClass_classes {has : String → Nat → Prop} (defined : defineUnlessClass a before entry = .ok after)
    (lists : before.classes.Lists ClassEntry.definition has) : after.classes.Lists ClassEntry.definition has := by
  obtain ⟨i, name, _, implements⟩ | ⟨_, same⟩ := defineUnlessClass_eq_classes defined
  · intro key place
    rw [implements.classes]
    exact lists key place
  · rw [same]
    exact lists

theorem defineUnlessClass_names (defined : defineUnlessClass a before entry = .ok after) :
    after.classes.map Prod.fst = before.classes.map Prod.fst := by
  obtain ⟨i, name, _, implements⟩ | ⟨_, same⟩ := defineUnlessClass_eq_classes defined
  · exact implements.names
  · rw [same]

/-- The members of a class grow by what a definition adds to them, if it implements that class. -/
theorem defineUnlessClass_members {α β : Type} {view : β → α} {members : ClassEntry → Table β}
    {adds : ImplementationDefinition → String → α → Prop}
    (grows : ∀ i name, Implements a before after entry.2 i name → ∀ has, (before.membersOf members name).Lists view has →
      (after.membersOf members name).Lists view fun key x => has key x ∨ adds i key x)
    {owner : String} {has : String → α → Prop} (defined : defineUnlessClass a before entry = .ok after)
    (lists : (before.membersOf members owner).Lists view has) :
    (after.membersOf members owner).Lists view fun key x =>
      has key x ∨ ∃ i, entry.1 = .implementation i ∧ a.typeName i.owner = .ok owner ∧ adds i key x := by
  obtain ⟨i, name, isImplementation, implements⟩ | ⟨other, same⟩ := defineUnlessClass_eq_classes defined
  · by_cases isOwner : owner = name
    · subst isOwner
      refine (grows i owner implements has lists).congr fun key x => or_congr_right ?_
      constructor
      · rintro ⟨i', isImplementation', _, added⟩
        cases isImplementation.symm.trans isImplementation'
        exact added
      · exact fun added => ⟨i, isImplementation, implements.owner, added⟩
    · rw [membersOf, implements.others owner isOwner]
      refine lists.unchanged fun key x => ?_
      rintro ⟨i', isImplementation', named, _⟩
      cases isImplementation.symm.trans isImplementation'
      exact isOwner (Except.ok.inj (named.symm.trans implements.owner))
  · rw [membersOf, same]
    exact lists.unchanged fun key x ⟨i, isImplementation, _⟩ => other i isImplementation

theorem defineUnlessClass_methods {owner : String} {has : String → Callable → Prop}
    (defined : defineUnlessClass a before entry = .ok after)
    (lists : (before.membersOf ClassEntry.methods owner).Lists Entry.target has) :
    (after.membersOf ClassEntry.methods owner).Lists Entry.target fun key place =>
      has key place ∨ ∃ f, ImplementsMethod a owner key place f entry := by
  refine (defineUnlessClass_members (fun i name implements => implements.methods) defined lists).congr fun key place =>
    or_congr_right ?_
  constructor
  · rintro ⟨f, i, position, isImplementation, rfl, named, found, keyed⟩
    exact ⟨i, isImplementation, named, (f, position), List.mem_zipIdx_iff_getElem?.mpr found, keyed, rfl⟩
  · rintro ⟨i, isImplementation, named, ⟨f, position⟩, member, keyed, rfl⟩
    exact ⟨f, i, position, isImplementation, rfl, named, List.mem_zipIdx_iff_getElem?.mp member, keyed⟩

theorem defineUnlessClass_conversions {owner : String} {has : String → ConversionPlace → Prop}
    (defined : defineUnlessClass a before entry = .ok after)
    (lists : (before.membersOf ClassEntry.conversions owner).Lists Entry.target has) :
    (after.membersOf ClassEntry.conversions owner).Lists Entry.target fun target place =>
      has target place ∨ ∃ c, ImplementsConversion a owner target place c entry := by
  refine (defineUnlessClass_members (fun i name implements => implements.conversions) defined lists).congr
    fun target place => or_congr_right ?_
  constructor
  · rintro ⟨c, i, position, isImplementation, rfl, named, found, keyed⟩
    exact ⟨i, isImplementation, named, (c, position), List.mem_zipIdx_iff_getElem?.mpr found, keyed, rfl⟩
  · rintro ⟨i, isImplementation, named, ⟨c, position⟩, member, keyed, rfl⟩
    exact ⟨c, i, position, isImplementation, rfl, named, List.mem_zipIdx_iff_getElem?.mp member, keyed⟩

/-- A class has no members before something implements it. -/
theorem defineIfClass_members (defined : defineIfClass a before entry = .ok after)
    (bare : ∀ named ∈ before.classes, named.2.methods = [] ∧ named.2.conversions = []) :
    ∀ named ∈ after.classes, named.2.methods = [] ∧ named.2.conversions = [] := by
  obtain ⟨c, _, defined⟩ | ⟨_, rfl⟩ := defineIfClass_eq_ok defined
  · obtain ⟨name, _, _, rfl⟩ := defineClass_eq_ok defined
    intro named member
    obtain earlier | new := List.mem_append.mp member
    · exact bare named earlier
    · rw [List.mem_singleton.mp new]
      exact ⟨rfl, rfl⟩
  · exact bare

theorem defineIfClass_functions (defined : defineIfClass a before entry = .ok after) :
    after.functions = before.functions := by
  obtain ⟨c, _, defined⟩ | ⟨_, rfl⟩ := defineIfClass_eq_ok defined
  · obtain ⟨name, _, _, rfl⟩ := defineClass_eq_ok defined
    rfl
  · rfl

end Steps

section Program

variable {p : Program} {definitions : Definitions}

/-- Each call is noted with its own signature, where no two calls share an id. -/
theorem lookup_of_callSignatures {calls : List Call} {signatures : List (NodeId × String)}
    (signed : calls.mapM (callSignature a) = .ok signatures) (distinct : (calls.map Call.id).Nodup) :
    ∀ c ∈ calls, ∃ key, c.HasKey a key ∧ signatures.lookup c.id = some key := by
  induction calls generalizing signatures with
  | nil => exact nofun
  | cons first later ih =>
    rw [List.mapM_cons] at signed
    obtain ⟨entry, here, rest⟩ := ok_of_bind signed
    obtain ⟨others, signedLater, returned⟩ := ok_of_bind rest
    obtain ⟨signature, known, returnedFirst⟩ := ok_of_bind here
    cases returned
    cases returnedFirst
    rw [List.map_cons, List.nodup_cons] at distinct
    intro c member
    obtain rfl | inLater := List.mem_cons.mp member
    · exact ⟨signature.text, ⟨signature, known, rfl⟩, by simp⟩
    · obtain ⟨key, keyed, found⟩ := ih signedLater distinct.2 c inLater
      have different : (c.id == first.id) = false := by
        refine beq_eq_false_iff_ne.mpr fun same => distinct.1 ?_
        exact same ▸ List.mem_map_of_mem inLater
      exact ⟨key, keyed, by rw [List.lookup_cons, different]; exact found⟩

/-- The tables have what a program has, and every call of it has its signature. -/
structure Describe (p : Program) (a : Annotations) (definitions : Definitions) : Prop where
  functions : definitions.functions.Lists Entry.target fun key place => ∃ f, p.HasFunction a key place f
  classes : definitions.classes.Lists ClassEntry.definition fun name index => ∃ c, p.HasClass a name index c
  methods : ∀ owner, (definitions.membersOf ClassEntry.methods owner).Lists Entry.target fun key place =>
    ∃ f, p.HasMethod a owner key place f
  conversions : ∀ owner, (definitions.membersOf ClassEntry.conversions owner).Lists Entry.target fun target place =>
    ∃ c, p.HasConversion a owner target place c
  calls : ∀ c ∈ p.calls, ∃ key, c.HasKey a key ∧ definitions.signature? c = some key
  distinct : (definitions.classes.map Prod.fst).Nodup

theorem membersOf_eq_nil {β : Type} {members : ClassEntry → Table β} {owner : String}
    (bare : ∀ named ∈ definitions.classes, members named.2 = []) : definitions.membersOf members owner = [] := by
  cases known : definitions.classes.lookup owner with
  | none => simp [membersOf, known]
  | some c =>
    rw [membersOf, known]
    exact bare _ (Table.mem_of_lookup known)

theorem ofProgram_describe (defined : ofProgram a p = .ok definitions) (distinct : (p.calls.map Call.id).Nodup) :
    definitions.Describe p a := by
  obtain ⟨classes, first, rest⟩ := ok_of_bind defined
  obtain ⟨complete, second, rest⟩ := ok_of_bind rest
  obtain ⟨calls, signed, returned⟩ := ok_of_bind rest
  cases returned
  -- Behind the first pass there are all classes, and nothing else.
  have noFunctions : classes.functions = [] :=
    holds_of_foldlM (fun _ _ _ _ same defined => (defineIfClass_functions defined).trans same) rfl first
  have noMembers : ∀ named ∈ classes.classes, named.2.methods = [] ∧ named.2.conversions = [] :=
    holds_of_foldlM (fun _ _ _ _ bare defined => defineIfClass_members defined bare) (by simp [empty]) first
  have distinctClasses : (classes.classes.map Prod.fst).Nodup :=
    holds_of_foldlM (fun _ _ _ _ distinct defined => defineIfClass_distinct defined distinct) (by simp [empty]) first
  have allClasses := Table.Lists.of_foldlM (fun _ _ _ _ defined lists => defineIfClass_classes defined lists) first rfl
  -- The second pass adds the rest to it.
  have functions : complete.functions.Lists Entry.target fun key place => ∃ f, p.HasFunction a key place f :=
    .of_foldlM (fun _ _ _ _ defined lists => defineUnlessClass_functions_lists defined lists) second noFunctions
  have kept : complete.classes.Lists ClassEntry.definition fun name index => ∃ c, p.HasClass a name index c :=
    holds_of_foldlM (fun _ _ _ _ lists defined => defineUnlessClass_classes defined lists) allClasses second
  have methods (owner : String) : (complete.membersOf ClassEntry.methods owner).Lists Entry.target fun key place =>
      ∃ f, p.HasMethod a owner key place f :=
    .of_foldlM (fun _ _ _ _ defined lists => defineUnlessClass_methods defined lists) second
      (membersOf_eq_nil fun named member => (noMembers named member).1)
  have conversions (owner : String) : (complete.membersOf ClassEntry.conversions owner).Lists Entry.target
      fun target place => ∃ c, p.HasConversion a owner target place c :=
    .of_foldlM (fun _ _ _ _ defined lists => defineUnlessClass_conversions defined lists) second
      (membersOf_eq_nil fun named member => (noMembers named member).2)
  have names : complete.classes.map Prod.fst = classes.classes.map Prod.fst :=
    holds_of_foldlM (fun _ _ _ _ same defined => (defineUnlessClass_names defined).trans same) rfl second
  exact ⟨functions, kept, methods, conversions, lookup_of_callSignatures signed distinct, names ▸ distinctClasses⟩

end Program

end Definitions

end Satzbau

import Satzbau.Proofs.Defining.Registered
import Satzbau.Proofs.Signature.Canonical

namespace Satzbau

variable {a : Annotations}

def FunctionDefinition.defined (a : Annotations) (table : DefinitionTable) (f : FunctionDefinition) :
    Except Diagnostic Defined := do
  let signature ← f.header.signature a
  return ⟨table, signature.text, f.header.verb.location⟩

def ConversionDefinition.defined (a : Annotations) (owner : String) (c : ConversionDefinition) :
    Except Diagnostic Defined := do
  let target ← a.typeName c.target
  return ⟨.conversions owner, target, c.token.location⟩

theorem FunctionDefinition.table_of_defined {table : DefinitionTable} {f : FunctionDefinition} {x : Defined}
    (known : f.defined a table = .ok x) : x.table = table := by
  obtain ⟨signature, _, returned⟩ := ok_of_bind known
  cases returned
  rfl

theorem ConversionDefinition.table_of_defined {owner : String} {c : ConversionDefinition} {x : Defined}
    (known : c.defined a owner = .ok x) : x.table = .conversions owner := by
  obtain ⟨target, _, returned⟩ := ok_of_bind known
  cases returned
  rfl

/-- What a definition puts into the tables: a function its signature, a class its name, and an
implementation the signatures of its methods and the targets of its conversions. -/
def Definition.defined (a : Annotations) : Definition → Except Diagnostic (List Defined)
  | .function f => return [← f.defined a .functions]
  | .noun c => return [⟨.classes, ← a.typeName c.name, c.name.location⟩]
  | .implementation i => do
    let owner ← a.typeName i.owner
    let methods ← i.methods.mapM (FunctionDefinition.defined a (.methods owner))
    let conversions ← i.conversions.mapM (ConversionDefinition.defined a owner)
    return methods ++ conversions
  | .declension _ => return []

/-- All that a program puts into the tables, in the order of the text. -/
def Program.defined (a : Annotations) (p : Program) : Except Diagnostic (List Defined) :=
  return (← p.definitions.mapM (Definition.defined a)).flatten

theorem exists_map_of_mapM {ε α β : Type} [Inhabited β] {f : α → Except ε β} {xs : List α} {ys : List β}
    (run : xs.mapM f = .ok ys) : ∃ g : α → β, ys = xs.map g ∧ ∀ x ∈ xs, f x = .ok (g x) := by
  refine ⟨fun x => (f x).toOption.getD default, ?_⟩
  induction xs generalizing ys with
  | nil =>
    cases run
    exact ⟨rfl, nofun⟩
  | cons x later ih =>
    rw [List.mapM_cons] at run
    obtain ⟨y, first, rest⟩ := ok_of_bind run
    obtain ⟨others, runLater, returned⟩ := ok_of_bind rest
    cases returned
    obtain ⟨rfl, each⟩ := ih runLater
    have here : f x = .ok ((f x).toOption.getD default) := by
      rw [first]
      rfl
    refine ⟨?_, List.forall_mem_cons.mpr ⟨here, each⟩⟩
    rw [List.map_cons, first]
    rfl

theorem exists_mapM_eq_ok {ε α β : Type} {f : α → Except ε β} {xs : List α} (each : ∀ x ∈ xs, ∃ y, f x = .ok y) :
    ∃ ys, xs.mapM f = .ok ys := by
  induction xs with
  | nil => exact ⟨[], rfl⟩
  | cons x later ih =>
    obtain ⟨y, first⟩ := each x List.mem_cons_self
    obtain ⟨ys, rest⟩ := ih fun z member => each z (List.mem_cons_of_mem x member)
    refine ⟨y :: ys, ?_⟩
    rw [List.mapM_cons, first, rest]
    rfl

/-- What a class has in the tables, itself included. -/
def ClassEntry.defined (name : String) (c : ClassEntry) : List Defined :=
  ⟨.classes, name, c.origin⟩ :: (c.methods.defined (.methods name) ++ c.conversions.defined (.conversions name))

theorem Table.table_of_mem_defined {α : Type} {table : DefinitionTable} {t : Table (Entry α)} {x : Defined}
    (member : x ∈ t.defined table) : x.table = table := by
  obtain ⟨named, _, rfl⟩ := List.mem_map.mp member
  rfl

theorem ClassEntry.table_of_mem_defined {name : String} {c : ClassEntry} {x : Defined} (member : x ∈ c.defined name) :
    x.table = .classes ∧ x.key = name ∨ x.table = .methods name ∨ x.table = .conversions name := by
  obtain rfl | inMembers := List.mem_cons.mp member
  · exact .inl ⟨rfl, rfl⟩
  · obtain inMethods | inConversions := List.mem_append.mp inMembers
    · exact .inr (.inl (Table.table_of_mem_defined inMethods))
    · exact .inr (.inr (Table.table_of_mem_defined inConversions))

theorem ClassEntry.table_ne_functions {name : String} {c : ClassEntry} {x : Defined} (member : x ∈ c.defined name) :
    x.table ≠ .functions := by
  obtain ⟨isClass, _⟩ | isMethod | isConversion := table_of_mem_defined member
  · rw [isClass]
    exact nofun
  · rw [isMethod]
    exact nofun
  · rw [isConversion]
    exact nofun

namespace Definitions

/-- All that is in the tables. -/
def defined (definitions : Definitions) : List Defined :=
  definitions.functions.defined .functions ++ definitions.classes.flatMap fun named => named.2.defined named.1

variable {before : Definitions} {index : Nat} {name : String} {c : ClassEntry}

theorem registers_defineFunction {f : FunctionDefinition} {x : Defined} (known : f.defined a .functions = .ok x)
    (distinct : Defined.Distinct before.defined) :
    Registers Definitions.defined True before [x] (defineFunction a before index f) := by
  obtain ⟨signature, signed, returned⟩ := ok_of_bind known
  cases returned
  have put : defineFunction a before index f = (before.functions.define .function signature.text (.function index)
      f.header.verb.location).map fun functions => { before with functions := functions } := by
    unfold defineFunction
    rw [signed]
    rfl
  have registers := Table.registers_define (distinct.sublist (List.sublist_append_left _ _)) signature.text
    (Callable.function index) f.header.verb.location
  rw [put]
  refine registers.within (fun functions => { before with functions := functions })
    (before.classes.flatMap fun named => named.2.defined named.1) (fun _ => .refl _) distinct fun y isNew z member => ?_
  obtain ⟨named, _, inClass⟩ := List.mem_flatMap.mp member
  rw [List.mem_singleton.mp isNew]
  exact (ClassEntry.table_ne_functions inClass).symm

theorem registers_defineMethod {f : FunctionDefinition} {position : Nat} {x : Defined}
    (known : f.defined a (.methods name) = .ok x) (distinct : Defined.Distinct (c.defined name)) :
    Registers (ClassEntry.defined name) True c [x] (defineMethod a index c (f, position)) := by
  obtain ⟨signature, signed, returned⟩ := ok_of_bind known
  cases returned
  have put : defineMethod a index c (f, position) = (c.methods.define .method signature.text (.method index position)
      f.header.verb.location).map fun methods => { c with methods := methods } := by
    unfold defineMethod
    rw [signed]
    rfl
  have inClass : (c.methods.defined (.methods name)).Sublist (c.defined name) :=
    (List.sublist_append_left _ _).cons _
  have registers := Table.registers_define (distinct.sublist inClass) signature.text (Callable.method index position)
    f.header.verb.location
  rw [put]
  refine registers.within (fun methods => { c with methods := methods })
    (⟨.classes, name, c.origin⟩ :: c.conversions.defined (.conversions name)) (fun _ => List.perm_middle.symm) distinct
    fun y isNew z member => ?_
  rw [List.mem_singleton.mp isNew]
  obtain rfl | inConversions := List.mem_cons.mp member
  · exact nofun
  · rw [Table.table_of_mem_defined inConversions]
    exact nofun

theorem registers_defineConversion {d : ConversionDefinition} {position : Nat} {x : Defined}
    (known : d.defined a name = .ok x) (distinct : Defined.Distinct (c.defined name)) :
    Registers (ClassEntry.defined name) True c [x] (defineConversion a index c (d, position)) := by
  obtain ⟨target, named, returned⟩ := ok_of_bind known
  cases returned
  have put : defineConversion a index c (d, position) = (c.conversions.define .conversion target ⟨index, position⟩
      d.token.location).map fun conversions => { c with conversions := conversions } := by
    unfold defineConversion
    rw [named]
    rfl
  have inClass : (c.conversions.defined (.conversions name)).Sublist (c.defined name) :=
    (List.sublist_append_right _ _).cons _
  have registers := Table.registers_define (distinct.sublist inClass) target (⟨index, position⟩ : ConversionPlace)
    d.token.location
  rw [put]
  refine registers.within (fun conversions => { c with conversions := conversions })
    (⟨.classes, name, c.origin⟩ :: c.methods.defined (.methods name)) (fun conversions => ?_) distinct
    fun y isNew z member => ?_
  · show (_ :: _ ++ _ : List Defined).Perm _
    exact List.perm_append_comm
  rw [List.mem_singleton.mp isNew]
  obtain rfl | inMethods := List.mem_cons.mp member
  · exact nofun
  · rw [Table.table_of_mem_defined inMethods]
    exact nofun

theorem mem_defined_of_class (known : (name, c) ∈ before.classes) {x : Defined} (member : x ∈ c.defined name) :
    x ∈ before.defined :=
  List.mem_append_right _ (List.mem_flatMap.mpr ⟨(name, c), known, member⟩)

/-- The names of the classes are the keys in their table. -/
theorem mem_names_iff : name ∈ before.classes.map Prod.fst ↔ ∃ x ∈ before.defined, x.table = .classes ∧ x.key = name := by
  constructor
  · intro member
    obtain ⟨named, inside, rfl⟩ := List.mem_map.mp member
    exact ⟨_, mem_defined_of_class inside List.mem_cons_self, rfl, rfl⟩
  · rintro ⟨x, member, isClass, rfl⟩
    obtain inFunctions | inClasses := List.mem_append.mp member
    · rw [Table.table_of_mem_defined inFunctions] at isClass
      contradiction
    · obtain ⟨named, inside, inClass⟩ := List.mem_flatMap.mp inClasses
      obtain ⟨_, same⟩ | isMethod | isConversion := ClassEntry.table_of_mem_defined inClass
      · exact same ▸ List.mem_map_of_mem inside
      · rw [isMethod] at isClass
        contradiction
      · rw [isConversion] at isClass
        contradiction

theorem nodup_names (distinct : Defined.Distinct before.defined) : (before.classes.map Prod.fst).Nodup := by
  have heads (classes : Table ClassEntry) :
      (classes.map fun named => (⟨.classes, named.1, named.2.origin⟩ : Defined)).Sublist
        (classes.flatMap fun named => named.2.defined named.1) := by
    induction classes with
    | nil => exact .slnil
    | cons named later ih => exact (ih.trans (List.sublist_append_right _ _)).cons_cons _
  have slots : ((before.classes.map Prod.fst).map fun name => (DefinitionTable.classes, name)).Nodup := by
    have kept := distinct.sublist ((heads before.classes).trans (List.sublist_append_right _ _))
    rw [Defined.Distinct, List.map_map] at kept
    rw [List.map_map]
    exact kept
  exact slots.of_map

/-- A class comes to the tables unless its name is reserved or taken. -/
theorem registers_defineClass {d : ClassDefinition} (named : a.typeName d.name = .ok name)
    (distinct : Defined.Distinct before.defined) :
    Registers Definitions.defined (name ∉ reservedTypeNames) before [⟨.classes, name, d.name.location⟩]
      (defineClass a before index d) := by
  have steps : defineClass a before index d =
      if reservedTypeNames.contains name then .error (d.name.noun.blame (.reservedTypeName name))
      else (before.classes.lookup name).elim
        (.ok { before with classes := before.classes ++ [(name, ⟨index, d.name.location, [], []⟩)] }) fun earlier =>
          .error (d.name.noun.blame (.duplicateDefinition .noun name earlier.origin)) := by
    unfold defineClass
    rw [named]
    cases known : before.classes.lookup name <;> simp only [bind, Except.bind, known] <;> split <;> rfl
  rw [steps]
  by_cases reserved : name ∈ reservedTypeNames
  · rw [if_pos (List.contains_iff_mem.mpr reserved)]
    exact .refused (not_not_intro reserved) nofun
  · rw [if_neg fun contained => reserved (List.contains_iff_mem.mp contained)]
    cases known : before.classes.lookup name with
    | some earlier =>
      have there : (⟨.classes, name, earlier.origin⟩ : Defined) ∈ before.defined :=
        mem_defined_of_class (Table.mem_of_lookup known) List.mem_cons_self
      rw [← List.append_nil before.defined] at distinct there
      exact .taken (List.nil_append _).symm distinct there rfl
    | none =>
      have grown : Definitions.defined { before with
          classes := before.classes ++ [(name, (⟨index, d.name.location, [], []⟩ : ClassEntry))] } =
            before.defined ++ [⟨.classes, name, d.name.location⟩] := by
        simp [Definitions.defined, ClassEntry.defined, Table.defined]
      refine .all reserved (by rw [grown]) ?_
      rw [grown]
      refine Defined.distinct_concat distinct fun y member same => Table.not_mem_keys known ?_
      exact mem_names_iff.mpr ⟨y, member, congrArg Prod.fst same, congrArg Prod.snd same⟩

/-- The members of an implementation come to the class that it names. -/
theorem registers_members (index : Nat) {i : ImplementationDefinition} {methods : FunctionDefinition → Defined}
    {conversions : ConversionDefinition → Defined}
    (ofMethods : ∀ f ∈ i.methods, f.defined a (.methods name) = .ok (methods f))
    (ofConversions : ∀ d ∈ i.conversions, d.defined a name = .ok (conversions d))
    (distinct : Defined.Distinct (c.defined name)) :
    Registers (ClassEntry.defined name) True c (i.methods.map methods ++ i.conversions.map conversions)
      (i.methods.zipIdx.foldlM (defineMethod a index) c >>= fun withMethods =>
        i.conversions.zipIdx.foldlM (defineConversion a index) withMethods) := by
  have methodsIn : i.methods.zipIdx.map (fun x => methods x.1) = i.methods.map methods := by
    rw [← Function.comp_def methods Prod.fst, ← List.map_map, List.zipIdx_map_fst]
  have conversionsIn : i.conversions.zipIdx.map (fun x => conversions x.1) = i.conversions.map conversions := by
    rw [← Function.comp_def conversions Prod.fst, ← List.map_map, List.zipIdx_map_fst]
  rw [← methodsIn, ← conversionsIn]
  refine (Registers.bind (.foldlM_map (fun d x member distinct' => ?_) distinct) fun withMethods _ _ distinct' =>
    .foldlM_map (fun d x member distinct'' => ?_) distinct').congr (and_self_iff.trans Iff.rfl)
  · exact registers_defineMethod (ofMethods x.1 (List.fst_mem_of_mem_zipIdx member)) distinct'
  · exact registers_defineConversion (ofConversions x.1 (List.fst_mem_of_mem_zipIdx member)) distinct''

/-- The tables with another entry for a class. -/
def withClass (definitions : Definitions) (name : String) (c : ClassEntry) : Definitions :=
  { definitions with classes := definitions.classes.map fun entry => if entry.1 = name then (name, c) else entry }

/-- What a class has in the tables can be told from the rest, which stays when the class gets another entry. -/
theorem exists_rest (distinct : Defined.Distinct before.defined) (known : before.classes.lookup name = some c) :
    before.withClass name c = before ∧ ∃ others, (∀ d, (before.withClass name d).defined.Perm (d.defined name ++ others)) ∧
      ∀ x ∈ others, x.table ≠ .methods name ∧ x.table ≠ .conversions name := by
  obtain ⟨front, back, cut, _⟩ := List.lookup_eq_some_iff.mp known
  have names := nodup_names distinct
  rw [cut, List.map_append, List.map_cons, List.nodup_middle, List.nodup_cons, ← List.map_append] at names
  have others : ∀ named ∈ front ++ back, named.1 ≠ name := fun named member same =>
    names.1 (List.mem_map.mpr ⟨named, member, same⟩)
  have replaced (d : ClassEntry) : before.withClass name d = { before with classes := front ++ (name, d) :: back } := by
    have kept (part : Table ClassEntry) (among : ∀ named ∈ part, named ∈ front ++ back) :
        part.map (fun named => if named.1 = name then (name, d) else named) = part := by
      rw [List.map_congr_left fun named member => if_neg (others named (among named member)), List.map_id']
    rw [withClass, cut, List.map_append, List.map_cons, kept front (fun _ => List.mem_append_left _),
      kept back (fun _ => List.mem_append_right _), if_pos rfl]
  refine ⟨by rw [replaced, ← cut], before.functions.defined .functions ++
    (front ++ back).flatMap (fun named => named.2.defined named.1), fun d => ?_, fun x member => ?_⟩
  · rw [replaced, Definitions.defined, List.flatMap_append, List.flatMap_append, List.flatMap_cons, List.perm_iff_count]
    intro x
    simp only [List.count_append]
    omega
  · obtain inFunctions | inClasses := List.mem_append.mp member
    · rw [Table.table_of_mem_defined inFunctions]
      exact ⟨nofun, nofun⟩
    · obtain ⟨named, inside, inClass⟩ := List.mem_flatMap.mp inClasses
      have different := others named inside
      obtain ⟨isClass, _⟩ | isMethod | isConversion := ClassEntry.table_of_mem_defined inClass
      · rw [isClass]
        exact ⟨nofun, nofun⟩
      · rw [isMethod]
        exact ⟨fun same => different (DefinitionTable.methods.inj same), nofun⟩
      · rw [isConversion]
        exact ⟨nofun, fun same => different (DefinitionTable.conversions.inj same)⟩

theorem registers_defineImplementation {i : ImplementationDefinition} {methods : FunctionDefinition → Defined}
    {conversions : ConversionDefinition → Defined} (owner : a.typeName i.owner = .ok name)
    (ofMethods : ∀ f ∈ i.methods, f.defined a (.methods name) = .ok (methods f))
    (ofConversions : ∀ d ∈ i.conversions, d.defined a name = .ok (conversions d))
    (distinct : Defined.Distinct before.defined) :
    Registers Definitions.defined (name ∈ before.classes.map Prod.fst) before
      (i.methods.map methods ++ i.conversions.map conversions) (defineImplementation a before index i) := by
  cases known : before.classes.lookup name with
  | none =>
    have undefined : defineImplementation a before index i = .error (i.owner.noun.blame (.undefinedType name)) := by
      unfold defineImplementation
      rw [owner]
      simp only [bind, Except.bind, known]
      rfl
    rw [undefined]
    exact .refused (Table.not_mem_keys known) nofun
  | some c =>
    have put : defineImplementation a before index i =
        (i.methods.zipIdx.foldlM (defineMethod a index) c >>= fun withMethods =>
          i.conversions.zipIdx.foldlM (defineConversion a index) withMethods).map (before.withClass name) := by
      unfold defineImplementation
      rw [owner]
      simp only [bind, Except.bind, known]
      cases i.methods.zipIdx.foldlM (defineMethod a index) c with
      | error fault => rfl
      | ok withMethods =>
        dsimp only
        cases i.conversions.zipIdx.foldlM (defineConversion a index) withMethods <;> rfl
    obtain ⟨same, others, viewed, apart⟩ := exists_rest distinct known
    have start : Defined.Distinct (before.withClass name c).defined := by rwa [same]
    have inClass := (Defined.distinct_append.mp (start.perm (viewed c))).1
    have registers := (registers_members index ofMethods ofConversions inClass).within (before.withClass name) others
      viewed start fun x new y other => ?_
    · rw [same] at registers
      rw [put]
      exact registers.congr (iff_of_true trivial (List.mem_map_of_mem (Table.mem_of_lookup known)))
    · obtain inMethods | inConversions := List.mem_append.mp new
      · obtain ⟨f, member, rfl⟩ := List.mem_map.mp inMethods
        rw [FunctionDefinition.table_of_defined (ofMethods f member)]
        exact (apart y other).1.symm
      · obtain ⟨d, member, rfl⟩ := List.mem_map.mp inConversions
        rw [ConversionDefinition.table_of_defined (ofConversions d member)]
        exact (apart y other).2.symm

end Definitions

end Satzbau

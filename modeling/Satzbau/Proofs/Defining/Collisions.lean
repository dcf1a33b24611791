import Satzbau.Proofs.Defining.Registering

namespace Satzbau

variable {a : Annotations} {p : Program} {xs : List Defined}

namespace Definition

theorem defined_function {f : FunctionDefinition} (known : (function f).defined a = .ok xs) :
    ∃ x, f.defined a .functions = .ok x ∧ xs = [x] := by
  obtain ⟨x, defined, returned⟩ := ok_of_bind known
  cases returned
  exact ⟨x, defined, rfl⟩

theorem defined_noun {c : ClassDefinition} (known : (noun c).defined a = .ok xs) :
    ∃ name, a.typeName c.name = .ok name ∧ xs = [⟨.classes, name, c.name.location⟩] := by
  obtain ⟨name, named, returned⟩ := ok_of_bind known
  cases returned
  exact ⟨name, named, rfl⟩

theorem defined_implementation {i : ImplementationDefinition} (known : (implementation i).defined a = .ok xs) :
    ∃ owner methods conversions, a.typeName i.owner = .ok owner ∧
      (∀ f ∈ i.methods, f.defined a (.methods owner) = .ok (methods f)) ∧
      (∀ c ∈ i.conversions, c.defined a owner = .ok (conversions c)) ∧
      xs = i.methods.map methods ++ i.conversions.map conversions := by
  obtain ⟨owner, named, rest⟩ := ok_of_bind known
  obtain ⟨ofMethods, methodsRun, rest⟩ := ok_of_bind rest
  obtain ⟨ofConversions, conversionsRun, returned⟩ := ok_of_bind rest
  cases returned
  obtain ⟨methods, rfl, eachMethod⟩ := exists_map_of_mapM methodsRun
  obtain ⟨conversions, rfl, eachConversion⟩ := exists_map_of_mapM conversionsRun
  exact ⟨owner, methods, conversions, named, eachMethod, eachConversion, rfl⟩

/-- Only a class has a key among the classes. -/
theorem table_ne_classes {d : Definition} (other : ∀ c, d ≠ noun c) (known : d.defined a = .ok xs) :
    ∀ x ∈ xs, x.table ≠ .classes := by
  intro x member
  cases d with
  | noun c => exact absurd rfl (other c)
  | declension d =>
    cases known
    contradiction
  | function f =>
    obtain ⟨y, defined, rfl⟩ := defined_function known
    rw [List.mem_singleton.mp member, FunctionDefinition.table_of_defined defined]
    exact nofun
  | implementation i =>
    obtain ⟨owner, methods, conversions, _, eachMethod, eachConversion, rfl⟩ := defined_implementation known
    obtain inMethods | inConversions := List.mem_append.mp member
    · obtain ⟨f, inside, rfl⟩ := List.mem_map.mp inMethods
      rw [FunctionDefinition.table_of_defined (eachMethod f inside)]
      exact nofun
    · obtain ⟨c, inside, rfl⟩ := List.mem_map.mp inConversions
      rw [ConversionDefinition.table_of_defined (eachConversion c inside)]
      exact nofun

end Definition

namespace Defined

/-- The classes, which the first pass puts in. -/
def classes (xs : List Defined) : List Defined :=
  xs.filter fun x => x.table = .classes

/-- All but the classes, which the second pass puts in. -/
def members (xs : List Defined) : List Defined :=
  xs.filter fun x => ¬ x.table = .classes

theorem mem_classes {x : Defined} : x ∈ classes xs ↔ x ∈ xs ∧ x.table = .classes := by
  rw [classes, List.mem_filter, decide_eq_true_iff]

theorem classes_eq_self (all : ∀ x ∈ xs, x.table = .classes) : classes xs = xs :=
  List.filter_eq_self.mpr fun x member => by simpa using all x member

theorem members_eq_nil (all : ∀ x ∈ xs, x.table = .classes) : members xs = [] :=
  List.filter_eq_nil_iff.mpr fun x member => by simpa using all x member

theorem classes_eq_nil (others : ∀ x ∈ xs, x.table ≠ .classes) : classes xs = [] :=
  List.filter_eq_nil_iff.mpr fun x member => by simpa using others x member

theorem members_eq_self (others : ∀ x ∈ xs, x.table ≠ .classes) : members xs = xs :=
  List.filter_eq_self.mpr fun x member => by simpa using others x member

/-- The two passes together put in everything, the classes first. -/
theorem classes_append_members (xs : List Defined) : (classes xs ++ members xs).Perm xs := by
  have parts := List.filter_append_perm (fun x : Defined => x.table = .classes) xs
  simpa only [classes, members, decide_not] using parts

end Defined

namespace Definitions

variable {before : Definitions} {entry : Definition × Nat}

theorem registers_defineIfClass (known : entry.1.defined a = .ok xs) (distinct : Defined.Distinct before.defined) :
    Registers Definitions.defined (∀ x ∈ Defined.classes xs, x.key ∉ reservedTypeNames) before (Defined.classes xs)
      (defineIfClass a before entry) := by
  by_cases isClass : ∃ c, entry.1 = .noun c
  · obtain ⟨c, isClass⟩ := isClass
    rw [isClass] at known
    obtain ⟨name, named, rfl⟩ := Definition.defined_noun known
    have put : defineIfClass a before entry = defineClass a before entry.2 c := by rw [defineIfClass, isClass]
    rw [put, Defined.classes_eq_self (by simp)]
    exact (registers_defineClass named distinct).congr (by simp)
  · have none := Defined.classes_eq_nil (Definition.table_ne_classes (fun c isNoun => isClass ⟨c, isNoun⟩) known)
    have same : defineIfClass a before entry = .ok before := by
      unfold defineIfClass
      split
      · rename_i c isNoun
        exact absurd ⟨c, isNoun⟩ isClass
      · rfl
    rw [same, none]
    exact (Registers.nothing distinct).congr (by simp)

/-- The class that a definition implements, if it implements one, is among those with some names. -/
def Implemented (a : Annotations) (names : List String) (d : Definition) : Prop :=
  ∀ i, d = .implementation i → ∃ name ∈ names, a.typeName i.owner = .ok name

theorem registers_defineUnlessClass (known : entry.1.defined a = .ok xs) (distinct : Defined.Distinct before.defined) :
    Registers Definitions.defined (Implemented a (before.classes.map Prod.fst) entry.1) before (Defined.members xs)
      (defineUnlessClass a before entry) := by
  obtain ⟨d, index⟩ := entry
  have unneeded (other : ∀ i, d ≠ .implementation i) : True ↔ Implemented a (before.classes.map Prod.fst) d :=
    iff_of_true trivial fun i isImplementation => absurd isImplementation (other i)
  cases d with
  | noun c =>
    obtain ⟨name, _, rfl⟩ := Definition.defined_noun known
    have same : defineUnlessClass a before (.noun c, index) = .ok before := rfl
    rw [same, Defined.members_eq_nil (by simp)]
    exact (Registers.nothing distinct).congr (unneeded (by simp))
  | declension d =>
    cases known
    have same : defineUnlessClass a before (.declension d, index) = .ok before := rfl
    rw [same]
    exact (Registers.nothing distinct).congr (unneeded (by simp))
  | function f =>
    have others := Defined.members_eq_self (Definition.table_ne_classes (by simp) known)
    obtain ⟨x, defined, rfl⟩ := Definition.defined_function known
    rw [others]
    exact (registers_defineFunction defined distinct).congr (unneeded (by simp))
  | implementation i =>
    have others := Defined.members_eq_self (Definition.table_ne_classes (by simp) known)
    obtain ⟨owner, methods, conversions, named, eachMethod, eachConversion, rfl⟩ := Definition.defined_implementation known
    rw [others]
    refine (registers_defineImplementation named eachMethod eachConversion distinct).congr ⟨?_, ?_⟩
    · rintro member i' ⟨⟩
      exact ⟨owner, member, named⟩
    · intro implemented
      obtain ⟨name, member, named'⟩ := implemented i rfl
      cases named.symm.trans named'
      exact member

end Definitions

/-- What has to hold of the definitions besides that their keys are free: no class has the name of a
type that every program has, and what is implemented is a class. -/
def Program.Admitted (p : Program) (a : Annotations) (all : List Defined) : Prop :=
  (∀ x ∈ Defined.classes all, x.key ∉ Definitions.reservedTypeNames) ∧
    ∀ d ∈ p.definitions, Definitions.Implemented a ((Defined.classes all).map Defined.key) d

section Passes

variable {α β : Type}

theorem flatMap_zipIdx (f : α → List β) (xs : List α) : (xs.zipIdx.flatMap fun entry => f entry.1) = xs.flatMap f := by
  rw [← List.flatMap_map Prod.fst f, List.zipIdx_map_fst]

theorem forall_mem_zipIdx {holds : α → Prop} {xs : List α} : (∀ entry ∈ xs.zipIdx, holds entry.1) ↔ ∀ x ∈ xs, holds x := by
  rw [← List.forall_mem_map (f := Prod.fst), List.zipIdx_map_fst]

end Passes

namespace Definitions

variable {each : Definition → List Defined}

theorem registers_classPass (known : ∀ d ∈ p.definitions, d.defined a = .ok (each d)) :
    Registers Definitions.defined (∀ x ∈ Defined.classes (p.definitions.flatMap each), x.key ∉ reservedTypeNames) empty
      (Defined.classes (p.definitions.flatMap each)) (p.definitions.zipIdx.foldlM (defineIfClass a) empty) := by
  have puts : (p.definitions.zipIdx.flatMap fun entry => Defined.classes (each entry.1)) =
      Defined.classes (p.definitions.flatMap each) := by
    rw [flatMap_zipIdx fun d => Defined.classes (each d), Defined.classes, List.filter_flatMap]
    rfl
  rw [← puts]
  have distinct : Defined.Distinct empty.defined := List.nodup_nil
  refine (Registers.foldlM (fun _ => True) (fun _ entry member _ distinct => ?_) (fun _ _ _ _ _ _ => trivial) trivial
    distinct).congr List.forall_mem_flatMap.symm
  exact registers_defineIfClass (known entry.1 (List.fst_mem_of_mem_zipIdx member)) distinct

theorem registers_memberPass (known : ∀ d ∈ p.definitions, d.defined a = .ok (each d)) {classes : Definitions}
    (distinct : Defined.Distinct classes.defined) :
    Registers Definitions.defined (∀ d ∈ p.definitions, Implemented a (classes.classes.map Prod.fst) d) classes
      (Defined.members (p.definitions.flatMap each)) (p.definitions.zipIdx.foldlM (defineUnlessClass a) classes) := by
  have puts : (p.definitions.zipIdx.flatMap fun entry => Defined.members (each entry.1)) =
      Defined.members (p.definitions.flatMap each) := by
    rw [flatMap_zipIdx fun d => Defined.members (each d), Defined.members, List.filter_flatMap]
    rfl
  rw [← puts]
  -- No definition of the second pass changes which classes there are.
  refine (Registers.foldlM (fun s => s.classes.map Prod.fst = classes.classes.map Prod.fst)
    (fun s entry member same distinct => ?_) (fun _ _ _ _ same run => (defineUnlessClass_names run).trans same) rfl
    distinct).congr forall_mem_zipIdx
  rw [← same]
  exact registers_defineUnlessClass (known entry.1 (List.fst_mem_of_mem_zipIdx member)) distinct

theorem registers_ofProgram (known : ∀ d ∈ p.definitions, d.defined a = .ok (each d)) {calls : List (NodeId × String)}
    (signed : p.calls.mapM (callSignature a) = .ok calls) :
    Registers Definitions.defined (p.Admitted a (p.definitions.flatMap each)) empty
      (Defined.classes (p.definitions.flatMap each) ++ Defined.members (p.definitions.flatMap each)) (ofProgram a p) := by
  have passes : ofProgram a p = (p.definitions.zipIdx.foldlM (defineIfClass a) empty >>= fun classes =>
      p.definitions.zipIdx.foldlM (defineUnlessClass a) classes).map fun definitions =>
        { definitions with calls := calls } := by
    unfold ofProgram
    simp only [bind, Except.bind, signed]
    cases p.definitions.zipIdx.foldlM (defineIfClass a) empty with
    | error fault => rfl
    | ok classes =>
      dsimp only
      cases p.definitions.zipIdx.foldlM (defineUnlessClass a) classes <;> rfl
  rw [passes]
  refine Registers.map (.bind (registers_classPass known) fun classes _ grown distinct => ?_) _ fun _ => rfl
  -- Behind the first pass the classes that there are have the names that the program gives them.
  have names (name : String) : name ∈ classes.classes.map Prod.fst ↔
      name ∈ (Defined.classes (p.definitions.flatMap each)).map Defined.key := by
    rw [mem_names_iff, List.mem_map]
    refine exists_congr fun x => ?_
    rw [grown.mem_iff]
    show x ∈ Defined.classes _ ∧ _ ↔ _
    exact and_congr_right fun member => and_iff_right (Defined.mem_classes.mp member).2
  refine (registers_memberPass known distinct).congr (forall₂_congr fun d _ => ?_)
  simp only [Implemented, names]

end Definitions

/-- What a program puts into one table, in the order of the text. -/
def Defined.ofTable (table : DefinitionTable) (all : List Defined) : List Defined :=
  all.filter fun x => x.table = table

/-- A program none of whose definitions is in the way of another: no class has the name of a type that
every program has, what is implemented is a class, and in each table, that is, among the functions, among
the classes, and among the methods and the conversions of one class, all keys are different. -/
structure Program.CollisionFree (p : Program) (a : Annotations) (all : List Defined) : Prop where
  unreserved : ∀ x ∈ all, x.table = .classes → x.key ∉ Definitions.reservedTypeNames
  implemented : ∀ i, .implementation i ∈ p.definitions → ∃ x ∈ all, x.table = .classes ∧ a.typeName i.owner = .ok x.key
  distinct : ∀ table, ((Defined.ofTable table all).map Defined.key).Nodup

namespace Defined

theorem mem_ofTable {table : DefinitionTable} {x : Defined} : x ∈ ofTable table xs ↔ x ∈ xs ∧ x.table = table := by
  rw [ofTable, List.mem_filter, decide_eq_true_iff]

theorem ofTable_append (table : DefinitionTable) (xs ys : List Defined) :
    ofTable table (xs ++ ys) = ofTable table xs ++ ofTable table ys :=
  List.filter_append ..

theorem map_slot_ofTable (table : DefinitionTable) (xs : List Defined) :
    (ofTable table xs).map slot = ((ofTable table xs).map key).map fun key => (table, key) := by
  rw [List.map_map]
  refine List.map_congr_left fun x member => ?_
  rw [slot, (mem_ofTable.mp member).2]
  rfl

theorem distinct_iff : Distinct xs ↔ ∀ table, ((ofTable table xs).map key).Nodup := by
  constructor
  · intro distinct table
    have slots : Distinct (ofTable table xs) := distinct.sublist List.filter_sublist
    rw [Distinct, map_slot_ofTable] at slots
    exact slots.of_map
  · intro each
    induction xs with
    | nil => exact List.nodup_nil
    | cons x later ih =>
      have rest : ∀ table, ((ofTable table later).map key).Nodup := fun table =>
        (each table).sublist (((List.sublist_cons_self x later).filter _).map key)
      refine List.nodup_cons.mpr ⟨fun member => ?_, ih rest⟩
      obtain ⟨y, inLater, same⟩ := List.mem_map.mp member
      have atTable := each x.table
      rw [ofTable, List.filter_cons_of_pos (by simp), List.map_cons, List.nodup_cons] at atTable
      refine atTable.1 (List.mem_map.mpr ⟨y, mem_ofTable.mpr ⟨inLater, congrArg Prod.fst same⟩, congrArg Prod.snd same⟩)

/-- The passes keep the order of each table. -/
theorem ofTable_classes_append_members (table : DefinitionTable) (xs : List Defined) :
    ofTable table (classes xs ++ members xs) = ofTable table xs := by
  rw [ofTable_append]
  by_cases isClasses : table = .classes
  · subst isClasses
    have noMember : ofTable .classes (members xs) = [] :=
      List.filter_eq_nil_iff.mpr fun x member => by simpa using (List.mem_filter.mp member).2
    have all : ofTable .classes (classes xs) = classes xs :=
      List.filter_eq_self.mpr fun x member => by simpa using (mem_classes.mp member).2
    rw [noMember, all, List.append_nil]
    rfl
  · have noClass : ofTable table (classes xs) = [] :=
      List.filter_eq_nil_iff.mpr fun x member => by simpa [(mem_classes.mp member).2] using Ne.symm isClasses
    have all : ofTable table (members xs) = ofTable table xs := by
      rw [ofTable, members, List.filter_filter]
      refine List.filter_congr fun x _ => ?_
      by_cases inTable : x.table = table
      · simp [inTable, isClasses]
      · simp [inTable]
    rw [noClass, all, List.nil_append]

end Defined

namespace Program

/-- A program that is collision-free is one whose definitions are admitted and have keys of their own. -/
theorem collisionFree_iff : p.CollisionFree a xs ↔ p.Admitted a xs ∧ Defined.Distinct xs := by
  have implements (d : Definition) : Definitions.Implemented a ((Defined.classes xs).map Defined.key) d ↔
      ∀ i, d = .implementation i → ∃ x ∈ xs, x.table = .classes ∧ a.typeName i.owner = .ok x.key := by
    refine forall₂_congr fun i _ => ⟨?_, ?_⟩
    · rintro ⟨name, member, named⟩
      obtain ⟨x, inClasses, rfl⟩ := List.mem_map.mp member
      obtain ⟨inAll, isClass⟩ := Defined.mem_classes.mp inClasses
      exact ⟨x, inAll, isClass, named⟩
    · rintro ⟨x, inAll, isClass, named⟩
      exact ⟨x.key, List.mem_map_of_mem (Defined.mem_classes.mpr ⟨inAll, isClass⟩), named⟩
  constructor
  · rintro ⟨unreserved, implemented, distinct⟩
    refine ⟨⟨fun x member => ?_, fun d member => (implements d).mpr ?_⟩, Defined.distinct_iff.mpr distinct⟩
    · obtain ⟨inAll, isClass⟩ := Defined.mem_classes.mp member
      exact unreserved x inAll isClass
    · rintro i rfl
      exact implemented i member
  · rintro ⟨⟨unreserved, implemented⟩, distinct⟩
    exact {
      unreserved := fun x member isClass => unreserved x (Defined.mem_classes.mpr ⟨member, isClass⟩)
      implemented := fun i member => (implements _).mp (implemented _ member) i rfl
      distinct := Defined.distinct_iff.mp distinct }

end Program

namespace Registers

variable {all : List Defined} {admitted : Prop} {result : Except Diagnostic Definitions}

/-- What a duplicate is blamed with is the first definition of its table that has its key. -/
theorem of_duplicate (registers : Registers Definitions.defined admitted .empty (Defined.classes all ++ Defined.members all) result)
    {fault : Diagnostic} (failed : result = .error fault) {what : Definable} {key : String} {first : Location}
    (isDuplicate : fault.fault = .duplicateDefinition what key first) :
    ∃ table before earlier between later after,
      Defined.ofTable table all = before ++ earlier :: between ++ later :: after ∧ table.what = what ∧
      earlier.key = key ∧ later.key = key ∧ ((before ++ earlier :: between).map Defined.key).Nodup ∧
      earlier.origin = first ∧ fault.location = some later.origin := by
  cases registers with
  | all => contradiction
  | refused _ other =>
    cases failed
    exact absurd isDuplicate (other what key first)
  | @taken front back earlier x cut distinct there same =>
    cases failed
    cases isDuplicate
    have inTable : earlier ∈ Defined.ofTable x.table front :=
      Defined.mem_ofTable.mpr ⟨there, congrArg Prod.fst same⟩
    obtain ⟨before, between, cutFront⟩ := List.append_of_mem inTable
    refine ⟨x.table, before, earlier, between, x, Defined.ofTable x.table back, ?_, rfl, congrArg Prod.snd same, rfl, ?_,
      rfl, rfl⟩
    · rw [← cutFront, ← Defined.ofTable_classes_append_members, cut, Defined.ofTable_append]
      congr 1
      exact List.filter_cons_of_pos (by simp)
    · rw [← cutFront]
      exact Defined.distinct_iff.mp distinct x.table

end Registers

section Checked

variable {dictionary : Dictionary}

theorem NounPhrase.IsAnnotated.exists_typeName {phrase : NounPhrase} (annotated : phrase.IsAnnotated a) :
    ∃ name, a.typeName phrase = .ok name := by
  obtain ⟨reading, known⟩ := annotated
  refine ⟨reading.nominative.getD phrase.word, ?_⟩
  rw [Annotations.typeName, Annotations.phrase, known]
  rfl

theorem NounPhrase.IsAnnotated.canonicalPhrase_eq {phrase : NounPhrase} (annotated : phrase.IsAnnotated a) :
    Signature.canonicalPhrase a phrase = .ok (Signature.canonicalText a phrase) := by
  obtain ⟨reading, known⟩ := annotated
  unfold Signature.canonicalText Signature.canonicalPhrase Annotations.phrase
  rw [known]
  simp only [bind, Except.bind]
  split
  · rfl
  · split <;> rfl

theorem Roles.Noted.signature_eq {r : Roles} (noted : r.Noted dictionary a) : r.signature a = .ok (r.canonical a) :=
  Roles.signature_eq fun _ member => (noted.annotated member).canonicalPhrase_eq

namespace Program.Agrees

variable (agrees : p.Agrees (.noted dictionary a))

include agrees

theorem isAnnotated {phrase : NounPhrase} (member : .phrase phrase ∈ p.occurrences) : phrase.IsAnnotated a := by
  obtain ⟨_, _, reading, _, noted⟩ := agrees.occurrences _ member
  exact ⟨reading, noted⟩

theorem exists_defined_method {d : Definition} (inProgram : d ∈ p.definitions) {f : FunctionDefinition}
    (inDefinition : f ∈ d.functions) (table : DefinitionTable) : ∃ x, f.defined a table = .ok x := by
  have member : f.header ∈ p.headers := List.mem_map_of_mem (List.mem_flatMap.mpr ⟨d, inProgram, inDefinition⟩)
  have signed : f.header.signature a = .ok (f.header.roles.canonical a) := (agrees.headers _ member).noted.signature_eq
  refine ⟨⟨table, (f.header.roles.canonical a).text, f.header.verb.location⟩, ?_⟩
  rw [FunctionDefinition.defined, signed]
  rfl

theorem exists_defined {d : Definition} (inProgram : d ∈ p.definitions) : ∃ xs, d.defined a = .ok xs := by
  have inside {phrase : NounPhrase} (member : .phrase phrase ∈ d.occurrences) : ∃ name, a.typeName phrase = .ok name :=
    (agrees.isAnnotated (List.mem_append_left _ (List.mem_flatMap.mpr ⟨d, inProgram, member⟩))).exists_typeName
  cases d with
  | function f =>
    obtain ⟨x, defined⟩ := agrees.exists_defined_method inProgram (List.mem_singleton_self f) .functions
    refine ⟨[x], ?_⟩
    rw [Definition.defined, defined]
    rfl
  | noun c =>
    obtain ⟨name, named⟩ := inside List.mem_cons_self
    refine ⟨[⟨.classes, name, c.name.location⟩], ?_⟩
    rw [Definition.defined, named]
    rfl
  | declension d => exact ⟨[], rfl⟩
  | implementation i =>
    obtain ⟨owner, named⟩ := inside List.mem_cons_self
    have ofMethods (f : FunctionDefinition) (member : f ∈ i.methods) :=
      agrees.exists_defined_method inProgram member (.methods owner)
    have ofConversions (c : ConversionDefinition) (member : c ∈ i.conversions) : ∃ x, c.defined a owner = .ok x := by
      have inDefinition : .phrase c.target ∈ (Definition.implementation i).occurrences :=
        List.mem_cons_of_mem _ (List.mem_append_right _ (List.mem_flatMap.mpr ⟨c, member, List.mem_cons_self⟩))
      obtain ⟨target, targetNamed⟩ := inside inDefinition
      refine ⟨⟨.conversions owner, target, c.token.location⟩, ?_⟩
      rw [ConversionDefinition.defined, targetNamed]
      rfl
    obtain ⟨methods, methodsRun⟩ := exists_mapM_eq_ok ofMethods
    obtain ⟨conversions, conversionsRun⟩ := exists_mapM_eq_ok ofConversions
    refine ⟨methods ++ conversions, ?_⟩
    rw [Definition.defined, named]
    simp only [bind, Except.bind, methodsRun, conversionsRun]
    rfl

/-- All that a program that passes the grammar check puts into the tables is known, and so are the
signatures of its calls. -/
theorem exists_each : ∃ each : Definition → List Defined, (∀ d ∈ p.definitions, d.defined a = .ok (each d)) ∧
    p.defined a = .ok (p.definitions.flatMap each) := by
  obtain ⟨xss, run⟩ := exists_mapM_eq_ok fun d member => agrees.exists_defined member
  obtain ⟨each, rfl, known⟩ := exists_map_of_mapM run
  refine ⟨each, known, ?_⟩
  rw [Program.defined, run, List.flatMap_def]
  rfl

theorem exists_callSignatures : ∃ calls, p.calls.mapM (Definitions.callSignature a) = .ok calls := by
  refine exists_mapM_eq_ok fun c member => ⟨(c.id, (c.roles.canonical a).text), ?_⟩
  have signed : c.signature a = .ok (c.roles.canonical a) := (agrees.calls c member).noted.signature_eq
  rw [Definitions.callSignature, signed]
  rfl

/-- What comes of putting all definitions of a program that passes the grammar check into the tables. -/
theorem registers : ∃ all, p.defined a = .ok all ∧
    Registers Definitions.defined (p.Admitted a all) .empty (Defined.classes all ++ Defined.members all)
      (Definitions.ofProgram a p) := by
  obtain ⟨each, known, defined⟩ := agrees.exists_each
  obtain ⟨calls, signed⟩ := agrees.exists_callSignatures
  exact ⟨_, defined, Definitions.registers_ofProgram known signed⟩

end Program.Agrees

end Checked

/-- What is in the tables behind all definitions is what the program puts into them. -/
theorem Registers.defined_perm {all : List Defined} {admitted : Prop} {definitions : Definitions}
    (registers : Registers Definitions.defined admitted .empty (Defined.classes all ++ Defined.members all)
      (.ok definitions)) : definitions.defined.Perm all ∧ Defined.Distinct definitions.defined := by
  cases registers with
  | all _ grown distinct => exact ⟨grown.trans (Defined.classes_append_members all), distinct⟩

theorem Definitions.ofProgram_isOk_iff {all : List Defined} (registers : Registers Definitions.defined (p.Admitted a all)
    .empty (Defined.classes all ++ Defined.members all) (ofProgram a p)) :
    (∃ definitions, ofProgram a p = .ok definitions) ↔ p.CollisionFree a all := by
  rw [registers.isOk_iff, Program.collisionFree_iff]
  have perm : (empty.defined ++ (Defined.classes all ++ Defined.members all)).Perm all :=
    Defined.classes_append_members all
  exact and_congr_right fun _ => ⟨fun distinct => distinct.perm perm, fun distinct => distinct.perm perm.symm⟩

end Satzbau

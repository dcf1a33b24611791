import Mathlib.Data.List.Perm.Basic
import Satzbau.Compilation
import Satzbau.Proofs.Defining.Collisions
import Satzbau.Proofs.Defining.Resolution

namespace Satzbau

namespace Defined

/-- The keys of one table, sorted. -/
def keysOf (table : DefinitionTable) (all : List Defined) : List String :=
  ((ofTable table all).map key).mergeSort fun a b => a ≤ b

/-- The line for a definition. -/
def line (x : Defined) : String :=
  match x.table with
  | .functions => "Verb " ++ x.key
  | .classes => "Nomen " ++ x.key
  | .methods _ => "  Verb " ++ x.key
  | .conversions _ => "  Als " ++ x.key

/-- The lines for definitions: the functions, and then each class with its methods and its conversions,
all of them sorted. -/
def listing (all : List Defined) : List String :=
  (keysOf .functions all).map ("Verb " ++ ·) ++ (keysOf .classes all).flatMap fun name =>
    ("Nomen " ++ name) :: (keysOf (.methods name) all).map ("  Verb " ++ ·) ++
      (keysOf (.conversions name) all).map ("  Als " ++ ·)

theorem mergeSort_eq_of_perm {xs ys : List String} (perm : xs.Perm ys) :
    xs.mergeSort (fun a b => a ≤ b) = ys.mergeSort fun a b => a ≤ b := by
  have sorted (zs : List String) : (zs.mergeSort fun a b => a ≤ b).Pairwise fun a b => decide (a ≤ b) = true :=
    List.pairwise_mergeSort (fun a b c => by simpa using String.le_trans) (fun a b => by simpa using String.le_total a b) zs
  refine List.Perm.eq_of_pairwise (fun a b _ _ less more => ?_) (sorted xs) (sorted ys)
    ((List.mergeSort_perm xs _).trans (perm.trans (List.mergeSort_perm ys _).symm))
  exact String.le_antisymm (of_decide_eq_true less) (of_decide_eq_true more)

variable {xs ys : List Defined}

theorem ofTable_perm (perm : xs.Perm ys) (table : DefinitionTable) : (ofTable table xs).Perm (ofTable table ys) :=
  perm.filter _

theorem keysOf_eq_of_perm (perm : xs.Perm ys) (table : DefinitionTable) : keysOf table xs = keysOf table ys :=
  mergeSort_eq_of_perm ((ofTable_perm perm table).map key)

/-- The order of definitions does not show in their listing. -/
theorem listing_eq_of_perm (perm : xs.Perm ys) : listing xs = listing ys := by
  simp only [listing, keysOf_eq_of_perm perm]

/-- The keys of a table that holds all that there is of it. -/
theorem keysOf_eq {α : Type} {table : DefinitionTable} {t : Table (Entry α)} (others : List Defined)
    (perm : xs.Perm (t.defined table ++ others)) (apart : ∀ x ∈ others, x.table ≠ table) : keysOf table xs = t.keys := by
  have own : ofTable table (t.defined table) = t.defined table :=
    List.filter_eq_self.mpr fun x member => by simpa using Table.table_of_mem_defined member
  have none : ofTable table others = [] := List.filter_eq_nil_iff.mpr fun x member => by simpa using apart x member
  rw [keysOf_eq_of_perm perm, keysOf, ofTable_append, own, none, List.append_nil, Table.defined, List.map_map]
  rfl

end Defined

namespace Definitions

variable {definitions : Definitions}

theorem keysOf_functions : Defined.keysOf .functions definitions.defined = definitions.functions.keys := by
  refine Defined.keysOf_eq _ (.refl _) fun x member => ?_
  obtain ⟨named, _, inClass⟩ := List.mem_flatMap.mp member
  exact ClassEntry.table_ne_functions inClass

theorem map_key_classes (definitions : Definitions) :
    (Defined.ofTable .classes definitions.defined).map Defined.key = definitions.classes.map Prod.fst := by
  have noFunction : Defined.ofTable .classes (definitions.functions.defined .functions) = [] := by
    refine List.filter_eq_nil_iff.mpr fun x member => ?_
    simp [Table.table_of_mem_defined member]
  have ofClass (named : String × ClassEntry) : Defined.ofTable .classes (named.2.defined named.1) =
      [⟨.classes, named.1, named.2.origin⟩] := by
    have members : Defined.ofTable .classes (named.2.methods.defined (.methods named.1) ++
        named.2.conversions.defined (.conversions named.1)) = [] := by
      refine List.filter_eq_nil_iff.mpr fun x member => ?_
      obtain inMethods | inConversions := List.mem_append.mp member
      · simp [Table.table_of_mem_defined inMethods]
      · simp [Table.table_of_mem_defined inConversions]
    rw [ClassEntry.defined, Defined.ofTable, List.filter_cons_of_pos (by simp)]
    exact congrArg _ members
  rw [Definitions.defined, Defined.ofTable_append, noFunction, List.nil_append, Defined.ofTable, List.filter_flatMap]
  show (definitions.classes.flatMap fun named => Defined.ofTable .classes (named.2.defined named.1)).map _ = _
  rw [List.map_flatMap, List.map_eq_flatMap]
  exact congrArg List.flatten (List.map_congr_left fun named _ => by rw [ofClass]; rfl)

theorem keysOf_classes : Defined.keysOf .classes definitions.defined = definitions.sortedClasses.map Prod.fst := by
  have sorted := List.map_mergeSort (r := fun a b : String × ClassEntry => a.1 ≤ b.1) (s := fun a b : String => a ≤ b)
    (f := Prod.fst) (l := definitions.classes) fun _ _ _ _ => rfl
  rw [Defined.keysOf, map_key_classes, sortedClasses, sorted]

/-- What a class has among all that is in the tables. -/
theorem keysOf_members (distinct : Defined.Distinct definitions.defined) {name : String} {c : ClassEntry}
    (member : (name, c) ∈ definitions.classes) :
    Defined.keysOf (.methods name) definitions.defined = c.methods.keys ∧
      Defined.keysOf (.conversions name) definitions.defined = c.conversions.keys := by
  have known := Table.lookup_of_mem (nodup_names distinct) member
  obtain ⟨same, others, viewed, apart⟩ := exists_rest distinct known
  have parts := viewed c
  rw [same] at parts
  have order (methods conversions : List Defined) (x : Defined) :
      (x :: (methods ++ conversions) ++ others).Perm (methods ++ x :: (conversions ++ others)) ∧
        (x :: (methods ++ conversions) ++ others).Perm (conversions ++ x :: (methods ++ others)) := by
    constructor <;> rw [List.perm_iff_count] <;> intro y <;> simp only [List.count_append, List.count_cons] <;> omega
  obtain ⟨methodsFirst, conversionsFirst⟩ := order (c.methods.defined (.methods name))
    (c.conversions.defined (.conversions name)) ⟨.classes, name, c.origin⟩
  constructor
  · refine Defined.keysOf_eq _ (parts.trans methodsFirst) fun x inOthers => ?_
    obtain rfl | inRest := List.mem_cons.mp inOthers
    · exact nofun
    · obtain inConversions | outside := List.mem_append.mp inRest
      · rw [Table.table_of_mem_defined inConversions]
        exact nofun
      · exact (apart x outside).1
  · refine Defined.keysOf_eq _ (parts.trans conversionsFirst) fun x inOthers => ?_
    obtain rfl | inRest := List.mem_cons.mp inOthers
    · exact nofun
    · obtain inMethods | outside := List.mem_append.mp inRest
      · rw [Table.table_of_mem_defined inMethods]
        exact nofun
      · exact (apart x outside).2

end Definitions

namespace CompiledProgram

variable {compiled : CompiledProgram}

theorem signatures_eq_listing (distinct : Defined.Distinct compiled.definitions.defined) :
    compiled.signatures = Defined.listing compiled.definitions.defined := by
  have ofClass : ∀ named ∈ compiled.definitions.sortedClasses, classLines named =
      ("Nomen " ++ named.1) :: (Defined.keysOf (.methods named.1) compiled.definitions.defined).map ("  Verb " ++ ·) ++
        (Defined.keysOf (.conversions named.1) compiled.definitions.defined).map ("  Als " ++ ·) := by
    rintro ⟨name, c⟩ member
    obtain ⟨methods, conversions⟩ := Definitions.keysOf_members distinct (List.mem_mergeSort.mp member)
    rw [methods, conversions]
    rfl
  rw [signatures, Defined.listing, Definitions.keysOf_functions, Definitions.keysOf_classes, List.flatMap_map]
  exact congrArg _ (congrArg List.flatten (List.map_congr_left ofClass))

/-- Every definition has its own line. -/
theorem signatures_perm (compiled : CompiledProgram) :
    compiled.signatures.Perm (compiled.definitions.defined.map Defined.line) := by
  have ofTable {α : Type} (t : Table (Entry α)) (table : DefinitionTable) (intro : String)
      (lined : ∀ key origin, (⟨table, key, origin⟩ : Defined).line = intro ++ key) :
      (t.keys.map (intro ++ ·)).Perm ((t.defined table).map Defined.line) := by
    have lines : (t.defined table).map Defined.line = (t.map Prod.fst).map (intro ++ ·) := by
      rw [Table.defined, List.map_map, List.map_map]
      exact List.map_congr_left fun named _ => lined named.1 named.2.origin
    rw [lines]
    exact (List.mergeSort_perm _ _).map _
  have ofClass (named : String × ClassEntry) : (classLines named).Perm ((named.2.defined named.1).map Defined.line) := by
    rw [ClassEntry.defined, List.map_cons, List.map_append]
    exact ((ofTable named.2.methods (.methods named.1) _ fun _ _ => rfl).append
      (ofTable named.2.conversions (.conversions named.1) _ fun _ _ => rfl)).cons _
  rw [signatures, Definitions.defined, List.map_append, List.map_flatMap]
  refine (ofTable compiled.definitions.functions .functions _ fun _ _ => rfl).append ?_
  exact (List.mergeSort_perm _ _).flatMap fun named _ => ofClass named

end CompiledProgram

/-- What a parsed program that passes the grammar check needs so that all of its definitions can be put
into the tables: that they are collision-free. Then each has its line among the signatures. A key that
is defined twice is a fault at the later definition, and what is told with it is the position of the
first definition that has the key in the same table. -/
theorem TokenStream.ofProgram_collisions {stream : TokenStream} {p : Program} (parsed : stream.program = .ok p)
    {dictionary : Dictionary} {a : Annotations} (checked : p.annotations dictionary = .ok a) :
    ∃ all, p.defined a = .ok all ∧
      ((∃ definitions, Definitions.ofProgram a p = .ok definitions) ↔ p.CollisionFree a all) ∧
      (∀ compiled : CompiledProgram, Definitions.ofProgram a p = .ok compiled.definitions →
        compiled.signatures = Defined.listing all ∧ compiled.signatures.Perm (all.map Defined.line)) ∧
      ∀ fault what key first, Definitions.ofProgram a p = .error fault → fault.fault = .duplicateDefinition what key first →
        ∃ table before earlier between later after,
          Defined.ofTable table all = before ++ earlier :: between ++ later :: after ∧ table.what = what ∧
          earlier.key = key ∧ later.key = key ∧ ((before ++ earlier :: between).map Defined.key).Nodup ∧
          earlier.origin = first ∧ fault.location = some later.origin := by
  obtain ⟨all, defined, registers⟩ := (Program.agrees_noted (stream.nodup_ids parsed) checked).registers
  refine ⟨all, defined, Definitions.ofProgram_isOk_iff registers, fun compiled succeeded => ?_,
    fun fault what key first failed isDuplicate => registers.of_duplicate failed isDuplicate⟩
  rw [succeeded] at registers
  obtain ⟨perm, distinct⟩ := registers.defined_perm
  refine ⟨?_, compiled.signatures_perm.trans (perm.map _)⟩
  rw [CompiledProgram.signatures_eq_listing distinct, Defined.listing_eq_of_perm perm]

/-- A method and a conversion before their class, and a function that has the signature of the method. -/
def readingAsMensch : String :=
  "Implementiere den Menschen:\n  Verb lies:\n    intern\n  .\n  Als Mensch:\n    intern\n  .\n.\n" ++
    "Nomen Mensch:\n.\nVerb lies:\n  intern\n.\n"

theorem readingAsMensch_listed :
    ∃ p a all, (TokenStream.ofText .none ⟨"satz"⟩ readingAsMensch).program = .ok p ∧ p.annotations ⟨[mensch]⟩ = .ok a ∧
      p.defined a = .ok all ∧ p.CollisionFree a all ∧
      Defined.listing all = ["Verb lies", "Nomen Mensch", "  Verb lies", "  Als Mensch"] := by
  have stream := TokenStream.ofText_eq .none ⟨"satz"⟩ readingAsMensch (by decide +kernel)
  have computed : ((TokenStream.ofText .none ⟨"satz"⟩ readingAsMensch).program.bind fun p =>
      (p.analyze ⟨[mensch]⟩).map CompiledProgram.signatures).toOption =
        some ["Verb lies", "Nomen Mensch", "  Verb lies", "  Als Mensch"] := by
    rw [stream]
    decide +kernel
  obtain ⟨p, compiled, parsed, analyzed, lines⟩ := exists_ok_of_map computed
  obtain ⟨a, definitions, checked, succeeded, _, rfl⟩ := Program.analyze_eq_ok.mp analyzed
  obtain ⟨all, defined, free, listed, _⟩ := TokenStream.ofProgram_collisions parsed checked
  refine ⟨p, a, all, parsed, checked, defined, free.mp ⟨definitions, succeeded⟩, ?_⟩
  rw [← (listed ⟨p, ⟨[mensch]⟩, a, definitions⟩ succeeded).1, lines]

end Satzbau

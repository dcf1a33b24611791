import Satzbau.Proofs.Defining.Placed
import Satzbau.Proofs.Defining.Resolution

namespace Satzbau

/-- A call names something where it stands: a function, or a method of some class where methods may be
named. -/
def Program.Names (p : Program) (a : Annotations) (placed : PlacedCall) : Prop :=
  ∃ key, placed.2.HasKey a key ∧
    ((∃ place f, p.HasFunction a key place f) ∨
      placed.1 ≠ .free ∧ ∃ owner place f, p.HasMethod a owner key place f)

theorem CallPlace.isOpen_iff {place : CallPlace} : place.isOpen = true ↔ place ≠ .free := by
  cases place <;> decide

namespace Definitions

variable {p : Program} {a : Annotations} {definitions : Definitions} {c : Call} {key : String}

/-- A call names a method exactly if some implementation has one with its signature. -/
theorem anyMethod?_isSome (described : definitions.Describe p a) (signed : definitions.signature? c = some key) :
    (definitions.anyMethod? c).isSome ↔ ∃ owner place f, p.HasMethod a owner key place f := by
  rw [anyMethod?, signed, Option.bind_some, List.findSome?_isSome_iff]
  constructor
  · rintro ⟨⟨owner, entry⟩, member, found⟩
    rw [Option.isSome_map] at found
    obtain ⟨method, inside⟩ := Option.isSome_iff_exists.mp found
    have known := Table.lookup_of_mem described.distinct (List.mem_mergeSort.mp member)
    have lists := described.methods owner
    rw [membersOf, known, Option.elim_some] at lists
    obtain ⟨f, there⟩ := lists.of_lookup inside
    exact ⟨owner, method.target, f, there⟩
  · rintro ⟨owner, place, f, there⟩
    have lists := described.methods owner
    obtain ⟨method, inside, _⟩ := lists.lookup_eq_some ⟨f, there⟩
    cases known : definitions.classes.lookup owner with
    | none =>
      rw [membersOf, known] at inside
      contradiction
    | some entry =>
      rw [membersOf, known, Option.elim_some] at inside
      refine ⟨(owner, entry), List.mem_mergeSort.mpr (Table.mem_of_lookup known), ?_⟩
      rw [Option.isSome_map, inside]
      rfl

theorem unresolved?_of_names (described : definitions.Describe p a) {place : CallPlace}
    (signed : definitions.signature? c = some key) (keyed : c.HasKey a key) (names : p.Names a (place, c)) :
    definitions.unresolved? place.isOpen c = none := by
  obtain ⟨other, keyed', names⟩ := names
  obtain rfl := keyed.unique keyed'
  rw [unresolved?, function_of_signature signed]
  cases known : definitions.functions.lookup key with
  | some entry => rfl
  | none =>
    obtain ⟨function, f, there⟩ | ⟨inMethods, named⟩ := names
    · exact absurd ⟨f, there⟩ (described.functions.of_lookup_eq_none known function)
    · have method := (anyMethod?_isSome described signed).mpr named
      simp [CallPlace.isOpen_iff.mpr inMethods, method]

theorem unresolved?_of_not_names (described : definitions.Describe p a) {place : CallPlace}
    (signed : definitions.signature? c = some key) (keyed : c.HasKey a key) (nameless : ¬ p.Names a (place, c)) :
    definitions.unresolved? place.isOpen c = some (c.verb.blame (.undefinedFunction key)) := by
  rw [unresolved?, function_of_signature signed]
  cases known : definitions.functions.lookup key with
  | some entry =>
    obtain ⟨f, there⟩ := described.functions.of_lookup known
    exact absurd ⟨key, keyed, .inl ⟨entry.target, f, there⟩⟩ nameless
  | none =>
    have closed : ¬ (place.isOpen && (definitions.anyMethod? c).isSome) = true := by
      rw [Bool.and_eq_true, CallPlace.isOpen_iff, anyMethod?_isSome described signed]
      exact fun named => nameless ⟨key, keyed, .inr named⟩
    rw [Option.elim_none]
    exact if_neg closed

/-- The verification looks at the calls in the order of the text, and at nothing of a place but whether
methods are open there. -/
theorem verify_eq (definitions : Definitions) (p : Program) : definitions.verify p =
    (p.placedCalls.findSome? fun placed => definitions.unresolved? placed.1.isOpen placed.2).elim (.ok ()) .error := by
  rw [verify, p.findSome?_visits definitions.unresolved?]
  · cases p.placedCalls.findSome? fun placed => definitions.unresolved? placed.1.isOpen placed.2 <;> rfl
  · rintro ⟨withMethods, node⟩
    cases node <;> rfl

theorem verify_isOk_iff : definitions.verify p = .ok () ↔
    ∀ placed ∈ p.placedCalls, definitions.unresolved? placed.1.isOpen placed.2 = none := by
  rw [verify_eq, ← List.findSome?_eq_none_iff]
  cases p.placedCalls.findSome? fun placed => definitions.unresolved? placed.1.isOpen placed.2 with
  | some fault => exact ⟨nofun, nofun⟩
  | none => exact ⟨fun _ => rfl, fun _ => rfl⟩

theorem verify_eq_error_iff {fault : Diagnostic} : definitions.verify p = .error fault ↔
    ∃ before placed after, p.placedCalls = before ++ placed :: after ∧
      definitions.unresolved? placed.1.isOpen placed.2 = some fault ∧
      ∀ earlier ∈ before, definitions.unresolved? earlier.1.isOpen earlier.2 = none := by
  rw [verify_eq, ← List.findSome?_eq_some_iff]
  cases p.placedCalls.findSome? fun placed => definitions.unresolved? placed.1.isOpen placed.2 with
  | some other => rw [Option.elim_some, Except.error.injEq, Option.some.injEq]
  | none => exact ⟨nofun, nofun⟩

end Definitions

section Verification

variable {stream : TokenStream} {p : Program} {a : Annotations} {definitions : Definitions}

/-- A call is at fault exactly if it names nothing where it stands, and its fault is that no function has
its signature. -/
theorem TokenStream.unresolved?_iff (parsed : stream.program = .ok p) (defined : Definitions.ofProgram a p = .ok definitions)
    {placed : PlacedCall} (member : placed ∈ p.placedCalls) :
    (definitions.unresolved? placed.1.isOpen placed.2 = none ↔ p.Names a placed) ∧
      ∀ fault, definitions.unresolved? placed.1.isOpen placed.2 = some fault ↔ ¬ p.Names a placed ∧
        ∃ key, placed.2.HasKey a key ∧ fault = placed.2.verb.blame (.undefinedFunction key) := by
  have described := Definitions.ofProgram_describe defined (p.nodup_callIds (stream.nodup_ids parsed))
  have inProgram : placed.2 ∈ p.calls := by
    rw [← p.placedCalls_calls]
    exact List.mem_map_of_mem member
  obtain ⟨key, keyed, signed⟩ := described.calls placed.2 inProgram
  by_cases names : p.Names a placed
  · rw [Definitions.unresolved?_of_names described signed keyed names]
    exact ⟨⟨fun _ => names, fun _ => rfl⟩, fun fault => ⟨nofun, fun blamed => absurd names blamed.1⟩⟩
  · rw [Definitions.unresolved?_of_not_names described signed keyed names]
    refine ⟨⟨nofun, fun named => absurd named names⟩, fun fault => ⟨?_, ?_⟩⟩
    · rintro ⟨⟩
      exact ⟨names, key, keyed, rfl⟩
    · rintro ⟨_, other, keyed', rfl⟩
      rw [keyed.unique keyed']

/-- The verification passes exactly if every call names something where it stands, and otherwise blames
the first one, in the order of the text, that does not. Methods may be named within implementations and
within method blocks, but also in the subject of a method block, in front of the block itself. -/
theorem TokenStream.verify_names (parsed : stream.program = .ok p)
    (defined : Definitions.ofProgram a p = .ok definitions) :
    (definitions.verify p = .ok () ↔ ∀ placed ∈ p.placedCalls, p.Names a placed) ∧
      ∀ fault, definitions.verify p = .error fault ↔
        ∃ before placed after key, p.placedCalls = before ++ placed :: after ∧
          (∀ earlier ∈ before, p.Names a earlier) ∧ ¬ p.Names a placed ∧ placed.2.HasKey a key ∧
          fault = placed.2.verb.blame (.undefinedFunction key) := by
  refine ⟨?_, fun fault => ?_⟩
  · rw [Definitions.verify_isOk_iff]
    exact forall₂_congr fun placed member => (unresolved?_iff parsed defined member).1
  · rw [Definitions.verify_eq_error_iff]
    -- What is before the call and the call itself are calls of the program, so each is settled by where it stands.
    have settled {before after : List PlacedCall} {placed other : PlacedCall}
        (cut : p.placedCalls = before ++ placed :: after) (inside : other ∈ before ∨ other = placed) := by
      have member : other ∈ p.placedCalls := by obtain early | rfl := inside <;> simp [*]
      exact unresolved?_iff parsed defined member
    constructor
    · rintro ⟨before, placed, after, cut, blamed, passed⟩
      obtain ⟨nameless, key, keyed, rfl⟩ := ((settled cut (.inr rfl)).2 fault).mp blamed
      exact ⟨before, placed, after, key, cut,
        fun earlier inside => (settled cut (.inl inside)).1.mp (passed earlier inside), nameless, keyed, rfl⟩
    · rintro ⟨before, placed, after, key, cut, named, nameless, keyed, rfl⟩
      exact ⟨before, placed, after, cut, ((settled cut (.inr rfl)).2 _).mpr ⟨nameless, key, keyed, rfl⟩,
        fun earlier inside => (settled cut (.inl inside)).1.mpr (named earlier inside)⟩

end Verification

/-- A function that is called, and a method that is called in the subject of a method block and within
the block. -/
def readingAsleep : String :=
  "Verb lies:\n  intern\n.\nNomen Mensch:\n.\nImplementiere den Menschen:\n  Verb schlafe:\n    intern\n  .\n.\n" ++
    "lies\nschlafe:\n  schlafe\n!\n"

theorem readingAsleep_verified :
    ∃ p a definitions, (TokenStream.ofText .none ⟨"satz"⟩ readingAsleep).program = .ok p ∧
      Definitions.ofProgram a p = .ok definitions ∧ p.placedCalls.map Prod.fst = [.free, .subject, .methods] ∧
      ∀ placed ∈ p.placedCalls, p.Names a placed := by
  have stream := TokenStream.ofText_eq .none ⟨"satz"⟩ readingAsleep (by decide +kernel)
  have computed : ((TokenStream.ofText .none ⟨"satz"⟩ readingAsleep).program.bind fun p =>
      (p.analyze ⟨[mensch]⟩).map fun _ => p.placedCalls.map Prod.fst).toOption = some [.free, .subject, .methods] := by
    rw [stream]
    decide +kernel
  obtain ⟨p, compiled, parsed, analyzed, places⟩ := exists_ok_of_map computed
  obtain ⟨a, definitions, _, defined, verified, _⟩ := Program.analyze_eq_ok.mp analyzed
  exact ⟨p, a, definitions, parsed, defined, places, (TokenStream.verify_names parsed defined).1.mp verified⟩

/-- A method block whose subject calls a method, where there is no function at all. -/
def readingSubject : String :=
  "Nomen Mensch:\n.\nImplementiere den Menschen:\n  Verb lies:\n    intern\n  .\n.\nlies:\n!\n"

/-- The subject of a method block stands in front of the block, but the verification accepts a method
there. -/
theorem readingSubject_accepted :
    ∃ p compiled, (TokenStream.ofText .none ⟨"satz"⟩ readingSubject).program = .ok p ∧
      p.analyze ⟨[mensch]⟩ = .ok compiled ∧ compiled.definitions.verify p = .ok () ∧
      p.placedCalls.map Prod.fst = [.subject] ∧ ∀ key place f, ¬ p.HasFunction compiled.annotations key place f := by
  have stream := TokenStream.ofText_eq .none ⟨"satz"⟩ readingSubject (by decide +kernel)
  have computed : ((TokenStream.ofText .none ⟨"satz"⟩ readingSubject).program.bind fun p =>
      (p.analyze ⟨[mensch]⟩).map fun compiled =>
        (p.placedCalls.map Prod.fst, compiled.definitions.functions.isEmpty)).toOption = some ([.subject], true) := by
    rw [stream]
    decide +kernel
  obtain ⟨p, compiled, parsed, analyzed, viewed⟩ := exists_ok_of_map computed
  obtain ⟨a, definitions, _, defined, verified, rfl⟩ := Program.analyze_eq_ok.mp analyzed
  obtain ⟨places, noFunctions⟩ := Prod.mk.inj viewed
  have described := Definitions.ofProgram_describe defined (p.nodup_callIds (TokenStream.nodup_ids parsed))
  refine ⟨p, _, parsed, analyzed, verified, places, fun key place f there => ?_⟩
  obtain ⟨entry, known, _⟩ := described.functions.lookup_eq_some ⟨f, there⟩
  rw [List.isEmpty_iff.mp noFunctions] at known
  contradiction

end Satzbau

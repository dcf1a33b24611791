import Satzbau.Proofs.Determiners.Statements
import Satzbau.Proofs.Text

namespace Satzbau

namespace Parser

variable {inner : Inner} {scope : Scope}

theorem Gives.resultType (persons : Persons) : Gives scope resultType fun result => ∀ p ∈ result, p.Determined persons := by
  unfold Parser.resultType
  refine .bind (.any _) fun open' _ => ?_
  split
  · refine .bind (.any _) fun noun _ => .bind (.any _) fun _ _ => .bind (.undetermined persons) fun p atPhrase => .pure ?_
    rintro _ ⟨⟩
    exact atPhrase
  · exact .pure (by simp)

namespace Inner.Determines

theorem ofFunction (h : inner.Determines) :
    Gives scope (Parser.function inner) (FunctionDefinition.BodyDetermined scope.persons) := by
  have header : Gives scope (Parser.header inner) fun f => ∀ result ∈ f.result, result.Determined scope.persons := by
    unfold Parser.header
    refine .bind (.any _) fun _ _ => .bind (.resultType scope.persons) fun result atResult => .bind (.any _) fun verb _ => ?_
    exact .bind (.any _) fun object _ => .bind (.any _) fun groups _ => .bind (.any _) fun suffix _ => .pure atResult
  unfold Parser.function
  exact .bind header fun f atResult => .bind h.ofBlock fun body inBody => .pure ⟨atResult, inBody⟩

theorem ofPlainFunction (h : inner.Determines) (outermost : scope.around = []) :
    Gives scope (Definition.function <$> within .function (Parser.function inner)) Definition.BodyDetermined := by
  obtain ⟨around, fileEnd⟩ := scope
  subst outermost
  exact .map (.within h.ofFunction) fun f known => known

theorem ofClassDefinition (h : inner.Determines) (outermost : scope.around = []) :
    Gives scope (Parser.classDefinition inner) Definition.BodyDetermined := by
  obtain ⟨around, fileEnd⟩ := scope
  subst outermost
  unfold Parser.classDefinition
  refine .within (.bind (.any _) fun _ _ => .bind (.any _) fun _ _ => .bind (.undetermined .object) fun name atName => ?_)
  refine .bind (.any _) fun along _ => ?_
  split
  · exact .bind (.any _) fun fields _ => .bind h.ofBlock fun body inBody => .pure ⟨atName, inBody⟩
  · exact .bind (.any _) fun fields _ => .bind h.ofBlock fun body inBody => .pure ⟨atName, inBody⟩

theorem ofConversionDefinition (h : inner.Determines) (within : scope.around = [.implementation]) :
    Gives scope (Parser.conversionDefinition inner) ConversionDefinition.Determined := by
  obtain ⟨around, fileEnd⟩ := scope
  subst within
  unfold Parser.conversionDefinition
  exact .within (.bind (.any _) fun _ _ => .bind (.any _) fun _ _ => .bind (.undetermined .object) fun target atTarget =>
    .bind h.ofBlock fun body inBody => .pure ⟨atTarget, inBody⟩)

theorem ofMembers (h : inner.Determines) (within : scope.around = [.implementation]) :
    Gives scope (Parser.members inner) fun found =>
      (∀ m ∈ found.1, m.BodyDetermined .object) ∧ ∀ c ∈ found.2, c.Determined := by
  have later := h.members scope within
  have conversion := h.ofConversionDefinition within
  obtain ⟨around, fileEnd⟩ := scope
  subst within
  unfold Parser.members
  refine .bind (.any _) fun _ _ => .bind (.any _) fun token _ => ?_
  split
  · exact .bind (.any _) fun _ _ => .pure (by simp)
  · refine .bind (.within h.ofFunction) fun method inMethod => .bind (.any _) fun _ _ => ?_
    refine .bind later fun found atOthers => .pure ⟨?_, atOthers.2⟩
    exact List.forall_mem_cons.mpr ⟨inMethod, atOthers.1⟩
  · refine .bind conversion fun conversion inConversion => .bind (.any _) fun _ _ => ?_
    refine .bind later fun found atOthers => .pure ⟨atOthers.1, ?_⟩
    exact List.forall_mem_cons.mpr ⟨inConversion, atOthers.2⟩
  · exact .unexpected _

theorem ofImplementation (h : inner.Determines) (outermost : scope.around = []) :
    Gives scope (Parser.implementation inner) Definition.BodyDetermined := by
  unfold Parser.implementation
  refine .within (.bind (.any _) fun _ _ => .bind (.any _) fun _ _ => .bind (.any _) fun _ _ => ?_)
  exact .bind (h.members _ (congrArg _ outermost)) fun found known => .pure known

theorem ofDeclension : Gives scope Parser.declension Definition.BodyDetermined := by
  unfold Parser.declension
  exact .within (.bind (.any _) fun _ _ => .bind (.any _) fun _ _ => .pure trivial)

theorem ofProgram (h : inner.Determines) (outermost : scope.around = []) :
    Gives scope (Parser.program inner) Program.BodiesDetermined := by
  have later := h.program scope outermost
  have define {p : Parser Definition} (gives : Gives scope p Definition.BodyDetermined) : Gives scope (do
      let definition ← p
      endStatement .fileEnd
      let rest ← inner.program
      return { rest with definitions := definition :: rest.definitions }) Program.BodiesDetermined :=
    .bind gives fun definition known => .bind (.any _) fun _ _ => .bind later fun others atOthers =>
      .pure ⟨List.forall_mem_cons.mpr ⟨known, atOthers.1⟩, atOthers.2⟩
  have nothing : Program.BodiesDetermined .empty := ⟨by simp [Program.empty], trivial⟩
  unfold Parser.program
  refine .bind (.any _) fun _ _ => .bind (.any _) fun token _ => ?_
  split
  · exact .pure nothing
  · exact define (h.ofPlainFunction outermost)
  · exact define (h.ofClassDefinition outermost)
  · exact define (h.ofImplementation outermost)
  · exact define ofDeclension
  · obtain ⟨around, fileEnd⟩ := scope
    subst outermost
    exact .bind h.ofStatement fun first atFirst => .bind (.any _) fun _ _ => .bind later fun others atOthers =>
      .pure ⟨atOthers.1, atFirst, atOthers.2⟩

end Inner.Determines

theorem inner_determines (size : Nat) : (Parser.inner size).Determines := by
  induction size with
  | zero => exact Inner.determines_none
  | succ size h =>
    exact {
      expression := fun scope least => h.ofBinary least
      operators := fun scope least left known => h.ofOperators least left known
      conversions := fun scope value known => h.ofConversions value known
      phrase := fun scope determiner kind noun isKind => h.ofPhrase noun isKind
      items := fun scope => h.ofItems h.ofExpression
      arguments := fun scope => h.ofArguments
      groups := fun scope => h.ofGroups
      statements := fun scope close expected => h.ofStatements close expected
      alternatives := fun scope => h.ofAlternatives
      members := fun scope within => h.ofMembers within
      program := fun scope outermost => h.ofProgram outermost }

end Parser

/-- In a program that was read, every determiner stands where it may, except that nothing is asked of
those of parameters, of fields and of the class that is implemented. -/
theorem TokenStream.program_determined_iff {stream : TokenStream} {p : Program} (parsed : stream.program = .ok p) :
    p.Determined ↔ ∀ d ∈ p.definitions, d.HeadDetermined := by
  obtain ⟨t, run⟩ := program_eq_ok.mp parsed
  have bodies := (Parser.inner_determines stream.items.length).ofProgram rfl _ p t run
  rw [p.determined_iff]
  exact and_iff_left bodies

/-- A method that takes what belongs to its object, a subject that is spoken to, and a loop. -/
def feedingAnimals : String :=
  "Implementiere den Menschen:\n  Verb füttere mein Tier:\n    mein Futter ist 1\n  .\n.\n" ++
    "der Mensch:\n  füttere dein Tier\n!\nfür jedes Tier:\n.\n"

theorem feedingAnimals_determined :
    ∃ p, (TokenStream.ofText .none ⟨"satz"⟩ feedingAnimals).program = .ok p ∧
      (p.definitions.length, p.statements.length) = (1, 2) ∧ p.Determined := by
  have stream := TokenStream.ofText_eq .none ⟨"satz"⟩ feedingAnimals (by decide +kernel)
  have computed : ((TokenStream.ofText .none ⟨"satz"⟩ feedingAnimals).program.map fun p =>
      ((p.definitions.length, p.statements.length), decide (∀ d ∈ p.definitions, d.HeadDetermined))).toOption =
        some ((1, 2), true) := by
    rw [stream]
    decide +kernel
  obtain ⟨p, parsed, viewed⟩ := exists_ok_of_view computed
  obtain ⟨lengths, heads⟩ := Prod.mk.inj viewed
  exact ⟨p, parsed, lengths, (TokenStream.program_determined_iff parsed).mpr (of_decide_eq_true heads)⟩

/-- A parameter that belongs to somebody, in a function where there is nobody. -/
def writingMine : String :=
  "Verb schreibe meine Zahl:\n  intern\n.\n"

theorem writingMine_undetermined :
    ∃ p, (TokenStream.ofText .none ⟨"satz"⟩ writingMine).program = .ok p ∧ ¬ p.Determined := by
  have stream := TokenStream.ofText_eq .none ⟨"satz"⟩ writingMine (by decide +kernel)
  have computed : ((TokenStream.ofText .none ⟨"satz"⟩ writingMine).program.map fun p =>
      decide (∀ d ∈ p.definitions, d.HeadDetermined)).toOption = some false := by
    rw [stream]
    decide +kernel
  obtain ⟨p, parsed, viewed⟩ := exists_ok_of_view computed
  exact ⟨p, parsed, fun determined => of_decide_eq_false viewed (p.determined_iff.mp determined).1⟩

end Satzbau

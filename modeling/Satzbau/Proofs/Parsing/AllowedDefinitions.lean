import Satzbau.Proofs.Parsing.AllowedStatements
import Satzbau.Proofs.Text

namespace Satzbau

namespace Parser

variable {inner : Inner} {scope : Scope}

namespace Inner.Allows

theorem ofFunction (h : inner.Allows) :
    Gives scope (Parser.function inner) fun f => blockAllowed scope.surroundings f.body := by
  unfold Parser.function
  exact .bind (.any _) fun header _ => .bind h.ofBlock fun body inBody => .pure inBody

/-- A function that is no method. -/
theorem ofPlainFunction (h : inner.Allows) (outermost : scope.around = []) :
    Gives scope (Definition.function <$> within .function (Parser.function inner)) Definition.Allowed := by
  have outside : .method ∉ Construct.function :: scope.around := by
    rw [outermost]
    decide
  obtain ⟨around, fileEnd⟩ := scope
  subst outermost
  have within : Gives ⟨[.function], fileEnd⟩ (Parser.function inner) fun f =>
      ¬ f.header.IsReflexive ∧ blockAllowed .ofFunction f.body :=
    .bind (.header inner outside) fun header known => .bind h.ofBlock fun body inBody => .pure ⟨known, inBody⟩
  exact .map (.within within) fun f known => known

theorem ofClassDefinition (h : inner.Allows) (outermost : scope.around = []) :
    Gives scope (Parser.classDefinition inner) Definition.Allowed := by
  obtain ⟨around, fileEnd⟩ := scope
  subst outermost
  unfold Parser.classDefinition
  refine .within (.bind (.any _) fun _ _ => .bind (.any _) fun _ _ => .bind (.any _) fun _ _ => ?_)
  refine .bind (.any _) fun along _ => ?_
  split
  · exact .bind (.any _) fun fields _ => .bind h.ofBlock fun body inBody => .pure inBody
  · exact .bind (.any _) fun fields _ => .bind h.ofBlock fun body inBody => .pure inBody

theorem ofConversionDefinition (h : inner.Allows) :
    Gives scope (Parser.conversionDefinition inner) fun c =>
      blockAllowed { scope with around := .conversion :: scope.around }.surroundings c.body := by
  unfold Parser.conversionDefinition
  exact .within (.bind (.any _) fun _ _ => .bind (.any _) fun _ _ => .bind (.any _) fun _ _ =>
    .bind h.ofBlock fun body inBody => .pure inBody)

theorem ofMembers (h : inner.Allows) (within : scope.around = [.implementation]) :
    Gives scope (Parser.members inner) fun found =>
      (∀ f ∈ found.1, blockAllowed .ofMember f.body) ∧ ∀ c ∈ found.2, blockAllowed .ofMember c.body := by
  have later := h.members scope within
  obtain ⟨around, fileEnd⟩ := scope
  subst within
  unfold Parser.members
  refine .bind (.any _) fun _ _ => .bind (.any _) fun token _ => ?_
  split
  · exact .bind (.any _) fun _ _ => .pure (by simp)
  · refine .bind (.within h.ofFunction) fun method inMethod => .bind (.any _) fun _ _ => ?_
    refine .bind later fun found atOthers => .pure ⟨?_, atOthers.2⟩
    exact List.forall_mem_cons.mpr ⟨inMethod, atOthers.1⟩
  · refine .bind h.ofConversionDefinition fun conversion inConversion => .bind (.any _) fun _ _ => ?_
    refine .bind later fun found atOthers => .pure ⟨atOthers.1, ?_⟩
    exact List.forall_mem_cons.mpr ⟨inConversion, atOthers.2⟩
  · exact .unexpected _

theorem ofImplementation (h : inner.Allows) (outermost : scope.around = []) :
    Gives scope (Parser.implementation inner) Definition.Allowed := by
  unfold Parser.implementation
  refine .within (.bind (.any _) fun _ _ => .bind (.any _) fun _ _ => .bind (.any _) fun _ _ => ?_)
  exact .bind (h.members _ (congrArg _ outermost)) fun found known => .pure known

theorem ofDeclension : Gives scope Parser.declension Definition.Allowed := by
  unfold Parser.declension
  exact .within (.bind (.any _) fun _ _ => .bind (.any _) fun _ _ => .pure trivial)

theorem ofProgram (h : inner.Allows) (outermost : scope.around = []) :
    Gives scope (Parser.program inner) Program.Allowed := by
  have later := h.program scope outermost
  have define {p : Parser Definition} (gives : Gives scope p Definition.Allowed) : Gives scope (do
      let definition ← p
      endStatement .fileEnd
      let rest ← inner.program
      return { rest with definitions := definition :: rest.definitions }) Program.Allowed :=
    .bind gives fun definition known => .bind (.any _) fun _ _ => .bind later fun others atOthers =>
      .pure ⟨List.forall_mem_cons.mpr ⟨known, atOthers.1⟩, atOthers.2⟩
  have nothing : Program.Allowed .empty := ⟨by simp [Program.empty], trivial⟩
  unfold Parser.program
  refine .bind (.any _) fun _ _ => .bind (.any _) fun token _ => ?_
  split
  · exact .pure nothing
  · exact define (h.ofPlainFunction outermost)
  · exact define (h.ofClassDefinition outermost)
  · exact define (h.ofImplementation outermost)
  · exact define ofDeclension
  · obtain ⟨around, fileEnd⟩ := scope
    subst outermost
    exact .bind h.ofStatement fun first atFirst => .bind (.any _) fun _ _ => .bind later fun others atOthers =>
      .pure ⟨atOthers.1, atFirst, atOthers.2⟩

end Inner.Allows

theorem inner_allows (size : Nat) : (Parser.inner size).Allows := by
  induction size with
  | zero => exact Inner.allows_none
  | succ size h =>
    exact {
      expression := fun scope least => h.ofBinary least
      operators := fun scope least left known => h.ofOperators least left known
      conversions := fun scope value known => h.ofConversions value known
      phrase := fun scope determiner kind noun => h.ofPhrase determiner kind noun
      items := fun scope => h.ofItems h.ofExpression
      arguments := fun scope => h.ofArguments
      groups := fun scope => h.ofGroups
      statements := fun scope close expected => h.ofStatements close expected
      alternatives := fun scope => h.ofAlternatives
      members := fun scope within => h.ofMembers within
      program := fun scope outermost => h.ofProgram outermost }

end Parser

theorem TokenStream.not_isReflexive {stream : TokenStream} {p : Program} (parsed : stream.program = .ok p) :
    ∀ f, .function f ∈ p.definitions → ¬f.header.IsReflexive := by
  obtain ⟨t, run⟩ := program_eq_ok.mp parsed
  have allowed := (Parser.inner_allows stream.items.length).ofProgram rfl _ p t run
  exact fun f member => (allowed.1 (.function f) member).1

/-- In a program that was read, everything that depends on what is around it stands where it may: what
a body gives back in a body, what controls a loop in a loop, and what speaks of `ich` or to `du` where
there is someone to be spoken of. -/
theorem TokenStream.program_allowed {stream : TokenStream} {p : Program} (parsed : stream.program = .ok p) : p.Allowed := by
  obtain ⟨t, run⟩ := program_eq_ok.mp parsed
  exact (Parser.inner_allows stream.items.length).ofProgram rfl _ p t run

/-- A method that speaks of itself, a loop that is left, and a subject that is spoken to. -/
def washingOneself : String :=
  "Implementiere den Menschen:\n  Verb wasche mich:\n    wasche mich\n    zurück\n  .\n.\n" ++
    "solange wahr:\n  abbrechen\n.\nder Mensch:\n  wasche dich\n!\n"

theorem washingOneself_allowed :
    ∃ p, (TokenStream.ofText .none ⟨"satz"⟩ washingOneself).program = .ok p ∧
      (p.definitions.length, p.statements.length) = (1, 2) ∧ p.Allowed := by
  have stream := TokenStream.ofText_eq .none ⟨"satz"⟩ washingOneself (by decide +kernel)
  have computed : ((TokenStream.ofText .none ⟨"satz"⟩ washingOneself).program.map fun p =>
      (p.definitions.length, p.statements.length)).toOption = some (1, 2) := by
    rw [stream]
    decide +kernel
  obtain ⟨p, parsed, viewed⟩ := exists_ok_of_view computed
  exact ⟨p, parsed, viewed, TokenStream.program_allowed parsed⟩

end Satzbau

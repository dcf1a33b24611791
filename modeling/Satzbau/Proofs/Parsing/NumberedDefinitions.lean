import Satzbau.Parser.Run
import Satzbau.Proofs.Parsing.NumberedStatements

namespace Satzbau.Parser

variable {fact front : Token → Prop}

theorem Delivers.determinedNoun : Delivers fact front [] determinedNoun (fun p => [p.id])
    fun p => p.IsRole fact := by
  unfold Parser.determinedNoun
  refine .bind .expectDeterminer fun found isDeterminer => .bind .expectNoun fun noun isNoun => ?_
  obtain ⟨determiner, kind⟩ := found
  refine .weaken (.nounPhrase isNoun (by simp [isDeterminer.1, isDeterminer.2])) (fun _ => .refl _) fun p known => ?_
  exact ⟨by simp [known.1], known.2⟩

theorem Delivers.parameter : Delivers fact front [] parameter (fun p => idsOf p.occurrences)
    fun p => p.phrase.IsRole fact := by
  unfold Parser.parameter
  refine .bind .determinedNoun fun phrase role => .look (.at? _) fun named => ?_
  split
  · exact .bind .advance fun _ _ => .pure (.refl _) role
  · exact .pure (.refl _) role

theorem Delivers.headerObject : Delivers fact front [] headerObject
    (fun object => idsOf (object.toList.flatMap Parameter.occurrences))
    fun object => ∀ p ∈ object.toList, p.phrase.IsRole fact := by
  have reflexive {front : Token → Prop} : Delivers fact front [] (do
        let token ← Parser.advance
        Parser.require token [.method] "a method definition"
        return .reflexive token : Parser (ObjectRole Parameter))
      (fun object => idsOf (object.toList.flatMap Parameter.occurrences))
      fun object => ∀ p ∈ object.toList, p.phrase.IsRole fact :=
    .bind .advance fun token _ => .look (.require token _ _) fun _ =>
      .pure (by simp [ObjectRole.toList]) (by simp [ObjectRole.toList])
  unfold Parser.headerObject
  refine .look .peek fun token => ?_
  split
  · refine .bind .parameter fun p role => .pure (by simp [ObjectRole.toList]) ?_
    simpa [ObjectRole.toList] using role
  · exact reflexive
  · exact reflexive
  · exact .pure (by simp [ObjectRole.toList]) (by simp [ObjectRole.toList])

theorem Delivers.resultType : Delivers fact front [] resultType
    (fun result => idsOf (result.toList.map .phrase)) fun result => ∀ p ∈ result, p.Written fact := by
  unfold Parser.resultType
  refine .bind (.eat _) fun opened _ => ?_
  split
  · refine .bind .expectNoun fun noun isNoun => .bind (.expect _ _) fun _ _ => ?_
    refine .bind (.nounPhrase isNoun (by simp)) fun p known => .pure (by simp) ?_
    simpa using known.2
  · exact .pure (by simp) (by simp)

theorem Delivers.forms : Delivers fact front [] forms (fun _ => []) fun _ => True := by
  unfold Parser.forms
  refine .bind (.expect _ _) fun _ _ => .bind .expectNoun fun _ _ => .bind (.expect _ _) fun _ _ => ?_
  refine .bind .expectNoun fun _ _ => .bind (.expect _ _) fun _ _ => .bind .expectNoun fun _ _ => ?_
  refine .bind (.expect _ _) fun _ _ => .bind .expectNoun fun _ _ => .bind (.expect _ _) fun _ _ => ?_
  exact .pure (.refl _) trivial

theorem Delivers.gender : Delivers fact front [] gender (fun _ => []) fun _ => True := by
  unfold Parser.gender
  refine .look .peek fun token => ?_
  split
  · exact .bind .advance fun _ _ => .pure (.refl _) trivial
  · exact .unexpected _

theorem Delivers.declensionSource : Delivers fact front [] declensionSource (fun _ => []) fun _ => True := by
  unfold Parser.declensionSource
  refine .bind (.eat _) fun external _ => ?_
  split
  · refine .bind (.expect _ _) fun _ _ => .bind .expectNoun fun _ _ => .bind (.expect _ _) fun _ _ => ?_
    exact .pure (.refl _) trivial
  · refine .bind .gender fun _ _ => .bind (.expect _ _) fun _ _ => .bind .forms fun _ _ => ?_
    exact .bind (.expect _ _) fun _ _ => .bind .forms fun _ _ => .pure (.refl _) trivial

/-- What is known of a definition that was read. -/
def DefinitionWritten (fact : Token → Prop) (d : Definition) : Prop :=
  AllWritten fact d.occurrences ∧ ∀ f ∈ d.functions, f.header.roles.Written fact

theorem Delivers.declension : Delivers fact front [] declension (fun d => idsOf d.occurrences)
    (DefinitionWritten fact) := by
  refine .within _ (.bind (.expect _ _) fun token _ => .bind .declensionSource fun source _ => ?_)
  exact .pure (.refl _) (by simp [DefinitionWritten, Definition.occurrences, Definition.functions])

namespace Inner.Delivers

variable {inner : Inner}

theorem ofParameters (h : inner.Delivers fact) :
    Parser.Delivers fact front [] (Parser.parameters inner)
      (fun parameters => idsOf (parameters.flatMap Parameter.occurrences)) (ParametersWritten fact) := by
  unfold Parser.parameters
  refine .bind .parameter fun first role => .bind (.eat _) fun more _ => ?_
  split
  · refine .bind h.parameters fun later roles => .pure (by simp) ⟨by simp, ?_⟩
    simp only [List.mem_cons]
    rintro p (rfl | inLater)
    · exact role
    · exact roles.2 p inLater
  · exact .pure (by simp) ⟨by simp, by simpa using role⟩

theorem ofHeaderGroups (h : inner.Delivers fact) :
    Parser.Delivers fact front [] (Parser.headerGroups inner)
      (fun groups => idsOf ((groups.flatMap PrepositionGroup.items).flatMap Parameter.occurrences))
      (HeaderGroupsWritten fact) := by
  unfold Parser.headerGroups
  refine .look .atPreposition fun found => ?_
  split
  · rename_i there
    refine .bind .advance fun preposition atPreposition => .bind h.ofParameters fun items atItems => ?_
    refine .bind h.headerGroups fun later atLater => .pure (by simp) ?_
    simp only [HeaderGroupsWritten, List.mem_cons]
    rintro g (rfl | inLater)
    · exact ⟨⟨atPreposition.1.2 there, atPreposition.2⟩, atItems⟩
    · exact atLater g inLater
  · exact .pure (by simp) (by simp [HeaderGroupsWritten])

theorem ofHeader (h : inner.Delivers fact) :
    Parser.Delivers fact front [] (Parser.header inner) (fun h => idsOf h.occurrences)
      fun h => AllWritten fact h.occurrences ∧ h.roles.Written fact := by
  unfold Parser.header
  refine .bind (.expect _ _) fun _ _ => .bind .resultType fun result atResult => ?_
  refine .bind (.expect _ _) fun verb isVerb => .bind .headerObject fun object atObject => ?_
  refine .bind h.ofHeaderGroups fun groups atGroups => .bind optionalWord fun suffix atSuffix => ?_
  refine .pure (by simp [FunctionHeader.occurrences, FunctionHeader.parameters]) ⟨?_, .map isVerb atObject atGroups atSuffix⟩
  simp only [FunctionHeader.occurrences, FunctionHeader.parameters, allWritten_append, allWritten_flatMap]
  constructor
  · intro o inside
    obtain ⟨p, member, rfl⟩ := List.mem_map.mp inside
    exact atResult p (by simpa using member)
  · intro p inside
    have role : p.phrase.IsRole fact := by
      obtain inObject | inGroup := List.mem_append.mp inside
      · exact atObject p inObject
      · obtain ⟨g, member, among⟩ := List.mem_flatMap.mp inGroup
        exact (atGroups g member).2.2 p among
    simp [Parameter.occurrences, Occurrence.Written, role.2]

theorem ofFunction (h : inner.Delivers fact) :
    Parser.Delivers fact front [] (Parser.function inner) (fun f => idsOf f.occurrences) (FunctionWritten fact) := by
  unfold Parser.function
  refine .bind h.ofHeader fun header atHeader => .bind h.ofBlock fun body atBody => ?_
  refine .pure (by simp [FunctionDefinition.occurrences]) ⟨?_, atHeader.2⟩
  simp [FunctionDefinition.occurrences, atHeader.1, atBody]

theorem ofClassDefinition (h : inner.Delivers fact) :
    Parser.Delivers fact front [] (Parser.classDefinition inner) (fun d => idsOf d.occurrences)
      (DefinitionWritten fact) := by
  unfold Parser.classDefinition
  refine .within _ (.bind (.expect _ _) fun token _ => .bind .expectNoun fun noun isNoun => ?_)
  refine .bind (.nounPhrase isNoun (by simp)) fun name atName => .bind (.eat _) fun along _ => ?_
  have rest {front : Token → Prop} (fields : List Parameter) (roles : ∀ p ∈ fields, p.phrase.IsRole fact) :
      Parser.Delivers fact front (name.id :: idsOf (fields.flatMap Parameter.occurrences)) (do
          return .noun ⟨token, name, fields, ← Parser.block inner⟩)
        (fun d => idsOf d.occurrences) (DefinitionWritten fact) := by
    refine .bind h.ofBlock fun body atBody => .pure (by simp [Definition.occurrences]) ⟨?_, by simp [Definition.functions]⟩
    have inFields : AllWritten fact (fields.flatMap Parameter.occurrences) := by
      rw [allWritten_flatMap]
      intro p inside
      simp [Parameter.occurrences, Occurrence.Written, (roles p inside).2]
    simp [Definition.occurrences, Occurrence.Written, atName.2, inFields, atBody]
  split
  · exact .bind h.ofParameters fun fields roles => rest fields roles.2
  · exact rest [] (by simp)

theorem ofConversionDefinition (h : inner.Delivers fact) :
    Parser.Delivers fact front [] (Parser.conversionDefinition inner) (fun c => idsOf c.occurrences)
      fun c => AllWritten fact c.occurrences := by
  unfold Parser.conversionDefinition
  refine .within _ (.bind (.expect _ _) fun token _ => .bind .expectNoun fun noun isNoun => ?_)
  refine .bind (.nounPhrase isNoun (by simp)) fun target atTarget => .bind h.ofBlock fun body atBody => ?_
  refine .pure (by simp [ConversionDefinition.occurrences]) ?_
  simp [ConversionDefinition.occurrences, Occurrence.Written, atTarget.2, atBody]

theorem ofMembers (h : inner.Delivers fact) :
    Parser.Delivers fact front [] (Parser.members inner)
      (fun found => idsOf (found.1.flatMap FunctionDefinition.occurrences ++
        found.2.flatMap ConversionDefinition.occurrences))
      fun found => (∀ f ∈ found.1, FunctionWritten fact f) ∧
        AllWritten fact (found.2.flatMap ConversionDefinition.occurrences) := by
  unfold Parser.members
  refine .bind .skipLineEnds fun _ _ => .look .peek fun token => ?_
  split
  · exact .bind .advance fun _ _ => .pure (by simp) (by simp)
  · refine .bind (.within _ h.ofFunction) fun method atMethod => .bind (.endStatement _) fun _ _ => ?_
    refine .bind h.members fun found atFound => .pure (by simp) ⟨?_, atFound.2⟩
    simp only [List.mem_cons]
    rintro f (rfl | inLater)
    · exact atMethod
    · exact atFound.1 f inLater
  · refine .bind h.ofConversionDefinition fun conversion atConversion => .bind (.endStatement _) fun _ _ => ?_
    refine .bind h.members fun found atFound => .pure ?_ ⟨atFound.1, ?_⟩
    · simpa using List.perm_append_comm_assoc _ _ _
    · simp only [List.flatMap_cons, allWritten_append]
      exact ⟨atConversion, atFound.2⟩
  · exact .unexpected _

theorem ofImplementation (h : inner.Delivers fact) :
    Parser.Delivers fact front [] (Parser.implementation inner) (fun d => idsOf d.occurrences)
      (DefinitionWritten fact) := by
  unfold Parser.implementation
  refine .within _ (.bind (.expect _ _) fun token _ => .bind .determinedNoun fun owner role => ?_)
  refine .bind (.expect _ _) fun _ _ => .bind h.members fun found atFound => .pure ?_ ⟨?_, ?_⟩
  · simp [Definition.occurrences]
  · simp only [Definition.occurrences, allWritten_cons, allWritten_append, allWritten_flatMap]
    exact ⟨role.2, fun f inside => (atFound.1 f inside).1, by simpa using atFound.2⟩
  · exact fun f inside => (atFound.1 f inside).2

theorem ofProgram (h : inner.Delivers fact) :
    Parser.Delivers fact front [] (Parser.program inner) (fun p => idsOf p.occurrences) (ProgramWritten fact) := by
  unfold Parser.program
  refine .bind .skipLineEnds fun _ _ => ?_
  have define {front : Token → Prop} (p : Parser Definition)
      (delivers : Parser.Delivers fact front [] p (fun d => idsOf d.occurrences) (DefinitionWritten fact)) :
      Parser.Delivers fact front [] (do
          let definition ← p
          Parser.endStatement .fileEnd
          let rest ← inner.program
          return { rest with definitions := definition :: rest.definitions })
        (fun p => idsOf p.occurrences) (ProgramWritten fact) := by
    refine .bind delivers fun definition atDefinition => .bind (.endStatement _) fun _ _ => ?_
    refine .bind h.program fun rest atRest => .pure (by simp [Program.occurrences]) ⟨?_, ?_⟩
    · have atOthers := atRest.1
      rw [Program.occurrences, allWritten_append] at atOthers
      simp only [Program.occurrences, List.flatMap_cons, allWritten_append]
      exact ⟨⟨atDefinition.1, atOthers.1⟩, atOthers.2⟩
    · simp only [Program.headers, List.flatMap_cons, List.map_append, List.mem_append]
      rintro header (inThis | inOthers)
      · obtain ⟨f, member, rfl⟩ := List.mem_map.mp inThis
        exact atDefinition.2 f member
      · exact atRest.2 header inOthers
  refine .look .peek fun token => ?_
  split
  · refine .pure (by simp [Program.occurrences, Program.empty, blockOccurrences]) ⟨?_, by simp [Program.headers, Program.empty]⟩
    simp [Program.occurrences, Program.empty, blockOccurrences]
  · refine define _ (.map (.within _ h.ofFunction) (fun f => .refl _) fun f atFunction => ?_)
    exact ⟨atFunction.1, by simpa [Definition.functions] using atFunction.2⟩
  · exact define _ h.ofClassDefinition
  · exact define _ h.ofImplementation
  · exact define _ .declension
  · refine .bind h.ofStatement fun first atFirst => .bind (.endStatement _) fun _ _ => ?_
    refine .bind h.program fun rest atRest => .pure ?_ ⟨?_, atRest.2⟩
    · simpa [Program.occurrences, blockOccurrences] using List.perm_append_comm_assoc _ _ _
    · have atOthers := atRest.1
      rw [Program.occurrences, allWritten_append] at atOthers
      simp only [Program.occurrences, blockOccurrences, allWritten_append]
      exact ⟨atOthers.1, atFirst, atOthers.2⟩

theorem ofInner (size : Nat) : (Parser.inner size).Delivers fact := by
  induction size with
  | zero => exact .ofNone
  | succ size ih =>
    exact {
      expression := ih.ofBinary
      operators := ih.ofOperators
      conversions := ih.ofConversions
      phrase := ih.ofPhrase
      items := ih.ofItems (ih.ofBinary 0)
      arguments := ih.ofArguments
      groups := ih.ofGroups
      statements := ih.ofStatements
      alternatives := ih.ofAlternatives
      parameters := ih.ofParameters
      headerGroups := ih.ofHeaderGroups
      members := ih.ofMembers
      program := ih.ofProgram }

end Inner.Delivers

end Satzbau.Parser

namespace Satzbau.TokenStream

theorem delivers {stream : TokenStream} {p : Program} {fact : Token → Prop} (parsed : stream.program = .ok p)
    (atEnd : fact stream.fileEnd) (inside : ∀ token, .ok token ∈ stream.items → fact token) :
    (∃ bound, (idsOf p.occurrences).Perm (List.range' 0 bound)) ∧ Parser.ProgramWritten fact p := by
  unfold TokenStream.program at parsed
  cases run : Parser.complete Parser.program ⟨[], stream.fileEnd⟩ ⟨stream.items, 0⟩ with
  | error fault =>
    rw [run] at parsed
    contradiction
  | ok step =>
    rw [run] at parsed
    cases parsed
    obtain ⟨_, _, numbered, written⟩ :=
      Parser.Inner.Delivers.ofProgram (.ofInner _) _ _ step.1 step.2 ⟨atEnd, inside⟩
        (fun _ _ => (trivial : True)) run
    exact ⟨⟨_, numbered⟩, written⟩

/-- Phrases and calls of a program have different ids. -/
theorem nodup_ids {stream : TokenStream} {p : Program} (parsed : stream.program = .ok p) :
    (idsOf p.occurrences).Nodup := by
  obtain ⟨⟨bound, numbered⟩, _⟩ := @delivers stream p (fun _ => True) parsed trivial fun _ _ => trivial
  exact numbered.nodup_iff.mpr List.nodup_range'

/-- A program consists of tokens of its stream, each in a place for its kind. -/
theorem program_written {stream : TokenStream} {p : Program} {fact : Token → Prop} (parsed : stream.program = .ok p)
    (atEnd : fact stream.fileEnd) (inside : ∀ token, .ok token ∈ stream.items → fact token) :
    Parser.ProgramWritten fact p :=
  (delivers parsed atEnd inside).2

end Satzbau.TokenStream

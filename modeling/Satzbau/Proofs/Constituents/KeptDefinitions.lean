import Satzbau.Proofs.Constituents.KeptStatements
import Satzbau.Proofs.Parsing.NumberedDefinitions

namespace Satzbau.Parser

variable {front : Token → Prop}

theorem Keeps.determinedNoun : Keeps front [] determinedNoun (Just NounPhrase.slots) := by
  unfold Parser.determinedNoun
  exact .bind .expectDeterminer fun found => .bind .expectNoun fun noun => .name fun id => .pure rfl

theorem Keeps.parameter : Keeps front [] parameter (Just fun p => slotsOf p.constituents) := by
  unfold Parser.parameter
  refine .bind .determinedNoun fun phrase => .look (.at? _) fun named => ?_
  split
  · rename_i there
    refine .bind (.take fun _ known => by simp [known.2 there]) fun name => .pure ?_
    simp [Just, Parameter.constituents, Constituent.slots]
  · exact .pure (by simp [Just, Parameter.constituents, Constituent.slots])

theorem Keeps.headerObject : Keeps front [] headerObject (Just fun object => slotsOf (headerObjectConstituents object)) := by
  have reflexive {front : Token → Prop} (inside : ∀ token, front token → token.kind ≠ .fileEnd) :
      Keeps front [] (do
          let token ← Parser.advance
          Parser.require token [.method] "a method definition"
          return .reflexive token : Parser (ObjectRole Parameter))
        (Just fun object => slotsOf (headerObjectConstituents object)) :=
    .bind (.take inside) fun token => .look (.require token _ _) fun _ => .pure rfl
  unfold Parser.headerObject
  refine .look .peek fun token => ?_
  split
  · exact .bind .parameter fun p => .pure rfl
  · rename_i kind
    exact reflexive fun _ known => by simp [known.2, kind]
  · rename_i kind
    exact reflexive fun _ known => by simp [known.2, kind]
  · exact .pure rfl

theorem Keeps.resultType : Keeps front [] resultType (Just fun result => slotsOf (result.toList.map .phrase)) := by
  unfold Parser.resultType
  refine .bind (.eat rfl) fun opened => ?_
  split
  · exact .bind .expectNoun fun noun => .bind (.skip rfl _) fun _ => .name fun id => .pure rfl
  · exact .pure rfl

theorem Keeps.forms : Keeps front [] forms (Just fun forms =>
    [.form forms.nominative, .form forms.genitive, .form forms.dative, .form forms.accusative]) := by
  unfold Parser.forms
  refine .bind (.skip rfl _) fun _ => .bind .expectForm fun _ => .bind (.skip rfl _) fun _ => ?_
  refine .bind .expectForm fun _ => .bind (.skip rfl _) fun _ => .bind .expectForm fun _ => ?_
  refine .bind (.skip rfl _) fun _ => .bind .expectForm fun _ => .bind (.skip rfl _) fun _ => ?_
  exact .pure rfl

theorem Keeps.gender : Keeps front [] gender (Just fun _ => []) := by
  unfold Parser.gender
  refine .look .peek fun token => ?_
  split
  · rename_i kind
    exact .bind (.drop fun _ known => by rw [known.2, kind]; rfl) fun _ => .pure rfl
  · exact .unexpected _

theorem Keeps.declensionSource : Keeps front [] declensionSource (Just fun source => slotsOf source.constituents) := by
  unfold Parser.declensionSource
  refine .bind (.eat rfl) fun external => ?_
  split
  · refine .bind (.skip rfl _) fun _ => .bind .expectNoun fun _ => .bind (.skip rfl _) fun _ => ?_
    exact .pure rfl
  · refine .bind .gender fun _ => .bind (.skip rfl _) fun _ => .bind .forms fun _ => ?_
    exact .bind (.skip rfl _) fun _ => .bind .forms fun _ => .pure rfl

theorem Keeps.declension : Keeps front [] declension Definition.Spelled := by
  refine .within _ (.bind (.expect (by simp) _) fun token => .bind .declensionSource fun source => .pure ?_)
  exact .declension ⟨token, source⟩

namespace Inner.Keeps

variable {inner : Inner}

theorem ofParameters (h : inner.Keeps) :
    Parser.Keeps front [] (Parser.parameters inner)
      (Just fun parameters => slotsOf (parameters.flatMap Parameter.constituents)) := by
  unfold Parser.parameters
  refine .bind .parameter fun first => .bind (.eat rfl) fun more => ?_
  split
  · exact .bind h.parameters fun later => .pure (by simp [Just])
  · exact .pure (by simp [Just])

theorem ofHeaderGroups (h : inner.Keeps) :
    Parser.Keeps front [] (Parser.headerGroups inner) (Just fun groups => slotsOf (headerGroupConstituents groups)) := by
  unfold Parser.headerGroups
  refine .look .atPreposition fun found => ?_
  split
  · rename_i there
    refine .bind (.take fun _ known => inside_of_introduces (known.2 there)) fun preposition => ?_
    refine .bind h.ofParameters fun items => .bind h.headerGroups fun later => .pure ?_
    simp [Just, headerGroupConstituents, Constituent.slots]
  · exact .pure rfl

theorem ofHeader (h : inner.Keeps) :
    Parser.Keeps front [] (Parser.header inner) (Just fun h => slotsOf h.constituents) := by
  unfold Parser.header
  refine .bind (.skip rfl _) fun _ => .bind .resultType fun result => .bind (.expect (by simp) _) fun verb => ?_
  refine .bind .headerObject fun object => .bind h.ofHeaderGroups fun groups => .bind .optionalWord fun suffix => .pure ?_
  simp [Just, FunctionHeader.constituents, Constituent.slots]

theorem ofFunction (h : inner.Keeps) :
    Parser.Keeps front [] (Parser.function inner) (Just fun f => slotsOf f.constituents) := by
  unfold Parser.function
  refine .bind h.ofHeader fun header => .bind h.ofBlock fun body => .pure ?_
  simp [Just, FunctionDefinition.constituents]

theorem ofClassDefinition (h : inner.Keeps) : Parser.Keeps front [] (Parser.classDefinition inner) Definition.Spelled := by
  unfold Parser.classDefinition
  refine .within _ (.bind (.expect (by simp) _) fun token => .bind .expectNoun fun noun => .name fun id => ?_)
  refine .bind (.eat rfl) fun along => ?_
  have rest {front : Token → Prop} (fields : List Parameter) :
      Parser.Keeps front ([.token token] ++ [.token noun] ++ slotsOf (fields.flatMap Parameter.constituents)) (do
          return .noun ⟨token, ⟨id, .none, noun⟩, fields, ← Parser.block inner⟩)
        Definition.Spelled := by
    refine .bind h.ofBlock fun body => .pure ?_
    have spelled := Definition.Spelled.noun ⟨token, ⟨id, .none, noun⟩, fields, body⟩
    simpa [Definition.constituents, Constituent.slots, NounPhrase.slots] using spelled
  rw [List.append_nil]
  split
  · exact .bind h.ofParameters fun fields => rest fields
  · exact rest []

theorem ofConversionDefinition (h : inner.Keeps) :
    Parser.Keeps front [] (Parser.conversionDefinition inner) (Just fun c => slotsOf c.constituents) := by
  unfold Parser.conversionDefinition
  refine .within _ (.bind (.expect (by simp) _) fun token => .bind .expectNoun fun noun => .name fun id => ?_)
  refine .bind h.ofBlock fun body => .pure ?_
  simp [Just, ConversionDefinition.constituents, Constituent.slots, NounPhrase.slots]

theorem ofMembers (h : inner.Keeps) :
    Parser.Keeps front [] (Parser.members inner) fun found => MembersSpelled found.1 found.2 := by
  unfold Parser.members
  refine .bind .skipLineEnds fun _ => .look .peek fun token => ?_
  split
  · rename_i kind
    exact .bind (.drop fun _ known => by rw [known.2, kind]; rfl) fun _ => .pure .nil
  · refine .bind (.within _ h.ofFunction) fun method => .bind (.endStatement _) fun _ => ?_
    refine .bindAny h.members fun found places spelled => .pure ?_
    simpa using MembersSpelled.method method spelled
  · refine .bind h.ofConversionDefinition fun conversion => .bind (.endStatement _) fun _ => ?_
    refine .bindAny h.members fun found places spelled => .pure ?_
    simpa using MembersSpelled.conversion conversion spelled
  · exact .unexpected _

theorem ofImplementation (h : inner.Keeps) : Parser.Keeps front [] (Parser.implementation inner) Definition.Spelled := by
  unfold Parser.implementation
  refine .within _ (.bind (.expect (by simp) _) fun token => .bind .determinedNoun fun owner => ?_)
  refine .bind (.skip rfl _) fun _ => .bindAny h.members fun found places spelled => .pure ?_
  simpa using Definition.Spelled.implementation ⟨token, owner, found.1, found.2⟩ spelled

theorem ofProgram (h : inner.Keeps) : Parser.Keeps front [] (Parser.program inner) Program.Spelled := by
  unfold Parser.program
  refine .bind .skipLineEnds fun _ => ?_
  have define {front : Token → Prop} (p : Parser Definition) (keeps : Parser.Keeps front [] p Definition.Spelled) :
      Parser.Keeps front [] (do
          let definition ← p
          Parser.endStatement .fileEnd
          let rest ← inner.program
          return { rest with definitions := definition :: rest.definitions })
        Program.Spelled := by
    refine .bindAny keeps fun definition here first => .bind (.endStatement _) fun _ => ?_
    refine .bindAny h.program fun rest places later => .pure ?_
    simpa using Program.Spelled.definition first later
  refine .look .peek fun token => ?_
  split
  · exact .pure .empty
  · refine define _ ?_
    rw [map_eq_pure_bind]
    exact .bind (.within _ h.ofFunction) fun f => .pure (.function f)
  · exact define _ h.ofClassDefinition
  · exact define _ h.ofImplementation
  · exact define _ .declension
  · refine .bind h.ofStatement fun first => .bind (.endStatement _) fun _ => ?_
    refine .bindAny h.program fun rest places later => .pure ?_
    simpa using Program.Spelled.statement first later

theorem ofInner (size : Nat) : (Parser.inner size).Keeps := by
  induction size with
  | zero => exact .ofNone
  | succ size ih =>
    exact {
      delivers := .ofInner (size + 1)
      expression := ih.ofBinary
      operators := ih.ofOperators
      conversions := ih.ofConversions
      phrase := ih.ofPhrase
      items := ih.ofItems (ih.ofBinary 0)
      arguments := ih.ofArguments
      groups := ih.ofGroups
      statements := ih.ofStatements
      alternatives := ih.ofAlternatives
      parameters := ih.ofParameters
      headerGroups := ih.ofHeaderGroups
      members := ih.ofMembers
      program := ih.ofProgram }

end Inner.Keeps

end Satzbau.Parser

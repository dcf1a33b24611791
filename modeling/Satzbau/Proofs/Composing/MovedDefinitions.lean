import Satzbau.Proofs.Composing.MovedStatements

namespace Satzbau.Parser

variable {k : Nat}

namespace Moves

theorem determinedNoun : Moves k determinedNoun determinedNoun (NounPhrase.shifted k) :=
  .bind .expectDeterminer fun _ => .bind .expectNoun fun _ => .nounPhrase _ _

theorem parameter : Moves k parameter parameter (Parameter.shifted k) := by
  refine .bind .determinedNoun fun phrase => .bind (.at? _) fun named => ?_
  split
  · exact .bind .advance fun name => .pure rfl
  · exact .pure rfl

theorem headerObject : Moves k headerObject headerObject (ObjectRole.map (Parameter.shifted k)) := by
  have reflexive : Moves k (do
        let token ← Parser.advance
        Parser.require token [.method] "a method definition"
        return .reflexive token : Parser (ObjectRole Parameter)) (do
        let token ← Parser.advance
        Parser.require token [.method] "a method definition"
        return .reflexive token) (ObjectRole.map (Parameter.shifted k)) :=
    .bind .advance fun token => .bind (.require _ _ _) fun _ => .pure rfl
  unfold Parser.headerObject
  refine .bind .peek fun token => ?_
  split
  · exact .bind .parameter fun p => .pure rfl
  · exact reflexive
  · exact reflexive
  · exact .pure rfl

theorem resultType : Moves k resultType resultType (Option.map (NounPhrase.shifted k)) := by
  unfold Parser.resultType
  refine .bind (.eat _) fun opened => ?_
  split
  · exact .bind .expectNoun fun noun => .bind (.expect _ _) fun _ => .bind (.nounPhrase _ _) fun p => .pure rfl
  · exact .pure rfl

theorem forms : Stays k forms := by
  unfold Parser.forms
  refine .bind (.expect _ _) fun _ => .bind .expectNoun fun _ => .bind (.expect _ _) fun _ => ?_
  refine .bind .expectNoun fun _ => .bind (.expect _ _) fun _ => .bind .expectNoun fun _ => ?_
  exact .bind (.expect _ _) fun _ => .bind .expectNoun fun _ => .bind (.expect _ _) fun _ => .pure rfl

theorem gender : Stays k gender := by
  unfold Parser.gender
  refine .bind .peek fun token => ?_
  split
  · exact .bind .advance fun _ => .pure rfl
  · exact .unexpected _

theorem declensionSource : Stays k declensionSource := by
  unfold Parser.declensionSource
  refine .bind (.eat _) fun external => ?_
  split
  · exact .bind (.expect _ _) fun _ => .bind .expectNoun fun _ => .bind (.expect _ _) fun _ => .pure rfl
  · refine .bind .gender fun _ => .bind (.expect _ _) fun _ => .bind .forms fun _ => ?_
    exact .bind (.expect _ _) fun _ => .bind .forms fun _ => .pure rfl

theorem declension : Moves k declension declension (Definition.shifted k) :=
  .within _ (.bind (.expect _ _) fun _ => .bind .declensionSource fun _ => .pure rfl)

end Moves

namespace Inner.Moves

variable {inner : Inner}

theorem ofParameters (h : inner.Moves k) :
    Parser.Moves k (Parser.parameters inner) (Parser.parameters inner) (List.map (Parameter.shifted k)) := by
  unfold Parser.parameters
  refine .bind .parameter fun first => .bind (.eat _) fun more => ?_
  split
  · exact .bind h.parameters fun later => .pure rfl
  · exact .pure rfl

theorem ofHeaderGroups (h : inner.Moves k) :
    Parser.Moves k (Parser.headerGroups inner) (Parser.headerGroups inner)
      (List.map (.map (Parameter.shifted k))) := by
  unfold Parser.headerGroups
  refine .bind .atPreposition fun found => ?_
  split
  · exact .bind .advance fun preposition => .bind h.ofParameters fun items => .bind h.headerGroups fun later => .pure rfl
  · exact .pure rfl

theorem ofHeader (h : inner.Moves k) :
    Parser.Moves k (Parser.header inner) (Parser.header inner) (FunctionHeader.shifted k) := by
  unfold Parser.header
  refine .bind (.expect _ _) fun _ => .bind .resultType fun result => .bind (.expect _ _) fun verb => ?_
  exact .bind .headerObject fun object => .bind h.ofHeaderGroups fun groups => .bind .optionalWord fun suffix => .pure rfl

theorem ofFunction (h : inner.Moves k) :
    Parser.Moves k (Parser.function inner) (Parser.function inner) (FunctionDefinition.shifted k) := by
  unfold Parser.function
  exact .bind h.ofHeader fun header => .bind h.ofBlock fun body => .pure rfl

theorem ofClassDefinition (h : inner.Moves k) :
    Parser.Moves k (Parser.classDefinition inner) (Parser.classDefinition inner) (Definition.shifted k) := by
  unfold Parser.classDefinition
  refine .within _ (.bind (.expect _ _) fun token => .bind .expectNoun fun noun => .bind (.nounPhrase _ _) fun name => ?_)
  refine .bind (.eat _) fun along => ?_
  split
  · exact .bind h.ofParameters fun fields => .bind h.ofBlock fun body => .pure rfl
  · have noFields : Parser.Moves k (pure []) (pure []) (List.map (Parameter.shifted k)) := .pure rfl
    exact .bind noFields fun fields => .bind h.ofBlock fun body => .pure rfl

theorem ofConversionDefinition (h : inner.Moves k) :
    Parser.Moves k (Parser.conversionDefinition inner) (Parser.conversionDefinition inner)
      (ConversionDefinition.shifted k) := by
  unfold Parser.conversionDefinition
  refine .within _ (.bind (.expect _ _) fun token => .bind .expectNoun fun noun => .bind (.nounPhrase _ _) fun target => ?_)
  exact .bind h.ofBlock fun body => .pure rfl

theorem ofMembers (h : inner.Moves k) :
    Parser.Moves k (Parser.members inner) (Parser.members inner)
      fun found => (found.1.map (FunctionDefinition.shifted k), found.2.map (ConversionDefinition.shifted k)) := by
  unfold Parser.members
  refine .bind .skipLineEnds fun _ => .bind .peek fun token => ?_
  split
  · exact .bind .advance fun _ => .pure rfl
  · exact .bind (.within _ h.ofFunction) fun method => .bind (.endStatement _) fun _ =>
      .bind h.members fun found => .pure rfl
  · exact .bind h.ofConversionDefinition fun conversion => .bind (.endStatement _) fun _ =>
      .bind h.members fun found => .pure rfl
  · exact .unexpected _

theorem ofImplementation (h : inner.Moves k) :
    Parser.Moves k (Parser.implementation inner) (Parser.implementation inner) (Definition.shifted k) := by
  unfold Parser.implementation
  refine .within _ (.bind (.expect _ _) fun token => .bind .determinedNoun fun owner => ?_)
  exact .bind (.expect _ _) fun _ => .bind h.members fun found => .pure rfl

theorem ofProgram (h : inner.Moves k) :
    Parser.Moves k (Parser.program inner) (Parser.program inner) (Program.shifted k) := by
  unfold Parser.program
  refine .bind .skipLineEnds fun _ => .bind .peek fun token => ?_
  have behind (definition : Definition) : Parser.Moves k (do
        Parser.endStatement .fileEnd
        let rest ← inner.program
        return { rest with definitions := definition :: rest.definitions }) (do
        Parser.endStatement .fileEnd
        let rest ← inner.program
        return { rest with definitions := definition.shifted k :: rest.definitions }) (Program.shifted k) :=
    .bind (.endStatement _) fun _ => .bind h.program fun rest => .pure rfl
  split
  · exact .pure rfl
  · exact .bind (.map (.within _ h.ofFunction) fun f => rfl) behind
  · exact .bind h.ofClassDefinition behind
  · exact .bind h.ofImplementation behind
  · exact .bind .declension behind
  · exact .bind h.ofStatement fun first => .bind (.endStatement _) fun _ => .bind h.program fun rest => .pure rfl

theorem ofInner (size : Nat) : (Parser.inner size).Moves k := by
  induction size with
  | zero => exact .ofNone
  | succ size ih =>
    exact {
      expression := ih.ofBinary
      operators := ih.ofOperators
      conversions := ih.ofConversions
      phrase := ih.ofPhrase
      items := ih.ofItems (ih.ofBinary 0)
      arguments := ih.ofArguments
      groups := ih.ofGroups
      statements := ih.ofStatements
      alternatives := ih.ofAlternatives
      parameters := ih.ofParameters
      headerGroups := ih.ofHeaderGroups
      members := ih.ofMembers
      program := ih.ofProgram }

end Inner.Moves

end Satzbau.Parser

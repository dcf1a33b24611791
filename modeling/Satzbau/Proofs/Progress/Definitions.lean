import Satzbau.Proofs.Progress.Statements

namespace Satzbau.Parser

variable {limit : Nat} {uses : Bool} {front : Token → Prop}

namespace InStep

theorem determinedNoun : InStep limit uses front determinedNoun determinedNoun :=
  take expectDeterminer fun _ => bind expectNoun fun _ => nounPhrase _ _

theorem parameter : InStep limit uses front parameter parameter := by
  unfold Parser.parameter
  refine take determinedNoun fun phrase => look (.at? .noun) fun found => ?_
  split
  · rename_i there
    exact bind (advanceIf there (by simp)) fun name => pure _
  · exact pure _

theorem headerObject : InStep limit false front headerObject headerObject := by
  unfold Parser.headerObject
  refine look .peek fun token => ?_
  split
  · exact bind parameter fun item => pure _
  · rename_i kind
    exact bind (advanceAt (by simp [kind])) fun token => look (.require _ _ _) fun _ => pure _
  · rename_i kind
    exact bind (advanceAt (by simp [kind])) fun token => look (.require _ _ _) fun _ => pure _
  · exact pure _

theorem resultType : InStep limit false front resultType resultType := by
  unfold Parser.resultType
  refine eat (by simp) (Nat.le_succ _) ?_ (pure _)
  exact bind expectNoun fun noun => bind (expect (by simp) _) fun _ => bind (nounPhrase _ _) fun result => pure _

theorem forms : InStep limit uses front forms forms := by
  unfold Parser.forms
  exact take (expect (by simp) _) fun _ => bind expectNoun fun nominative => bind (expect (by simp) _) fun _ =>
    bind expectNoun fun genitive => bind (expect (by simp) _) fun _ => bind expectNoun fun dative =>
      bind (expect (by simp) _) fun _ => bind expectNoun fun accusative => bind (expect (by simp) _) fun _ => pure _

theorem gender : InStep limit uses front gender gender := by
  unfold Parser.gender
  refine look .peek fun token => ?_
  split
  · rename_i kind
    exact take (advanceAt (by simp [kind])) fun _ => pure _
  · exact unexpected _

theorem declensionSource : InStep limit false front declensionSource declensionSource := by
  unfold Parser.declensionSource
  refine eat (by simp) (Nat.le_succ _) ?_ ?_
  · exact bind (expect (by simp) _) fun _ => bind expectNoun fun word => bind (expect (by simp) _) fun _ => pure _
  · exact bind gender fun g => bind (expect (by simp) _) fun _ => bind forms fun singular =>
      bind (expect (by simp) _) fun _ => bind forms fun plural => pure _

theorem declension : InStep limit uses front declension declension := by
  unfold Parser.declension
  exact within _ (take (expect (by simp) _) fun token => bind declensionSource fun source => pure _)

end InStep

namespace Inner.InStep

variable {inner inner' : Inner}

theorem ofParameters (h : inner.InStep limit inner') :
    Parser.InStep (limit + 1) uses front (Parser.parameters inner) (Parser.parameters inner') := by
  unfold Parser.parameters
  exact .take .parameter fun first => .eat (by simp) (Nat.le_refl _) (.bind h.parameters fun later => .pure _) (.pure _)

theorem ofHeaderGroups (h : inner.InStep limit inner') :
    Parser.InStep (limit + 1) false front (Parser.headerGroups inner) (Parser.headerGroups inner') := by
  unfold Parser.headerGroups
  refine .look .atPreposition fun found => ?_
  split
  · rename_i there
    exact .take (.advance fun _ isSeen => Keeps.inside_of_introduces (isSeen.2 there)) fun preposition =>
      .after h.ofParameters fun items => .bind h.headerGroups fun later => .pure _
  · exact .pure _

theorem ofHeader (h : inner.InStep limit inner') :
    Parser.InStep (limit + 1) uses front (Parser.header inner) (Parser.header inner') := by
  unfold Parser.header
  exact .take (.expect (by simp) _) fun _ => .bind .resultType fun result => .bind (.expect (by simp) _) fun verb =>
    .bind .headerObject fun object => .bind h.ofHeaderGroups fun groups => .bind .optionalWord fun suffix => .pure _

theorem ofFunction (h : inner.InStep limit inner') :
    Parser.InStep (limit + 1) uses front (Parser.function inner) (Parser.function inner') := by
  unfold Parser.function
  exact .take h.ofHeader fun header => .bind h.ofBlock fun body => .pure _

theorem ofClassDefinition (h : inner.InStep limit inner') :
    Parser.InStep (limit + 1) uses front (Parser.classDefinition inner) (Parser.classDefinition inner') := by
  unfold Parser.classDefinition
  refine .within _ (.take (.expect (by simp) _) fun token => .bind .expectNoun fun noun =>
    .bind (.nounPhrase _ _) fun name => .eat (by simp) (Nat.le_succ _) ?_ ?_)
  · exact .bind h.ofParameters fun fields => .bind h.ofBlock fun body => .pure _
  · -- Without fields nothing is read between the name and the block.
    simp only [Bool.false_eq_true, if_false, pure_bind]
    exact .bind h.ofBlock fun body => .pure _

theorem ofConversionDefinition (h : inner.InStep limit inner') :
    Parser.InStep (limit + 1) uses front (Parser.conversionDefinition inner) (Parser.conversionDefinition inner') := by
  unfold Parser.conversionDefinition
  exact .within _ (.take (.expect (by simp) _) fun token => .bind .expectNoun fun noun =>
    .bind (.nounPhrase _ _) fun target => .bind h.ofBlock fun body => .pure _)

theorem ofMembers (h : inner.InStep limit inner') :
    Parser.InStep (limit + 1) false front (Parser.members inner) (Parser.members inner') := by
  unfold Parser.members
  refine .bind .skipLineEnds fun _ => .look .peek fun token => ?_
  split
  · rename_i kind
    exact .bind (.advanceAt (by simp [kind])) fun _ => .pure _
  · exact .after (.within _ h.ofFunction) fun method => .bind (.endStatement _) fun _ => .bind h.members fun later => .pure _
  · exact .after h.ofConversionDefinition fun conversion => .bind (.endStatement _) fun _ =>
      .bind h.members fun later => .pure _
  · exact .unexpected _

theorem ofImplementation (h : inner.InStep limit inner') :
    Parser.InStep (limit + 1) uses front (Parser.implementation inner) (Parser.implementation inner') := by
  unfold Parser.implementation
  exact .within _ (.after (.expect (by simp) _) fun token => .bind .determinedNoun fun owner =>
    .bind (.expect (by simp) _) fun _ => .bind h.members fun members => .pure _)

/-- A definition or a statement in front of the rest of a program. -/
theorem ofProgram (h : inner.InStep limit inner') :
    Parser.InStep (limit + 1) false front (Parser.program inner) (Parser.program inner') := by
  have defined {front : Token → Prop} {p q : Parser Definition} (definition : Parser.InStep (limit + 1) true front p q) :
      Parser.InStep (limit + 1) false front
        (do
          let definition ← p
          endStatement .fileEnd
          let rest ← inner.program
          return { rest with definitions := definition :: rest.definitions } : Parser Program)
        (do
          let definition ← q
          endStatement .fileEnd
          let rest ← inner'.program
          return { rest with definitions := definition :: rest.definitions } : Parser Program) :=
    .after definition fun first => .bind (.endStatement _) fun _ => .bind h.program fun rest => .pure _
  unfold Parser.program
  refine .bind .skipLineEnds fun _ => .look .peek fun token => ?_
  dsimp only
  split
  · exact .pure _
  · exact defined (.map _ (.within _ h.ofFunction))
  · exact defined h.ofClassDefinition
  · exact defined h.ofImplementation
  · exact defined .declension
  · exact .after h.ofStatement fun first => .bind (.endStatement _) fun _ => .bind h.program fun rest => .pure _

end Inner.InStep

end Satzbau.Parser

import Satzbau.Proofs.Preceding.Statements

namespace Satzbau.Parser

variable {E : Endings} {limit : Nat} {uses : Bool} {front : Token → Prop} {known : Prop}

namespace Decides

theorem determinedNoun :
    Decides E limit uses false .line front known determinedNoun determinedNoun fun _ => True :=
  take expectDeterminer fun _ => bind expectNoun fun _ => nounPhrase _ _

theorem parameter : Decides E limit uses false .line front known parameter parameter fun _ => True := by
  unfold Parser.parameter
  refine take determinedNoun fun phrase => look (.at? .noun) (at? .noun) fun found => ?_
  split
  · rename_i there
    exact bind (advanceIf there (by simp)) fun name => pure fun _ => trivial
  · exact pure fun _ => trivial

theorem headerObject : Decides E limit false false .line front known headerObject headerObject fun _ => True := by
  unfold Parser.headerObject
  refine look .peek peek fun token => ?_
  split
  · exact bind parameter fun item => pure fun _ => trivial
  · rename_i kind
    exact bind (advanceAt (by simp [kind])) fun token => bind (require _ _ And.right) fun _ => pure fun _ => trivial
  · rename_i kind
    exact bind (advanceAt (by simp [kind])) fun token => bind (require _ _ And.right) fun _ => pure fun _ => trivial
  · exact pure fun _ => trivial

theorem resultType : Decides E limit false false .line front known resultType resultType fun _ => True := by
  unfold Parser.resultType
  refine eat (by simp) (Nat.le_succ _) ?_ ?_
  · exact bind expectNoun fun noun => bind (expect (by simp) _) fun _ => bind (nounPhrase _ _) fun result =>
      pure fun _ => trivial
  · exact pure fun _ => trivial

theorem forms : Decides E limit uses false .line front known forms forms fun _ => True := by
  unfold Parser.forms
  exact take (expect (by simp) _) fun _ => bind expectNoun fun nominative =>
    bind (expect (by simp) _) fun _ => bind expectNoun fun genitive =>
    bind (expect (by simp) _) fun _ => bind expectNoun fun dative =>
    bind (expect (by simp) _) fun _ => bind expectNoun fun accusative =>
    bind (expect (by simp) _) fun _ => pure fun _ => trivial

theorem gender : Decides E limit uses false .line front known gender gender fun _ => True := by
  unfold Parser.gender
  refine look .peek peek fun token => ?_
  split
  · rename_i kind
    exact take (advanceAt (by simp [kind])) fun _ => pure fun _ => trivial
  · exact unexpected

theorem declensionSource :
    Decides E limit uses false .line front known declensionSource declensionSource fun _ => True := by
  unfold Parser.declensionSource
  refine eat (by simp) (Nat.le_succ _) ?_ ?_
  · exact bind (expect (by simp) _) fun _ => bind expectNoun fun word => bind (expect (by simp) _) fun _ =>
      pure fun _ => trivial
  · exact take gender fun gender => bind (expect (by simp) _) fun _ => bind forms fun singular =>
      bind (expect (by simp) _) fun _ => bind forms fun plural => pure fun _ => trivial

theorem declension : Decides E limit uses false .past front known declension declension fun _ => True := by
  unfold Parser.declension
  exact within _ (take (expect (by simp) _) fun token => bind declensionSource fun source => pure fun _ => trivial)

end Decides

namespace Inner.Decides

variable {inner inner' : Inner}

theorem ofParameters (h : inner.Decides E limit inner') :
    Parser.Decides E (limit + 1) uses false .line front known (Parser.parameters inner) (Parser.parameters inner')
      fun _ => True := by
  unfold Parser.parameters
  refine .take .parameter fun first => .eat (by simp) (Nat.le_refl _) ?_ ?_
  · exact .bind h.parameters fun later => .pure fun _ => trivial
  · exact .pure fun _ => trivial

theorem ofHeaderGroups (h : inner.Decides E limit inner') :
    Parser.Decides E (limit + 1) false false .line front known (Parser.headerGroups inner) (Parser.headerGroups inner')
      fun _ => True := by
  unfold Parser.headerGroups
  refine .look .atPreposition .atPreposition fun found => ?_
  split
  · rename_i there
    exact .take (.advance fun _ isSeen => inside_of_introduces (isSeen.2 there)) fun preposition =>
      .after h.ofParameters fun items => .bind h.headerGroups fun later => .pure fun _ => trivial
  · exact .pure fun _ => trivial

theorem ofHeader (h : inner.Decides E limit inner') :
    Parser.Decides E (limit + 1) uses false .line front known (Parser.header inner) (Parser.header inner')
      fun _ => True := by
  unfold Parser.header
  exact .take (.expect (by simp) _) fun _ => .bind .resultType fun result => .bind (.expect (by simp) _) fun verb =>
    .bind .headerObject fun object => .bind h.ofHeaderGroups fun groups => .bind .optionalWord fun suffix =>
    .pure fun _ => trivial

theorem ofFunction (h : inner.Decides E limit inner') :
    Parser.Decides E (limit + 1) uses false .past front known (Parser.function inner) (Parser.function inner')
      fun _ => True := by
  unfold Parser.function
  exact .take h.ofHeader fun header => .cross h.ofBlock (fun body => .pure fun _ => trivial) nofun

theorem ofClassDefinition (h : inner.Decides E limit inner') :
    Parser.Decides E (limit + 1) uses false .past front known (Parser.classDefinition inner)
      (Parser.classDefinition inner') fun _ => True := by
  unfold Parser.classDefinition
  refine .within _ (.take (.expect (by simp) _) fun token => .bind .expectNoun fun noun =>
    .bind (.nounPhrase _ _) fun name => .eat (by simp) (Nat.le_succ _) ?_ ?_)
  · exact .bind h.ofParameters fun fields => .cross h.ofBlock (fun body => .pure fun _ => trivial) nofun
  · simp only [Bool.false_eq_true, if_false, pure_bind]
    exact .cross h.ofBlock (fun body => .pure fun _ => trivial) nofun

theorem ofConversionDefinition (h : inner.Decides E limit inner') :
    Parser.Decides E (limit + 1) uses false .past front known (Parser.conversionDefinition inner)
      (Parser.conversionDefinition inner') fun _ => True := by
  unfold Parser.conversionDefinition
  exact .within _ (.take (.expect (by simp) _) fun token => .bind .expectNoun fun noun =>
    .bind (.nounPhrase _ _) fun target => .cross h.ofBlock (fun body => .pure fun _ => trivial) nofun)

theorem ofMembers (h : inner.Decides E limit inner') :
    Parser.Decides E (limit + 1) false false .past front known (Parser.members inner) (Parser.members inner')
      fun _ => True := by
  unfold Parser.members
  refine .skipLineEnds (.look .peek .peek fun token => ?_) nofun
  split
  · rename_i kind
    exact .bind (.advanceAt (by simp [kind])) fun _ => .pure fun _ => trivial
  · exact .crossAfter (.within _ h.ofFunction) (fun method => .cross (.endStatement _) (fun _ =>
      .cross h.members (fun others => .pure fun _ => trivial) nofun) nofun) nofun
  · exact .crossAfter h.ofConversionDefinition (fun conversion => .cross (.endStatement _) (fun _ =>
      .cross h.members (fun others => .pure fun _ => trivial) nofun) nofun) nofun
  · exact .unexpected

theorem ofImplementation (h : inner.Decides E limit inner') :
    Parser.Decides E (limit + 1) uses false .past front known (Parser.implementation inner)
      (Parser.implementation inner') fun _ => True := by
  unfold Parser.implementation
  exact .within _ (.after (.expect (by simp) _) fun token => .bind .determinedNoun fun owner =>
    .bind (.expect (by simp) _) fun _ => .cross h.members (fun members => .pure fun _ => trivial) nofun)

/-- A definition or a statement in front of the rest of a program. -/
theorem ofProgram (h : inner.Decides E limit inner') :
    Parser.Decides E (limit + 1) false false .past front known (Parser.program inner) (Parser.program inner')
      fun _ => True := by
  have defined {front : Token → Prop} {known : Prop} {p q : Parser Definition}
      (definition : Parser.Decides E (limit + 1) true false .past front known p q fun _ => True) :
      Parser.Decides E (limit + 1) false false .past front known
        (do
          let definition ← p
          endStatement .fileEnd
          let rest ← inner.program
          return { rest with definitions := definition :: rest.definitions } : Parser Program)
        (do
          let definition ← q
          endStatement .fileEnd
          let rest ← inner'.program
          return { rest with definitions := definition :: rest.definitions } : Parser Program) fun _ => True :=
    .crossAfter definition (fun first => .cross (.endStatement _) (fun _ =>
      .cross h.program (fun rest => .pure fun _ => trivial) nofun) nofun) nofun
  unfold Parser.program
  refine .skipLineEnds (.bind .peek fun token => ?_) nofun
  dsimp only
  split
  · exact .pure fun _ => trivial
  · exact defined (.map _ (.within _ h.ofFunction))
  · exact defined h.ofClassDefinition
  · exact defined h.ofImplementation
  · exact defined .declension
  · exact .crossAfter h.ofStatement (fun first => .cross (.endStatement _) (fun _ =>
      .cross h.program (fun rest => .pure fun _ => trivial) nofun) nofun) nofun

end Inner.Decides

end Satzbau.Parser

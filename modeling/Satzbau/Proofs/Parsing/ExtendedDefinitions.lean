import Satzbau.Proofs.Parsing.ExtendedStatements

namespace Satzbau.Parser

variable {α β : Type} {more : List (Except Diagnostic Token)} {last : Token} {front : Token → Prop}

namespace Extends

theorem determinedNoun : Extends more last front determinedNoun determinedNoun :=
  bind expectDeterminer fun _ => bind expectNoun fun _ => nounPhrase _ _

theorem parameter : Extends more last front parameter parameter := by
  unfold Parser.parameter
  refine bind determinedNoun fun phrase => look (.at? .noun) (at? .noun) fun found => ?_
  split
  · rename_i there
    exact bind (advanceIf there (by simp)) fun name => pure _
  · exact pure _

theorem headerObject : Extends more last front headerObject headerObject := by
  unfold Parser.headerObject
  refine look .peek peek fun token => ?_
  split
  · exact bind parameter fun item => pure _
  · rename_i kind
    exact bind (advanceAt (by simp [kind])) fun token => bind (require _ _ _) fun _ => pure _
  · rename_i kind
    exact bind (advanceAt (by simp [kind])) fun token => bind (require _ _ _) fun _ => pure _
  · exact pure _

theorem resultType : Extends more last front resultType resultType := by
  unfold Parser.resultType
  refine bind (eat (by simp)) fun found => ?_
  split
  · exact bind expectNoun fun noun => bind (expect (by simp) _) fun _ => bind (nounPhrase _ _) fun result => pure _
  · exact pure _

theorem forms : Extends more last front forms forms := by
  unfold Parser.forms
  exact bind (expect (by simp) _) fun _ => bind expectNoun fun nominative =>
    bind (expect (by simp) _) fun _ => bind expectNoun fun genitive =>
    bind (expect (by simp) _) fun _ => bind expectNoun fun dative =>
    bind (expect (by simp) _) fun _ => bind expectNoun fun accusative =>
    bind (expect (by simp) _) fun _ => pure _

theorem gender : Extends more last front gender gender := by
  unfold Parser.gender
  refine look .peek peek fun token => ?_
  split
  · rename_i kind
    exact bind (advanceAt (by simp [kind])) fun _ => pure _
  · exact unexpected

theorem declensionSource : Extends more last front declensionSource declensionSource := by
  unfold Parser.declensionSource
  refine bind (eat (by simp)) fun found => ?_
  split
  · exact bind (expect (by simp) _) fun _ => bind expectNoun fun word => bind (expect (by simp) _) fun _ => pure _
  · exact bind gender fun gender => bind (expect (by simp) _) fun _ => bind forms fun singular =>
      bind (expect (by simp) _) fun _ => bind forms fun plural => pure _

theorem declension : Extends more last front declension declension := by
  unfold Parser.declension
  exact within _ (bind (expect (by simp) _) fun token => bind declensionSource fun source => pure _)

end Extends

namespace Inner.Extends

variable {inner inner' : Inner}

theorem ofParameters (h : inner.Extends more last inner') :
    Parser.Extends more last front (Parser.parameters inner) (Parser.parameters inner') := by
  unfold Parser.parameters
  refine .bind .parameter fun first => .bind (.eat (by simp)) fun found => ?_
  split
  · exact .bind h.parameters fun later => .pure _
  · exact .pure _

theorem ofHeaderGroups (h : inner.Extends more last inner') :
    Parser.Extends more last front (Parser.headerGroups inner) (Parser.headerGroups inner') := by
  unfold Parser.headerGroups
  refine .look .atPreposition .atPreposition fun found => ?_
  split
  · rename_i there
    exact .bind (.advance fun _ known => inside_of_introduces (known.2 there)) fun preposition =>
      .bind h.ofParameters fun items => .bind h.headerGroups fun later => .pure _
  · exact .pure _

theorem ofHeader (h : inner.Extends more last inner') :
    Parser.Extends more last front (Parser.header inner) (Parser.header inner') := by
  unfold Parser.header
  exact .bind (.expect (by simp) _) fun _ => .bind .resultType fun result => .bind (.expect (by simp) _) fun verb =>
    .bind .headerObject fun object => .bind h.ofHeaderGroups fun groups => .bind .optionalWord fun suffix => .pure _

theorem ofFunction (h : inner.Extends more last inner') :
    Parser.Extends more last front (Parser.function inner) (Parser.function inner') := by
  unfold Parser.function
  exact .bind h.ofHeader fun header => .bind h.ofBlock fun body => .pure _

theorem ofClassDefinition (h : inner.Extends more last inner') :
    Parser.Extends more last front (Parser.classDefinition inner) (Parser.classDefinition inner') := by
  unfold Parser.classDefinition
  refine .within _ (.bind (.expect (by simp) _) fun token => .bind .expectNoun fun noun =>
    .bind (.nounPhrase _ _) fun name => .bind (.eat (by simp)) fun found => ?_)
  split
  · exact .bind h.ofParameters fun fields => .bind h.ofBlock fun body => .pure _
  · exact .bind (.pure _) fun fields => .bind h.ofBlock fun body => .pure _

theorem ofConversionDefinition (h : inner.Extends more last inner') :
    Parser.Extends more last front (Parser.conversionDefinition inner) (Parser.conversionDefinition inner') := by
  unfold Parser.conversionDefinition
  exact .within _ (.bind (.expect (by simp) _) fun token => .bind .expectNoun fun noun =>
    .bind (.nounPhrase _ _) fun target => .bind h.ofBlock fun body => .pure _)

theorem members_starves : Starves (Parser.members inner) := by
  unfold Parser.members
  refine .skipLineEnds (.peek fun token atEnd => ?_)
  rw [atEnd]
  exact .unexpected _

theorem ofMembers (h : inner.Extends more last inner') :
    Parser.Extends more last front (Parser.members inner) (Parser.members inner') := by
  obtain ⟨later, starves⟩ := h.members
  unfold Parser.members
  refine .skipLineEnds (.peek fun token atEnd => ?_) (.look .peek .peek fun token => ?_)
  · rw [atEnd]
    exact .unexpected _
  · split
    · rename_i kind
      exact .bind (.advanceAt (by simp [kind])) fun _ => .pure _
    · exact .bind (.within _ h.ofFunction) fun method =>
        .endStatement (.bind starves) (.bind later fun others => .pure _)
    · exact .bind h.ofConversionDefinition fun conversion =>
        .endStatement (.bind starves) (.bind later fun others => .pure _)
    · exact .unexpected

theorem ofImplementation (h : inner.Extends more last inner') :
    Parser.Extends more last front (Parser.implementation inner) (Parser.implementation inner') := by
  unfold Parser.implementation
  exact .within _ (.bind (.expect (by simp) _) fun token => .bind .determinedNoun fun owner =>
    .bind (.expect (by simp) _) fun _ => .bind h.members.1 fun members => .pure _)

/-- More input is read with parsers for more input. -/
theorem ofInner (afresh : StartsAfresh last more) {size size' : Nat} (fits : size ≤ size') :
    (Parser.inner size).Extends more last (Parser.inner size') := by
  induction size generalizing size' with
  | zero => exact .ofNone
  | succ size ih =>
    cases size' with
    | zero => contradiction
    | succ size' =>
      have h := ih (Nat.le_of_succ_le_succ fits)
      exact {
        expression := h.ofBinary
        operators := h.ofOperators
        conversions := h.ofConversions
        phrase := h.ofPhrase
        items := h.ofItems (h.ofBinary 0)
        arguments := h.ofArguments
        groups := h.ofGroups
        statements := fun close expected closes =>
          ⟨h.ofStatements afresh closes expected, statements_starves closes expected⟩
        alternatives := h.ofAlternatives afresh
        parameters := h.ofParameters
        headerGroups := h.ofHeaderGroups
        members := ⟨h.ofMembers, members_starves⟩ }

end Inner.Extends

end Satzbau.Parser

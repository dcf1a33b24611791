import Satzbau.Proofs.Following.Statements

namespace Satzbau.Parser

variable {R : List (Except Diagnostic Token) → List (Except Diagnostic Token) → Prop} {front : Token → Prop}

namespace Follows

theorem determinedNoun (matching : Matching R) : Follows R front determinedNoun determinedNoun :=
  bind (expectDeterminer matching) fun _ => bind (expectNoun matching) fun _ => nounPhrase _ _

theorem parameter (matching : Matching R) : Follows R front parameter parameter := by
  unfold Parser.parameter
  refine bind (determinedNoun matching) fun phrase => look (.at? .noun) (at? matching .noun) fun found => ?_
  split
  · rename_i there
    exact bind (advanceIf matching there (by simp)) fun name => pure _
  · exact pure _

theorem headerObject (matching : Matching R) : Follows R front headerObject headerObject := by
  unfold Parser.headerObject
  refine peek matching fun token token' alike => ?_
  rw [← alike.kind]
  split
  · exact bind (parameter matching) fun item => pure _
  · rename_i kind
    exact bind (advanceAt matching (by simp [kind])) fun token => bind (require _ _ _) fun _ => pure _
  · rename_i kind
    exact bind (advanceAt matching (by simp [kind])) fun token => bind (require _ _ _) fun _ => pure _
  · exact pure _

theorem resultType (matching : Matching R) : Follows R front resultType resultType := by
  unfold Parser.resultType
  refine bind (eat matching (by simp)) fun found => ?_
  split
  · exact bind (expectNoun matching) fun noun => bind (expect matching (by simp) _) fun _ =>
      bind (nounPhrase _ _) fun result => pure _
  · exact pure _

theorem forms (matching : Matching R) : Follows R front forms forms := by
  unfold Parser.forms
  exact bind (expect matching (by simp) _) fun _ => bind (expectNoun matching) fun nominative =>
    bind (expect matching (by simp) _) fun _ => bind (expectNoun matching) fun genitive =>
    bind (expect matching (by simp) _) fun _ => bind (expectNoun matching) fun dative =>
    bind (expect matching (by simp) _) fun _ => bind (expectNoun matching) fun accusative =>
    bind (expect matching (by simp) _) fun _ => pure _

theorem gender (matching : Matching R) : Follows R front gender gender := by
  unfold Parser.gender
  refine peek matching fun token token' alike => ?_
  rw [← alike.kind]
  split
  · rename_i kind
    exact bind (advanceAt matching (by simp [kind])) fun _ => pure _
  · exact unexpected

theorem declensionSource (matching : Matching R) : Follows R front declensionSource declensionSource := by
  unfold Parser.declensionSource
  refine bind (eat matching (by simp)) fun found => ?_
  split
  · exact bind (expect matching (by simp) _) fun _ => bind (expectNoun matching) fun word =>
      bind (expect matching (by simp) _) fun _ => pure _
  · exact bind (gender matching) fun gender => bind (expect matching (by simp) _) fun _ =>
      bind (forms matching) fun singular => bind (expect matching (by simp) _) fun _ =>
      bind (forms matching) fun plural => pure _

end Follows

namespace Inner.Follows

variable {inner inner' : Inner}

theorem ofParameters (h : inner.Follows R inner') :
    Parser.Follows R front (Parser.parameters inner) (Parser.parameters inner') := by
  unfold Parser.parameters
  refine .bind (.parameter h.matching) fun first => .bind (.eat h.matching (by simp)) fun found => ?_
  split
  · exact .bind h.parameters fun later => .pure _
  · exact .pure _

theorem ofHeaderGroups (h : inner.Follows R inner') :
    Parser.Follows R front (Parser.headerGroups inner) (Parser.headerGroups inner') := by
  unfold Parser.headerGroups
  refine .look .atPreposition (.atPreposition h.matching) fun found => ?_
  split
  · rename_i there
    refine .bind (.advance h.matching ?_) fun preposition =>
      .bind h.ofParameters fun items => .bind h.headerGroups fun later => .pure _
    exact fun _ known => other_of_introduces (known.2 there)
  · exact .pure _

theorem ofHeader (h : inner.Follows R inner') :
    Parser.Follows R front (Parser.header inner) (Parser.header inner') := by
  unfold Parser.header
  exact .bind (.expect h.matching (by simp) _) fun _ => .bind (.resultType h.matching) fun result =>
    .bind (.expect h.matching (by simp) _) fun verb => .bind (.headerObject h.matching) fun object =>
    .bind h.ofHeaderGroups fun groups => .bind (.optionalWord h.matching) fun suffix => .pure _

theorem ofFunction (h : inner.Follows R inner') :
    Parser.Follows R front (Parser.function inner) (Parser.function inner') := by
  unfold Parser.function
  exact .bind h.ofHeader fun header => .bind h.ofBlock fun body => .pure _

theorem ofClassDefinition (h : inner.Follows R inner') :
    Parser.Follows R front (Parser.classDefinition inner) (Parser.classDefinition inner') := by
  unfold Parser.classDefinition
  refine .within _ (.bind (.expect h.matching (by simp) _) fun token => .bind (.expectNoun h.matching) fun noun =>
    .bind (.nounPhrase _ _) fun name => .bind (.eat h.matching (by simp)) fun found => ?_)
  split
  · exact .bind h.ofParameters fun fields => .bind h.ofBlock fun body => .pure _
  · exact .bind (.pure _) fun fields => .bind h.ofBlock fun body => .pure _

theorem ofConversionDefinition (h : inner.Follows R inner') :
    Parser.Follows R front (Parser.conversionDefinition inner) (Parser.conversionDefinition inner') := by
  unfold Parser.conversionDefinition
  exact .within _ (.bind (.expect h.matching (by simp) _) fun token => .bind (.expectNoun h.matching) fun noun =>
    .bind (.nounPhrase _ _) fun target => .bind h.ofBlock fun body => .pure _)

theorem ofMembers (h : inner.Follows R inner') :
    Parser.Follows R front (Parser.members inner) (Parser.members inner') := by
  unfold Parser.members
  refine .bind (.skipLineEnds h.matching) fun _ => .peek h.matching fun token token' alike => ?_
  rw [← alike.kind]
  split
  · rename_i kind
    exact .bind (.advanceAt h.matching (by simp [kind])) fun _ => .pure _
  · exact .bind (.within _ h.ofFunction) fun method => .bind (.endStatement h.matching _) fun _ =>
      .bind h.members fun others => .pure _
  · exact .bind h.ofConversionDefinition fun conversion => .bind (.endStatement h.matching _) fun _ =>
      .bind h.members fun others => .pure _
  · exact .unexpected

theorem ofImplementation (h : inner.Follows R inner') :
    Parser.Follows R front (Parser.implementation inner) (Parser.implementation inner') := by
  unfold Parser.implementation
  exact .within _ (.bind (.expect h.matching (by simp) _) fun token => .bind (.determinedNoun h.matching) fun owner =>
    .bind (.expect h.matching (by simp) _) fun _ => .bind h.members fun members => .pure _)

/-- Related inputs are read alike, also with parsers for more input. -/
theorem ofInner (matching : Matching R) {size size' : Nat} (fits : size ≤ size') :
    (Parser.inner size).Follows R (Parser.inner size') := by
  induction size generalizing size' with
  | zero => exact .ofNone matching
  | succ size ih =>
    cases size' with
    | zero => contradiction
    | succ size' =>
      have h := ih (Nat.le_of_succ_le_succ fits)
      exact {
        matching := matching
        expression := h.ofBinary
        operators := h.ofOperators
        conversions := h.ofConversions
        phrase := h.ofPhrase
        items := h.ofItems (h.ofBinary 0)
        arguments := h.ofArguments
        groups := h.ofGroups
        statements := fun close expected closes => h.ofStatements closes expected
        alternatives := h.ofAlternatives
        parameters := h.ofParameters
        headerGroups := h.ofHeaderGroups
        members := h.ofMembers }

end Inner.Follows

end Satzbau.Parser

import Satzbau.Proofs.Following.Rules

namespace Satzbau.Parser

variable {R : List (Except Diagnostic Token) → List (Except Diagnostic Token) → Prop} {front : Token → Prop}

/-- What the parsers for the inside of a construct do with related inputs. -/
structure Inner.Follows (R : List (Except Diagnostic Token) → List (Except Diagnostic Token) → Prop)
    (inner inner' : Inner) : Prop where
  matching : Matching R
  expression : ∀ least, Parser.Follows R (fun _ => True) (inner.expression least) (inner'.expression least)
  operators : ∀ least left,
    Parser.Follows R (fun _ => True) (inner.operators least left) (inner'.operators least left)
  conversions : ∀ value, Parser.Follows R (fun _ => True) (inner.conversions value) (inner'.conversions value)
  phrase : ∀ determiner kind noun,
    Parser.Follows R (fun _ => True) (inner.phrase determiner kind noun) (inner'.phrase determiner kind noun)
  items : Parser.Follows R (fun _ => True) inner.items inner'.items
  arguments : Parser.Follows R (fun _ => True) inner.arguments inner'.arguments
  groups : Parser.Follows R (fun _ => True) inner.groups inner'.groups
  statements : ∀ close expected, close = .period ∨ close = .bang →
    Parser.Follows R (fun _ => True) (inner.statements close expected) (inner'.statements close expected)
  alternatives : Parser.Follows R (fun _ => True) inner.alternatives inner'.alternatives
  parameters : Parser.Follows R (fun _ => True) inner.parameters inner'.parameters
  headerGroups : Parser.Follows R (fun _ => True) inner.headerGroups inner'.headerGroups
  members : Parser.Follows R (fun _ => True) inner.members inner'.members

namespace Inner.Follows

variable {inner inner' : Inner}

theorem ofNone (matching : Matching R) : Inner.none.Follows R inner where
  matching := matching
  expression _ := .unexpected
  operators _ _ := .unexpected
  conversions _ := .unexpected
  phrase _ _ _ := .unexpected
  items := .unexpected
  arguments := .unexpected
  groups := .unexpected
  statements _ _ _ := .unexpected
  alternatives := .unexpected
  parameters := .unexpected
  headerGroups := .unexpected
  members := .unexpected

theorem ofOperators (h : inner.Follows R inner') (least : Nat) (left : Expression) :
    Parser.Follows R front (Parser.operators inner least left) (Parser.operators inner' least left) := by
  unfold Parser.operators
  refine .peek h.matching fun token token' alike => ?_
  rw [← alike.operator?]
  split
  · exact .pure _
  · rename_i operator known
    split
    · exact .pure _
    · exact .bind (.advanceAt h.matching (other_of_operator known)) fun token =>
        .bind (h.expression _) fun right => h.operators _ _

theorem ofConversions (h : inner.Follows R inner') (value : Expression) :
    Parser.Follows R front (Parser.conversions inner value) (Parser.conversions inner' value) := by
  unfold Parser.conversions
  refine .look (.at? _) (.at? h.matching _) fun found => ?_
  split
  · rename_i there
    exact .bind (.advanceIf h.matching there (by simp)) fun token => .bind (.expectNoun h.matching) fun noun =>
      .bind (.nounPhrase _ _) fun target => h.conversions _
  · exact .pure _

theorem ofItems (h : inner.Follows R inner') {p q : Parser Expression}
    (follows : Parser.Follows R (fun _ => True) p q) :
    Parser.Follows R front (Parser.items inner p) (Parser.items inner' q) := by
  unfold Parser.items
  refine .bind follows.anywhere fun first => .bind (.eat h.matching (by simp)) fun found => ?_
  split
  · exact .bind h.items fun later => .pure _
  · exact .bind (.expect h.matching (by simp) _) fun _ => .pure _

theorem ofDefinitePhrase (h : inner.Follows R inner') (phrase : NounPhrase) :
    Parser.Follows R front (Parser.definitePhrase inner phrase) (Parser.definitePhrase inner' phrase) := by
  unfold Parser.definitePhrase
  refine .bind (.eat h.matching (by simp)) fun found => ?_
  split
  · exact .bind (h.expression 0) fun index => .bind (.expect h.matching (by simp) _) fun _ => .pure _
  · refine .bind (.atOwner h.matching) fun owned => ?_
    split
    · exact .bind (.expectDeterminer h.matching) fun found => .bind (.expectNoun h.matching) fun noun =>
        .bind (h.phrase _ _ _) fun owner => .pure _
    · exact .pure _

theorem ofIndefinitePhrase (h : inner.Follows R inner') (phrase : NounPhrase) :
    Parser.Follows R front (Parser.indefinitePhrase inner phrase) (Parser.indefinitePhrase inner' phrase) := by
  unfold Parser.indefinitePhrase
  refine .bind (.eat h.matching (by simp)) fun found => ?_
  split
  · refine .bind (.eat h.matching (by simp)) fun empty => ?_
    split
    · exact .pure _
    · exact .bind h.items fun items => .pure _
  · refine .look (.at? _) (.at? h.matching _) fun along => ?_
    split
    · rename_i there
      refine .peekSecond h.matching ?_ fun second second' alike => ?_
      · exact fun _ known => by simp [known.2 there]
      · rw [← alike.determiner?]
        split
        · exact .bind (.advance h.matching fun _ known => by simp [known.2 there]) fun _ =>
            .bind h.arguments fun fields => .pure _
        · exact .pure _
    · exact .pure _

theorem ofPhrase (h : inner.Follows R inner') (determiner : Token) (kind : Determiner) (noun : Token) :
    Parser.Follows R front (Parser.phrase inner determiner kind noun)
      (Parser.phrase inner' determiner kind noun) := by
  unfold Parser.phrase
  cases kind with
  | definite => exact .bind (.nounPhrase _ _) fun phrase => h.ofDefinitePhrase phrase
  | indefinite => exact .bind (.nounPhrase _ _) fun phrase => h.ofIndefinitePhrase phrase
  | quantifier => exact .throw _
  | firstPossessive => exact .bind (.require _ _ _) fun _ => .bind (.nounPhrase _ _) fun phrase => .pure _
  | secondPossessive => exact .bind (.require _ _ _) fun _ => .bind (.nounPhrase _ _) fun phrase => .pure _

theorem ofNounExpression (h : inner.Follows R inner') (determiner : Token) (kind : Determiner)
    (noun : Token) :
    Parser.Follows R front (Parser.nounExpression inner determiner kind noun)
      (Parser.nounExpression inner' determiner kind noun) := by
  unfold Parser.nounExpression
  refine .bind (h.ofPhrase _ _ _) fun value => .bind (h.ofConversions _) fun converted => .read fun scope => ?_
  split
  · exact .pure _
  · refine .peek h.matching fun token token' alike => ?_
    rw [← alike.operator?]
    split
    · exact .within _ (h.ofOperators 0 _)
    · exact .pure _

theorem ofRoleThenValue (h : inner.Follows R inner') (determiner noun : Token) :
    Parser.Follows R front
      (do
        let role ← nounPhrase (some determiner) noun
        if beginsValue (← peek).kind then return ⟨role, some (← inner.expression 0)⟩
        return ⟨role, Option.none⟩ : Parser Argument)
      (do
        let role ← nounPhrase (some determiner) noun
        if beginsValue (← peek).kind then return ⟨role, some (← inner'.expression 0)⟩
        return ⟨role, Option.none⟩ : Parser Argument) := by
  refine .bind (.nounPhrase _ _) fun role => .peek h.matching fun token token' alike => ?_
  rw [← alike.kind]
  split
  · exact .bind (h.expression 0).anywhere fun value => .pure _
  · exact .pure _

theorem ofArgument (h : inner.Follows R inner') :
    Parser.Follows R front (Parser.argument inner) (Parser.argument inner') := by
  unfold Parser.argument
  refine .within _ (.bind (.expectDeterminer h.matching) fun found => ?_)
  obtain ⟨determiner, kind⟩ := found
  dsimp only
  split
  · exact .fail _
  · refine .bind (.requireOwner _ _) fun _ => .bind (.expectNoun h.matching) fun noun => ?_
    split
    · refine .bind (.atOwner h.matching) fun owned => ?_
      split
      · refine .bind (h.ofNounExpression _ _ _) fun value => ?_
        split
        · exact .pure _
        · exact .fail _
      · exact h.ofRoleThenValue determiner noun
    · exact h.ofRoleThenValue determiner noun

theorem ofArguments (h : inner.Follows R inner') :
    Parser.Follows R front (Parser.arguments inner) (Parser.arguments inner') := by
  unfold Parser.arguments
  refine .bind h.ofArgument fun first => .bind (.eat h.matching (by simp)) fun found => ?_
  split
  · exact .bind h.arguments fun later => .pure _
  · exact .pure _

theorem ofGroups (h : inner.Follows R inner') :
    Parser.Follows R front (Parser.groups inner) (Parser.groups inner') := by
  unfold Parser.groups
  refine .look .atPreposition (.atPreposition h.matching) fun found => ?_
  split
  · rename_i there
    refine .bind (.advance h.matching ?_) fun preposition =>
      .bind h.ofArguments fun items => .bind h.groups fun later => .pure _
    exact fun _ known => other_of_introduces (known.2 there)
  · exact .pure _

theorem ofCallObject (h : inner.Follows R inner') :
    Parser.Follows R front (Parser.callObject inner) (Parser.callObject inner') := by
  unfold Parser.callObject
  refine .peek h.matching fun token token' alike => ?_
  rw [← alike.kind]
  split
  · exact .bind h.ofArgument fun argument => .pure _
  · rename_i kind
    exact .bind (.advanceAt h.matching (by simp [kind])) fun token => .bind (.require _ _ _) fun _ => .pure _
  · rename_i kind
    exact .bind (.advanceAt h.matching (by simp [kind])) fun token => .bind (.require _ _ _) fun _ => .pure _
  · exact .pure _

theorem ofCall (h : inner.Follows R inner') :
    Parser.Follows R front (Parser.call inner) (Parser.call inner') := by
  unfold Parser.call
  exact .within _ (.bind .freshId fun id => .bind (.expect h.matching (by simp) _) fun verb =>
    .bind h.ofCallObject fun object => .bind h.ofGroups fun groups => .bind (.optionalWord h.matching) fun suffix =>
    .pure _)

theorem ofPrimary (h : inner.Follows R inner') :
    Parser.Follows R front (Parser.primary inner) (Parser.primary inner') := by
  unfold Parser.primary
  refine .peek h.matching fun token token' alike => ?_
  rw [← alike.kind]
  split
  · rename_i kind
    exact .bind (.advanceAt h.matching (by simp [kind])) fun token => .pure _
  · rename_i kind
    exact .bind (.advanceAt h.matching (by simp [kind])) fun token => .pure _
  · rename_i kind
    exact .bind (.advanceAt h.matching (by simp [kind])) fun token => .pure _
  · rename_i kind
    exact .bind (.advanceAt h.matching (by simp [kind])) fun _ => .bind (h.expression 0) fun value =>
      .bind (.expect h.matching (by simp) _) fun _ => .pure _
  · exact .bind h.ofCall fun c => .pure _
  · rename_i kind
    exact .bind (.advanceAt h.matching (by simp [kind])) fun token => .bind (.nounPhrase _ _) fun phrase => .pure _
  · rename_i kind
    obtain rfl := alike.eq (by simp [kind])
    refine .look (.requireSelf token) (.require _ _ _) fun _ => ?_
    exact .bind (.advance h.matching fun _ known => by simp [known.1.2, kind]) fun token => .pure _
  · rename_i kind
    obtain rfl := alike.eq (by simp [kind])
    refine .look (.requireMethodBlock token) (.require _ _ _) fun _ => ?_
    exact .bind (.advance h.matching fun _ known => by simp [known.1.2, kind]) fun token => .pure _
  · rename_i kind
    exact .bind (.advanceAt h.matching (by simp [kind])) fun determiner => .bind (.expectNoun h.matching) fun noun =>
      h.ofNounExpression _ _ _
  · exact .throw _

theorem ofOperand (h : inner.Follows R inner') :
    Parser.Follows R front (Parser.operand inner) (Parser.operand inner') := by
  unfold Parser.operand
  refine .peek h.matching fun token token' alike => ?_
  rw [← alike.operator?]
  split
  · rename_i isMinus
    exact .bind (.advanceAt h.matching (other_of_operator isMinus)) fun token =>
      .bind (h.expression _) fun operand => .pure _
  · exact .bind h.ofPrimary fun value => h.ofConversions value

theorem ofBinary (h : inner.Follows R inner') (least : Nat) :
    Parser.Follows R front (Parser.binary inner least) (Parser.binary inner' least) := by
  unfold Parser.binary
  exact .within _ (.bind h.ofOperand fun left => h.ofOperators least left)

end Inner.Follows

end Satzbau.Parser

import Satzbau.Proofs.Progress.Rules

namespace Satzbau.Parser

variable {limit : Nat} {uses : Bool} {front : Token → Prop}

/-- Parsers for the inside of constructs that do the same wherever fewer than `limit` items are left. A block may be
closed by any sign but the end of the file. -/
structure Inner.InStep (limit : Nat) (inner inner' : Inner) : Prop where
  expression : ∀ {front : Token → Prop} (least : Nat),
    Parser.InStep limit false front (inner.expression least) (inner'.expression least)
  operators : ∀ {front : Token → Prop} (least : Nat) (left : Expression),
    Parser.InStep limit false front (inner.operators least left) (inner'.operators least left)
  conversions : ∀ {front : Token → Prop} (value : Expression),
    Parser.InStep limit false front (inner.conversions value) (inner'.conversions value)
  phrase : ∀ {front : Token → Prop} (determiner : Token) (kind : Determiner) (noun : Token),
    Parser.InStep limit false front (inner.phrase determiner kind noun) (inner'.phrase determiner kind noun)
  items : ∀ {front : Token → Prop}, Parser.InStep limit false front inner.items inner'.items
  arguments : ∀ {front : Token → Prop}, Parser.InStep limit false front inner.arguments inner'.arguments
  groups : ∀ {front : Token → Prop}, Parser.InStep limit false front inner.groups inner'.groups
  statements : ∀ {front : Token → Prop} {close : TokenKind} (expected : String), close ≠ .fileEnd →
    Parser.InStep limit false front (inner.statements close expected) (inner'.statements close expected)
  alternatives : ∀ {front : Token → Prop}, Parser.InStep limit false front inner.alternatives inner'.alternatives
  parameters : ∀ {front : Token → Prop}, Parser.InStep limit false front inner.parameters inner'.parameters
  headerGroups : ∀ {front : Token → Prop}, Parser.InStep limit false front inner.headerGroups inner'.headerGroups
  members : ∀ {front : Token → Prop}, Parser.InStep limit false front inner.members inner'.members
  program : ∀ {front : Token → Prop}, Parser.InStep limit false front inner.program inner'.program

namespace Inner.InStep

variable {inner inner' : Inner}

theorem ofOperators (h : inner.InStep limit inner') (least : Nat) (left : Expression) :
    Parser.InStep (limit + 1) false front (Parser.operators inner least left) (Parser.operators inner' least left) := by
  unfold Parser.operators
  refine .look .peek fun token => ?_
  split
  · exact .pure _
  · rename_i operator isOperator
    split
    · exact .pure _
    · exact .after (.advanceAt (Keeps.inside_of_operator isOperator)) fun token => .bind (h.expression _) fun right =>
        h.operators _ _

theorem ofConversions (h : inner.InStep limit inner') (value : Expression) :
    Parser.InStep (limit + 1) false front (Parser.conversions inner value) (Parser.conversions inner' value) := by
  unfold Parser.conversions
  refine .look (.at? _) fun found => ?_
  split
  · rename_i there
    exact .after (.advanceIf there (by simp)) fun token => .bind .expectNoun fun noun =>
      .bind (.nounPhrase _ _) fun target => h.conversions _
  · exact .pure _

theorem ofItems (h : inner.InStep limit inner') {p q : Parser Expression}
    (inStep : Parser.InStep (limit + 1) true (fun _ => True) p q) :
    Parser.InStep (limit + 1) uses front (Parser.items inner p) (Parser.items inner' q) := by
  unfold Parser.items
  refine .after inStep.anywhere fun first => .eat (by simp) (Nat.le_succ _) ?_ ?_
  · exact .bind h.items fun later => .pure _
  · exact .bind (.expect (by simp) _) fun _ => .pure _

theorem ofDefinitePhrase (h : inner.InStep limit inner') (phrase : NounPhrase) :
    Parser.InStep (limit + 1) false front (Parser.definitePhrase inner phrase) (Parser.definitePhrase inner' phrase) := by
  unfold Parser.definitePhrase
  refine .eat (by simp) (Nat.le_refl _) ?_ ?_
  · exact .bind (h.expression 0) fun index => .bind (.expect (by simp) _) fun _ => .pure _
  · refine .look .atOwner fun owned => ?_
    split
    · exact .after .expectDeterminer fun found => .bind .expectNoun fun noun => .bind (h.phrase _ _ _) fun owner => .pure _
    · exact .pure _

theorem ofIndefinitePhrase (h : inner.InStep limit inner') (phrase : NounPhrase) :
    Parser.InStep (limit + 1) false front (Parser.indefinitePhrase inner phrase)
      (Parser.indefinitePhrase inner' phrase) := by
  unfold Parser.indefinitePhrase
  refine .eat (by simp) (Nat.le_refl _) ?_ ?_
  · exact .eat (by simp) (Nat.le_succ _) (.pure _) (.bind h.items fun items => .pure _)
  · refine .look (.at? _) fun along => ?_
    split
    · rename_i there
      refine .look .peekSecond fun second => ?_
      split
      · exact .after (.advance fun _ isSeen => by simp [isSeen.1.2 there]) fun _ => .bind h.arguments fun fields => .pure _
      · exact .pure _
    · exact .pure _

theorem ofPhrase (h : inner.InStep limit inner') (determiner : Token) (kind : Determiner) (noun : Token) :
    Parser.InStep (limit + 1) false front (Parser.phrase inner determiner kind noun)
      (Parser.phrase inner' determiner kind noun) := by
  unfold Parser.phrase
  cases kind with
  | definite => exact .name fun id => h.ofDefinitePhrase _
  | indefinite => exact .name fun id => h.ofIndefinitePhrase _
  | quantifier => exact .throw _
  | firstPossessive => exact .look (.requireSelf _) fun _ => .name fun id => .pure _
  | secondPossessive => exact .look (.requireMethodBlock _) fun _ => .name fun id => .pure _

theorem ofNounExpression (h : inner.InStep limit inner') (determiner : Token) (kind : Determiner) (noun : Token) :
    Parser.InStep (limit + 1) false front (Parser.nounExpression inner determiner kind noun)
      (Parser.nounExpression inner' determiner kind noun) := by
  unfold Parser.nounExpression
  refine .bind (h.ofPhrase _ _ _) fun value => .bind (h.ofConversions _) fun converted => .read fun scope => ?_
  split
  · exact .pure _
  · refine .look .peek fun token => ?_
    split
    · exact .within _ (h.ofOperators _ _)
    · exact .pure _

theorem ofRoleThenValue (h : inner.InStep limit inner') (determiner noun : Token) :
    Parser.InStep limit false front
      (do
        let role ← nounPhrase (some determiner) noun
        if beginsValue (← peek).kind then return ⟨role, some (← inner.expression 0)⟩
        return ⟨role, Option.none⟩ : Parser Argument)
      (do
        let role ← nounPhrase (some determiner) noun
        if beginsValue (← peek).kind then return ⟨role, some (← inner'.expression 0)⟩
        return ⟨role, Option.none⟩ : Parser Argument) := by
  refine .name fun id => .look .peek fun token => ?_
  split
  · exact .bind (h.expression 0) fun value => .pure _
  · exact .pure _

theorem ofArgument (h : inner.InStep limit inner') :
    Parser.InStep (limit + 1) uses front (Parser.argument inner) (Parser.argument inner') := by
  unfold Parser.argument
  refine .within _ (.take .expectDeterminer fun found => ?_)
  obtain ⟨determiner, kind⟩ := found
  dsimp only
  split
  · exact .fail _
  · refine .look (.requireOwner _ _) fun _ => .after .expectNoun fun noun => ?_
    split
    · refine .look .atOwner fun owned => ?_
      split
      -- Behind the noun fewer items are left than the expression could do with.
      · refine .bind ((h.ofNounExpression _ _ _).less (Nat.le_succ _)) fun value => ?_
        split
        · exact .pure _
        · exact .fail _
      · exact h.ofRoleThenValue determiner noun
    · exact h.ofRoleThenValue determiner noun

theorem ofArguments (h : inner.InStep limit inner') :
    Parser.InStep (limit + 1) uses front (Parser.arguments inner) (Parser.arguments inner') := by
  unfold Parser.arguments
  exact .take h.ofArgument fun first => .eat (by simp) (Nat.le_refl _) (.bind h.arguments fun later => .pure _) (.pure _)

theorem ofGroups (h : inner.InStep limit inner') :
    Parser.InStep (limit + 1) false front (Parser.groups inner) (Parser.groups inner') := by
  unfold Parser.groups
  refine .look .atPreposition fun found => ?_
  split
  · rename_i there
    exact .take (.advance fun _ isSeen => Keeps.inside_of_introduces (isSeen.2 there)) fun preposition =>
      .after h.ofArguments fun items => .bind h.groups fun later => .pure _
  · exact .pure _

theorem ofCallObject (h : inner.InStep limit inner') :
    Parser.InStep (limit + 1) false front (Parser.callObject inner) (Parser.callObject inner') := by
  unfold Parser.callObject
  refine .look .peek fun token => ?_
  split
  · exact .bind h.ofArgument fun argument => .pure _
  · rename_i kind
    exact .bind (.advanceAt (by simp [kind])) fun token => .look (.requireSelf _) fun _ => .pure _
  · rename_i kind
    exact .bind (.advanceAt (by simp [kind])) fun token => .look (.requireMethodBlock _) fun _ => .pure _
  · exact .pure _

theorem ofCall (h : inner.InStep limit inner') :
    Parser.InStep (limit + 1) uses front (Parser.call inner) (Parser.call inner') := by
  unfold Parser.call
  exact .within _ (.bind .freshId fun id => .take (.expect (by simp) _) fun verb => .bind h.ofCallObject fun object =>
    .bind h.ofGroups fun groups => .bind .optionalWord fun suffix => .pure _)

theorem ofPrimary (h : inner.InStep limit inner') :
    Parser.InStep (limit + 1) uses front (Parser.primary inner) (Parser.primary inner') := by
  unfold Parser.primary
  refine .look .peek fun token => ?_
  split
  · rename_i kind
    exact .take (.advanceAt (by simp [kind])) fun token => .pure _
  · rename_i kind
    exact .take (.advanceAt (by simp [kind])) fun token => .pure _
  · rename_i kind
    exact .take (.advanceAt (by simp [kind])) fun token => .pure _
  · rename_i kind
    exact .after (.advanceAt (by simp [kind])) fun _ => .bind (h.expression 0) fun value =>
      .bind (.expect (by simp) _) fun _ => .pure _
  · exact .take h.ofCall fun c => .pure _
  · rename_i kind
    exact .take (.advanceAt (by simp [kind])) fun token => .name fun id => .pure _
  · rename_i kind
    refine .look (.requireSelf token) fun _ => ?_
    exact .take (.advance fun _ isSeen => by simp [isSeen.1.2, kind]) fun token => .pure _
  · rename_i kind
    refine .look (.requireMethodBlock token) fun _ => ?_
    exact .take (.advance fun _ isSeen => by simp [isSeen.1.2, kind]) fun token => .pure _
  · rename_i kind
    exact .take (.advanceAt (by simp [kind])) fun determiner => .bind .expectNoun fun noun => h.ofNounExpression _ _ _
  · exact .throw _

theorem ofOperand (h : inner.InStep limit inner') :
    Parser.InStep (limit + 1) uses front (Parser.operand inner) (Parser.operand inner') := by
  unfold Parser.operand
  refine .look .peek fun token => ?_
  split
  · rename_i isMinus
    exact .after (.advanceAt (Keeps.inside_of_operator isMinus)) fun token => .bind (h.expression _) fun operand => .pure _
  · exact .take h.ofPrimary fun value => h.ofConversions _

theorem ofBinary (h : inner.InStep limit inner') (least : Nat) :
    Parser.InStep (limit + 1) uses front (Parser.binary inner least) (Parser.binary inner' least) := by
  unfold Parser.binary
  exact .within _ (.take h.ofOperand fun left => h.ofOperators least _)

end Inner.InStep

end Satzbau.Parser

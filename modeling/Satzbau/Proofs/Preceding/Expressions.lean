import Satzbau.Proofs.Preceding.Rules

namespace Satzbau.Parser

variable {E : Endings} {limit : Nat} {uses : Bool} {front : Token → Prop} {known : Prop}

/-- Whether an expression begins at a late place. -/
def Endings.BeginsLate (E : Endings) (e : Expression) : Prop :=
  E.late e.firstToken.location

/-- What the parsers for the inside of a construct make of the front part of an input. -/
structure Inner.Decides (E : Endings) (limit : Nat) (inner inner' : Inner) : Prop where
  expression : ∀ {front : Token → Prop} {known : Prop} (least : Nat),
    Parser.Decides E limit false false .line front known (inner.expression least) (inner'.expression least) E.BeginsLate
  operators : ∀ {front : Token → Prop} {known : Prop} (least : Nat) {left : Expression}, (known → E.BeginsLate left) →
    Parser.Decides E limit false false .line front known (inner.operators least left) (inner'.operators least left)
      E.BeginsLate
  conversions : ∀ {front : Token → Prop} {known : Prop} {value : Expression}, (known → E.BeginsLate value) →
    Parser.Decides E limit false false .line front known (inner.conversions value) (inner'.conversions value) E.BeginsLate
  phrase : ∀ {front : Token → Prop} {known : Prop} {determiner : Token} (kind : Determiner) (noun : Token),
    (known → E.late determiner.location) →
      Parser.Decides E limit false false .line front known (inner.phrase determiner kind noun)
        (inner'.phrase determiner kind noun) E.BeginsLate
  items : ∀ {front : Token → Prop} {known : Prop},
    Parser.Decides E limit false false .line front known inner.items inner'.items fun _ => True
  arguments : ∀ {front : Token → Prop} {known : Prop},
    Parser.Decides E limit false false .line front known inner.arguments inner'.arguments fun _ => True
  groups : ∀ {front : Token → Prop} {known : Prop},
    Parser.Decides E limit false false .line front known inner.groups inner'.groups fun _ => True
  statements : ∀ {front : Token → Prop} {known : Prop} {close : TokenKind} (expected : String), close ≠ .lineEnd →
    Parser.Decides E limit false false .past front known (inner.statements close expected)
      (inner'.statements close expected) fun _ => True
  alternatives : ∀ {front : Token → Prop} {known : Prop},
    Parser.Decides E limit false false .atEnd front known inner.alternatives inner'.alternatives fun _ => True
  parameters : ∀ {front : Token → Prop} {known : Prop},
    Parser.Decides E limit false false .line front known inner.parameters inner'.parameters fun _ => True
  headerGroups : ∀ {front : Token → Prop} {known : Prop},
    Parser.Decides E limit false false .line front known inner.headerGroups inner'.headerGroups fun _ => True
  members : ∀ {front : Token → Prop} {known : Prop},
    Parser.Decides E limit false false .past front known inner.members inner'.members fun _ => True
  program : ∀ {front : Token → Prop} {known : Prop},
    Parser.Decides E limit false false .past front known inner.program inner'.program fun _ => True

namespace Inner.Decides

variable {inner inner' : Inner}

theorem ofOperators (h : inner.Decides E limit inner') (least : Nat) {left : Expression} (begins : known → E.BeginsLate left) :
    Parser.Decides E (limit + 1) false false .line front known (Parser.operators inner least left)
      (Parser.operators inner' least left) E.BeginsLate := by
  unfold Parser.operators
  refine .look .peek .peek fun token => ?_
  split
  · exact .pure fun isKnown => begins isKnown.1
  · rename_i operator isOperator
    split
    · exact .pure fun isKnown => begins isKnown.1
    · exact .after (.advanceAt (inside_of_operator isOperator)) fun token => .bind (h.expression _) fun right =>
        h.operators _ fun isKnown => begins isKnown.1.1.1

theorem ofConversions (h : inner.Decides E limit inner') {value : Expression} (begins : known → E.BeginsLate value) :
    Parser.Decides E (limit + 1) false false .line front known (Parser.conversions inner value)
      (Parser.conversions inner' value) E.BeginsLate := by
  unfold Parser.conversions
  refine .look (.at? _) (.at? _) fun found => ?_
  split
  · rename_i there
    exact .after (.advanceIf there (by simp)) fun token => .bind .expectNoun fun noun => .bind (.nounPhrase _ _) fun target =>
      h.conversions fun isKnown => begins isKnown.1.1.1.1
  · exact .pure fun isKnown => begins isKnown.1

theorem ofItems (h : inner.Decides E limit inner') {p q : Parser Expression}
    (decides : Parser.Decides E (limit + 1) true false .line (fun _ => True) known p q E.BeginsLate) :
    Parser.Decides E (limit + 1) uses false .line front known (Parser.items inner p) (Parser.items inner' q)
      fun _ => True := by
  unfold Parser.items
  refine .after decides.anywhere fun first => .eat (by simp) (Nat.le_succ _) ?_ ?_
  · exact .bind h.items fun later => .pure fun _ => trivial
  · exact .take (.expect (by simp) _) fun _ => .pure fun _ => trivial

theorem ofDefinitePhrase (h : inner.Decides E limit inner') {phrase : NounPhrase}
    (begins : known → E.late phrase.firstToken.location) :
    Parser.Decides E (limit + 1) false false .line front known (Parser.definitePhrase inner phrase)
      (Parser.definitePhrase inner' phrase) E.BeginsLate := by
  unfold Parser.definitePhrase
  refine .eat (by simp) (Nat.le_refl _) ?_ ?_
  · exact .bind (h.expression 0) fun index => .bind (.expect (by simp) _) fun _ => .pure fun isKnown => begins isKnown.1.1
  · refine .bind .atOwner fun owned => ?_
    split
    · exact .after .expectDeterminer fun found => .bind .expectNoun fun noun =>
        .bind (h.phrase _ _ fun isKnown => isKnown.1.2) fun owner => .pure fun isKnown => begins isKnown.1.1.1.1
    · exact .pure fun isKnown => begins isKnown.1

theorem ofIndefinitePhrase (h : inner.Decides E limit inner') {phrase : NounPhrase}
    (begins : known → E.late phrase.firstToken.location) :
    Parser.Decides E (limit + 1) false false .line front known (Parser.indefinitePhrase inner phrase)
      (Parser.indefinitePhrase inner' phrase) E.BeginsLate := by
  unfold Parser.indefinitePhrase
  refine .eat (by simp) (Nat.le_refl _) ?_ ?_
  · refine .eat (by simp) (Nat.le_succ _) ?_ ?_
    · exact .pure begins
    · exact .bind h.items fun items => .pure fun isKnown => begins isKnown.1
  · refine .look (.at? _) (.at? _) fun along => ?_
    split
    · rename_i there
      refine .look .peekSecond (.peekSecond fun _ isSeen => by simp [isSeen.2 there]) fun second => ?_
      split
      · exact .after (.advance fun _ isSeen => by simp [isSeen.1.2 there]) fun _ =>
          .bind h.arguments fun fields => .pure fun isKnown => begins isKnown.1.1.1.1
      · exact .pure fun isKnown => begins isKnown.1.1
    · exact .pure fun isKnown => begins isKnown.1

theorem ofPhrase (h : inner.Decides E limit inner') {determiner : Token} (kind : Determiner) (noun : Token)
    (begins : known → E.late determiner.location) :
    Parser.Decides E (limit + 1) false false .line front known (Parser.phrase inner determiner kind noun)
      (Parser.phrase inner' determiner kind noun) E.BeginsLate := by
  unfold Parser.phrase
  cases kind with
  | definite => exact .name fun id => h.ofDefinitePhrase begins
  | indefinite => exact .name fun id => h.ofIndefinitePhrase begins
  | quantifier => exact .throw begins rfl
  | firstPossessive => exact .bind (.require _ _ begins) fun _ => .name fun id => .pure fun isKnown => begins isKnown.1
  | secondPossessive => exact .bind (.require _ _ begins) fun _ => .name fun id => .pure fun isKnown => begins isKnown.1

theorem ofNounExpression (h : inner.Decides E limit inner') {determiner : Token} (kind : Determiner) (noun : Token)
    (begins : known → E.late determiner.location) :
    Parser.Decides E (limit + 1) false false .line front known (Parser.nounExpression inner determiner kind noun)
      (Parser.nounExpression inner' determiner kind noun) E.BeginsLate := by
  unfold Parser.nounExpression
  refine .bind (h.ofPhrase _ _ begins) fun value => .bind (h.ofConversions And.right) fun converted => .read fun around => ?_
  split
  · exact .pure And.right
  · refine .bind .peek fun token => ?_
    split
    · exact .within _ (h.ofOperators 0 fun isKnown => isKnown.1.2)
    · exact .pure fun isKnown => isKnown.1.2

theorem ofRoleThenValue (h : inner.Decides E limit inner') (determiner noun : Token) :
    Parser.Decides E limit false false .line front known
      (do
        let role ← nounPhrase (some determiner) noun
        if beginsValue (← peek).kind then return ⟨role, some (← inner.expression 0)⟩
        return ⟨role, Option.none⟩ : Parser Argument)
      (do
        let role ← nounPhrase (some determiner) noun
        if beginsValue (← peek).kind then return ⟨role, some (← inner'.expression 0)⟩
        return ⟨role, Option.none⟩ : Parser Argument) fun _ => True := by
  refine .bind (.nounPhrase _ _) fun role => .bind .peek fun token => ?_
  split
  · exact .bind (h.expression 0) fun value => .pure fun _ => trivial
  · exact .pure fun _ => trivial

theorem ofArgument (h : inner.Decides E limit inner') :
    Parser.Decides E (limit + 1) uses false .line front known (Parser.argument inner) (Parser.argument inner')
      fun _ => True := by
  unfold Parser.argument
  refine .within _ (.take .expectDeterminer fun found => ?_)
  obtain ⟨determiner, kind⟩ := found
  dsimp only
  split
  · exact .fail And.right rfl
  · refine .bind (.requireOwner _ And.right) fun _ => .after .expectNoun fun noun => ?_
    split
    · refine .bind .atOwner fun owned => ?_
      split
      · refine .bind ((h.ofNounExpression _ _ fun isKnown => isKnown.1.1.1.2).less (Nat.le_succ _)) fun value => ?_
        split
        · exact .pure fun _ => trivial
        · exact .failInternal
      · exact h.ofRoleThenValue determiner noun
    · exact h.ofRoleThenValue determiner noun

theorem ofArguments (h : inner.Decides E limit inner') :
    Parser.Decides E (limit + 1) uses false .line front known (Parser.arguments inner) (Parser.arguments inner')
      fun _ => True := by
  unfold Parser.arguments
  refine .take h.ofArgument fun first => .eat (by simp) (Nat.le_refl _) ?_ ?_
  · exact .bind h.arguments fun later => .pure fun _ => trivial
  · exact .pure fun _ => trivial

theorem ofGroups (h : inner.Decides E limit inner') :
    Parser.Decides E (limit + 1) false false .line front known (Parser.groups inner) (Parser.groups inner')
      fun _ => True := by
  unfold Parser.groups
  refine .look .atPreposition .atPreposition fun found => ?_
  split
  · rename_i there
    exact .take (.advance fun _ isSeen => inside_of_introduces (isSeen.2 there)) fun preposition =>
      .after h.ofArguments fun items => .bind h.groups fun later => .pure fun _ => trivial
  · exact .pure fun _ => trivial

theorem ofCallObject (h : inner.Decides E limit inner') :
    Parser.Decides E (limit + 1) false false .line front known (Parser.callObject inner) (Parser.callObject inner')
      fun _ => True := by
  unfold Parser.callObject
  refine .look .peek .peek fun token => ?_
  split
  · exact .bind h.ofArgument fun argument => .pure fun _ => trivial
  · rename_i kind
    exact .bind (.advanceAt (by simp [kind])) fun token => .bind (.require _ _ And.right) fun _ => .pure fun _ => trivial
  · rename_i kind
    exact .bind (.advanceAt (by simp [kind])) fun token => .bind (.require _ _ And.right) fun _ => .pure fun _ => trivial
  · exact .pure fun _ => trivial

theorem ofCall (h : inner.Decides E limit inner') :
    Parser.Decides E (limit + 1) uses false .line front known (Parser.call inner) (Parser.call inner')
      fun c => E.late c.verb.location := by
  unfold Parser.call
  exact .within _ (.bind .freshId fun id => .take (.expect (by simp) _) fun verb => .bind h.ofCallObject fun object =>
    .bind h.ofGroups fun groups => .bind .optionalWord fun suffix => .pure fun isKnown => isKnown.1.1.1.2)

theorem ofPrimary (h : inner.Decides E limit inner') :
    Parser.Decides E (limit + 1) uses false .line front known (Parser.primary inner) (Parser.primary inner')
      E.BeginsLate := by
  unfold Parser.primary
  refine .look .peek .peek fun token => ?_
  split
  · rename_i kind
    exact .take (.advanceAt (by simp [kind])) fun token => .pure And.right
  · rename_i kind
    exact .take (.advanceAt (by simp [kind])) fun token => .pure And.right
  · rename_i kind
    exact .take (.advanceAt (by simp [kind])) fun token => .pure And.right
  · rename_i kind
    exact .after (.advanceAt (by simp [kind])) fun _ => .bind (h.expression 0) fun value =>
      .bind (.expect (by simp) _) fun _ => .pure fun isKnown => isKnown.1.2
  · exact .take h.ofCall fun c => .pure And.right
  · rename_i kind
    exact .take (.advanceAt (by simp [kind])) fun token => .name fun id => .pure And.right
  · rename_i kind
    refine .look (.requireSelf token) (.require _ _ And.right) fun _ => ?_
    exact .take (.advance fun _ isSeen => by simp [isSeen.1.2, kind]) fun token => .pure And.right
  · rename_i kind
    refine .look (.requireMethodBlock token) (.require _ _ And.right) fun _ => ?_
    exact .take (.advance fun _ isSeen => by simp [isSeen.1.2, kind]) fun token => .pure And.right
  · rename_i kind
    exact .take (.advanceAt (by simp [kind])) fun determiner => .bind .expectNoun fun noun =>
      h.ofNounExpression _ _ fun isKnown => isKnown.1.2
  · exact .throw And.right rfl

theorem ofOperand (h : inner.Decides E limit inner') :
    Parser.Decides E (limit + 1) uses false .line front known (Parser.operand inner) (Parser.operand inner')
      E.BeginsLate := by
  unfold Parser.operand
  refine .look .peek .peek fun token => ?_
  split
  · rename_i isMinus
    exact .after (.advanceAt (inside_of_operator isMinus)) fun token => .bind (h.expression _) fun operand =>
      .pure fun isKnown => isKnown.1.2
  · exact .take h.ofPrimary fun value => h.ofConversions And.right

theorem ofBinary (h : inner.Decides E limit inner') (least : Nat) :
    Parser.Decides E (limit + 1) uses false .line front known (Parser.binary inner least) (Parser.binary inner' least)
      E.BeginsLate := by
  unfold Parser.binary
  exact .within _ (.take h.ofOperand fun left => h.ofOperators least And.right)

end Inner.Decides

end Satzbau.Parser

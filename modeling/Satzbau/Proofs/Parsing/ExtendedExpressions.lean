import Satzbau.Proofs.Parsing.Extension

namespace Satzbau.Parser

variable {α β : Type} {more : List (Except Diagnostic Token)} {last : Token} {front : Token → Prop}

theorem inside_of_determiner {token : Token} {kind : Determiner} (isDeterminer : token.determiner? = some kind) :
    token.kind ≠ .lineEnd := by
  intro atLineEnd
  rw [Token.determiner?, atLineEnd] at isDeterminer
  contradiction

theorem inside_of_operator {token : Token} {operator : Operator} (isOperator : token.operator? = some operator) :
    token.kind ≠ .lineEnd := by
  intro atLineEnd
  rw [Token.operator?, atLineEnd] at isOperator
  contradiction

theorem inside_of_assigns {token : Token} (assigns : Assigns token) : token.kind ≠ .lineEnd := by
  intro atLineEnd
  rcases assigns with kind | kind <;> rw [atLineEnd] at kind <;> contradiction

theorem inside_of_introduces {token : Token} (introduces : token.kind.introducesGroup) : token.kind ≠ .lineEnd := by
  intro atLineEnd
  rw [atLineEnd] at introduces
  rcases introduces with other | other | other <;> contradiction

namespace Extends

theorem unexpected {expected : String} {q : Parser α} : Extends more last front (unexpected expected) q := by
  intro scope s a t _ _ _ _ run
  obtain ⟨_, _, _, thrown⟩ := bind_eq_ok run
  contradiction

theorem unexpectedThen {expected : String} {f : β → Parser α} {q : Parser α} :
    Extends more last front (Parser.unexpected expected >>= f) q := by
  intro scope s a t _ _ _ _ run
  obtain ⟨_, _, thrown, _⟩ := bind_eq_ok run
  obtain ⟨_, _, _, fails⟩ := bind_eq_ok thrown
  contradiction

theorem at? (kind : TokenKind) : Extends more last front (at? kind) (at? kind) :=
  bind peek fun _ => pure _

theorem eat {kind : TokenKind} (inside : kind ≠ .lineEnd) : Extends more last front (eat kind) (eat kind) := by
  unfold Parser.eat
  refine look (.at? kind) (at? kind) fun found => ?_
  split
  · rename_i there
    exact bind (advanceIf there inside) fun _ => pure _
  · exact pure _

theorem expect {kind : TokenKind} (inside : kind ≠ .lineEnd) (expected : String) :
    Extends more last front (expect kind expected) (expect kind expected) := by
  unfold Parser.expect
  refine look (.at? kind) (at? kind) fun found => ?_
  split
  · rename_i there
    exact advanceIf there inside
  · exact unexpected

theorem expectNoun : Extends more last front expectNoun expectNoun :=
  expect (by simp) _

theorem expectDeterminer : Extends more last front expectDeterminer expectDeterminer := by
  unfold Parser.expectDeterminer
  refine look .peek peek fun token => ?_
  split
  · rename_i kind isDeterminer
    exact bind (advanceAt (inside_of_determiner isDeterminer)) fun _ => pure _
  · exact throw _

theorem nounPhrase (determiner : Option Token) (noun : Token) :
    Extends more last front (nounPhrase determiner noun) (nounPhrase determiner noun) :=
  bind freshId fun _ => pure _

theorem optionalWord : Extends more last front optionalWord optionalWord := by
  unfold Parser.optionalWord
  refine look (.at? .word) (at? .word) fun found => ?_
  split
  · rename_i there
    exact bind (advanceIf there (by simp)) fun _ => pure _
  · exact pure _

theorem atPreposition : Extends more last front atPreposition atPreposition := by
  unfold Parser.atPreposition
  refine look .peek peek fun token => ?_
  split
  · rename_i kind
    exact bind (peekSecond fun _ known => by simp [known.2, kind]) fun _ => pure _
  · rename_i kind
    exact bind (peekSecond fun _ known => by simp [known.2, kind]) fun _ => pure _
  · rename_i kind
    exact bind (peekSecond fun _ known => by simp [known.2, kind]) fun _ => pure _
  · exact pure _

theorem atOwner : Extends more last front atOwner atOwner :=
  bind peek fun _ => pure _

theorem require (token : Token) (constructs : List Construct) (required : String) :
    Extends more last front (require token constructs required) (require token constructs required) := by
  unfold Parser.require
  refine read fun scope => ?_
  rw [Scope.around_endingWith]
  split
  · exact throw _
  · exact pure _

theorem requireOwner (token : Token) (kind : Determiner) :
    Extends more last front (requireOwner token kind) (requireOwner token kind) := by
  unfold Parser.requireOwner
  split
  · exact require token _ _
  · exact require token _ _
  · exact pure _

end Extends

/-- What the parsers for the inside of a construct do with an input that goes on. -/
structure Inner.Extends (more : List (Except Diagnostic Token)) (last : Token) (inner inner' : Inner) : Prop where
  expression : ∀ least, Parser.Extends more last (fun _ => True) (inner.expression least) (inner'.expression least)
  operators : ∀ least left,
    Parser.Extends more last (fun _ => True) (inner.operators least left) (inner'.operators least left)
  conversions : ∀ value, Parser.Extends more last (fun _ => True) (inner.conversions value) (inner'.conversions value)
  phrase : ∀ determiner kind noun,
    Parser.Extends more last (fun _ => True) (inner.phrase determiner kind noun) (inner'.phrase determiner kind noun)
  items : Parser.Extends more last (fun _ => True) inner.items inner'.items
  arguments : Parser.Extends more last (fun _ => True) inner.arguments inner'.arguments
  groups : Parser.Extends more last (fun _ => True) inner.groups inner'.groups
  statements : ∀ close expected, close = .period ∨ close = .bang →
    Parser.Extends more last (fun _ => True) (inner.statements close expected) (inner'.statements close expected) ∧
      Starves (inner.statements close expected)
  alternatives : Parser.Extends more last (fun _ => True) inner.alternatives inner'.alternatives
  parameters : Parser.Extends more last (fun _ => True) inner.parameters inner'.parameters
  headerGroups : Parser.Extends more last (fun _ => True) inner.headerGroups inner'.headerGroups
  members : Parser.Extends more last (fun _ => True) inner.members inner'.members ∧ Starves inner.members

theorem Starves.unexpected (expected : String) : Starves (unexpected expected : Parser α) := by
  intro scope s a t _ _ run
  obtain ⟨_, _, _, thrown⟩ := bind_eq_ok run
  contradiction

namespace Inner.Extends

variable {inner inner' : Inner}

theorem ofNone : Inner.none.Extends more last inner where
  expression _ := .unexpected
  operators _ _ := .unexpected
  conversions _ := .unexpected
  phrase _ _ _ := .unexpected
  items := .unexpected
  arguments := .unexpected
  groups := .unexpected
  statements _ _ _ := ⟨.unexpected, .unexpected _⟩
  alternatives := .unexpected
  parameters := .unexpected
  headerGroups := .unexpected
  members := ⟨.unexpected, .unexpected _⟩

theorem ofOperators (h : inner.Extends more last inner') (least : Nat) (left : Expression) :
    Parser.Extends more last front (Parser.operators inner least left) (Parser.operators inner' least left) := by
  unfold Parser.operators
  refine .look .peek .peek fun token => ?_
  split
  · exact .pure _
  · rename_i operator known
    split
    · exact .pure _
    · exact .bind (.advanceAt (inside_of_operator known)) fun token =>
        .bind (h.expression _) fun right => h.operators _ _

theorem ofConversions (h : inner.Extends more last inner') (value : Expression) :
    Parser.Extends more last front (Parser.conversions inner value) (Parser.conversions inner' value) := by
  unfold Parser.conversions
  refine .look (.at? _) (.at? _) fun found => ?_
  split
  · rename_i there
    exact .bind (.advanceIf there (by simp)) fun token => .bind .expectNoun fun noun =>
      .bind (.nounPhrase _ _) fun target => h.conversions _
  · exact .pure _

theorem ofItems (h : inner.Extends more last inner') {p q : Parser Expression}
    (extends' : Parser.Extends more last (fun _ => True) p q) :
    Parser.Extends more last front (Parser.items inner p) (Parser.items inner' q) := by
  unfold Parser.items
  refine .bind extends'.anywhere fun first => .bind (.eat (by simp)) fun found => ?_
  split
  · exact .bind h.items fun later => .pure _
  · exact .bind (.expect (by simp) _) fun _ => .pure _

theorem ofDefinitePhrase (h : inner.Extends more last inner') (phrase : NounPhrase) :
    Parser.Extends more last front (Parser.definitePhrase inner phrase) (Parser.definitePhrase inner' phrase) := by
  unfold Parser.definitePhrase
  refine .bind (.eat (by simp)) fun found => ?_
  split
  · exact .bind (h.expression 0) fun index => .bind (.expect (by simp) _) fun _ => .pure _
  · refine .bind .atOwner fun owned => ?_
    split
    · exact .bind .expectDeterminer fun found => .bind .expectNoun fun noun =>
        .bind (h.phrase _ _ _) fun owner => .pure _
    · exact .pure _

theorem ofIndefinitePhrase (h : inner.Extends more last inner') (phrase : NounPhrase) :
    Parser.Extends more last front (Parser.indefinitePhrase inner phrase) (Parser.indefinitePhrase inner' phrase) := by
  unfold Parser.indefinitePhrase
  refine .bind (.eat (by simp)) fun found => ?_
  split
  · refine .bind (.eat (by simp)) fun empty => ?_
    split
    · exact .pure _
    · exact .bind h.items fun items => .pure _
  · refine .look (.at? _) (.at? _) fun along => ?_
    split
    · rename_i there
      refine .look .peekSecond (.peekSecond fun _ known => by simp [known.2 there]) fun second => ?_
      split
      · exact .bind (.advance fun _ known => by simp [known.1.2 there]) fun _ =>
          .bind h.arguments fun fields => .pure _
      · exact .pure _
    · exact .pure _

theorem ofPhrase (h : inner.Extends more last inner') (determiner : Token) (kind : Determiner) (noun : Token) :
    Parser.Extends more last front (Parser.phrase inner determiner kind noun)
      (Parser.phrase inner' determiner kind noun) := by
  unfold Parser.phrase
  cases kind with
  | definite => exact .bind (.nounPhrase _ _) fun phrase => h.ofDefinitePhrase phrase
  | indefinite => exact .bind (.nounPhrase _ _) fun phrase => h.ofIndefinitePhrase phrase
  | quantifier => exact .throw _
  | firstPossessive => exact .bind (.require _ _ _) fun _ => .bind (.nounPhrase _ _) fun phrase => .pure _
  | secondPossessive => exact .bind (.require _ _ _) fun _ => .bind (.nounPhrase _ _) fun phrase => .pure _

theorem ofNounExpression (h : inner.Extends more last inner') (determiner : Token) (kind : Determiner)
    (noun : Token) :
    Parser.Extends more last front (Parser.nounExpression inner determiner kind noun)
      (Parser.nounExpression inner' determiner kind noun) := by
  unfold Parser.nounExpression
  refine .bind (h.ofPhrase _ _ _) fun value => .bind (h.ofConversions _) fun converted => .read fun scope => ?_
  rw [Scope.around_endingWith]
  split
  · exact .pure _
  · refine .bind .peek fun token => ?_
    split
    · exact .within _ (h.ofOperators 0 _)
    · exact .pure _

theorem ofRoleThenValue (h : inner.Extends more last inner') (determiner noun : Token) :
    Parser.Extends more last front
      (do
        let role ← nounPhrase (some determiner) noun
        if beginsValue (← peek).kind then return ⟨role, some (← inner.expression 0)⟩
        return ⟨role, Option.none⟩ : Parser Argument)
      (do
        let role ← nounPhrase (some determiner) noun
        if beginsValue (← peek).kind then return ⟨role, some (← inner'.expression 0)⟩
        return ⟨role, Option.none⟩ : Parser Argument) := by
  refine .bind (.nounPhrase _ _) fun role => .bind .peek fun token => ?_
  split
  · exact .bind (h.expression 0) fun value => .pure _
  · exact .pure _

theorem ofArgument (h : inner.Extends more last inner') :
    Parser.Extends more last front (Parser.argument inner) (Parser.argument inner') := by
  unfold Parser.argument
  refine .within _ (.bind .expectDeterminer fun found => ?_)
  obtain ⟨determiner, kind⟩ := found
  dsimp only
  split
  · exact .fail _
  · refine .bind (.requireOwner _ _) fun _ => .bind .expectNoun fun noun => ?_
    split
    · refine .bind .atOwner fun owned => ?_
      split
      · refine .bind (h.ofNounExpression _ _ _) fun value => ?_
        split
        · exact .pure _
        · exact .fail _
      · exact h.ofRoleThenValue determiner noun
    · exact h.ofRoleThenValue determiner noun

theorem ofArguments (h : inner.Extends more last inner') :
    Parser.Extends more last front (Parser.arguments inner) (Parser.arguments inner') := by
  unfold Parser.arguments
  refine .bind h.ofArgument fun first => .bind (.eat (by simp)) fun found => ?_
  split
  · exact .bind h.arguments fun later => .pure _
  · exact .pure _

theorem ofGroups (h : inner.Extends more last inner') :
    Parser.Extends more last front (Parser.groups inner) (Parser.groups inner') := by
  unfold Parser.groups
  refine .look .atPreposition .atPreposition fun found => ?_
  split
  · rename_i there
    exact .bind (.advance fun _ known => inside_of_introduces (known.2 there)) fun preposition =>
      .bind h.ofArguments fun items => .bind h.groups fun later => .pure _
  · exact .pure _

theorem ofCallObject (h : inner.Extends more last inner') :
    Parser.Extends more last front (Parser.callObject inner) (Parser.callObject inner') := by
  unfold Parser.callObject
  refine .look .peek .peek fun token => ?_
  split
  · exact .bind h.ofArgument fun argument => .pure _
  · rename_i kind
    exact .bind (.advanceAt (by simp [kind])) fun token => .bind (.require _ _ _) fun _ => .pure _
  · rename_i kind
    exact .bind (.advanceAt (by simp [kind])) fun token => .bind (.require _ _ _) fun _ => .pure _
  · exact .pure _

theorem ofCall (h : inner.Extends more last inner') :
    Parser.Extends more last front (Parser.call inner) (Parser.call inner') := by
  unfold Parser.call
  exact .within _ (.bind .freshId fun id => .bind (.expect (by simp) _) fun verb => .bind h.ofCallObject fun object =>
    .bind h.ofGroups fun groups => .bind .optionalWord fun suffix => .pure _)

theorem ofPrimary (h : inner.Extends more last inner') :
    Parser.Extends more last front (Parser.primary inner) (Parser.primary inner') := by
  unfold Parser.primary
  refine .look .peek .peek fun token => ?_
  split
  · rename_i kind
    exact .bind (.advanceAt (by simp [kind])) fun token => .pure _
  · rename_i kind
    exact .bind (.advanceAt (by simp [kind])) fun token => .pure _
  · rename_i kind
    exact .bind (.advanceAt (by simp [kind])) fun token => .pure _
  · rename_i kind
    exact .bind (.advanceAt (by simp [kind])) fun _ => .bind (h.expression 0) fun value =>
      .bind (.expect (by simp) _) fun _ => .pure _
  · exact .bind h.ofCall fun c => .pure _
  · rename_i kind
    exact .bind (.advanceAt (by simp [kind])) fun token => .bind (.nounPhrase _ _) fun phrase => .pure _
  · rename_i kind
    refine .look (.requireSelf token) (.require _ _ _) fun _ => ?_
    exact .bind (.advance fun _ known => by simp [known.1.2, kind]) fun token => .pure _
  · rename_i kind
    refine .look (.requireMethodBlock token) (.require _ _ _) fun _ => ?_
    exact .bind (.advance fun _ known => by simp [known.1.2, kind]) fun token => .pure _
  · rename_i kind
    exact .bind (.advanceAt (by simp [kind])) fun determiner => .bind .expectNoun fun noun => h.ofNounExpression _ _ _
  · exact .throw _

theorem ofOperand (h : inner.Extends more last inner') :
    Parser.Extends more last front (Parser.operand inner) (Parser.operand inner') := by
  unfold Parser.operand
  refine .look .peek .peek fun token => ?_
  split
  · rename_i isMinus
    exact .bind (.advanceAt (inside_of_operator isMinus)) fun token => .bind (h.expression _) fun operand => .pure _
  · exact .bind h.ofPrimary fun value => h.ofConversions value

theorem ofBinary (h : inner.Extends more last inner') (least : Nat) :
    Parser.Extends more last front (Parser.binary inner least) (Parser.binary inner' least) := by
  unfold Parser.binary
  exact .within _ (.bind h.ofOperand fun left => h.ofOperators least left)

end Inner.Extends

end Satzbau.Parser

import Satzbau.Proofs.Internal.Careful

namespace Satzbau.Parser.Inner.Careful

variable {inner : Inner}

theorem ofNone : Inner.none.Careful where
  expression _ := .unexpected _
  operators _ _ := .unexpected _
  conversions _ := .unexpected _
  phrase _ _ _ := .unexpected _
  items := .unexpected _
  arguments := .unexpected _
  groups := .unexpected _
  statements _ _ := .unexpected _
  alternatives := .unexpected _
  parameters := .unexpected _
  headerGroups := .unexpected _
  members := .unexpected _
  program := .unexpected _
  operatorsKeep _ _ _ := .unexpected _
  conversionsKeep _ _ := .unexpected _

theorem ofOperators (h : inner.Careful) (least : Nat) (left : Expression) :
    Parser.Careful (Parser.operators inner least left) := by
  unfold Parser.operators
  refine .bind .peek fun token => ?_
  split
  · exact .pure _
  · split
    · exact .pure _
    · exact .bind .advance fun token => .bind (h.expression _) fun right => h.operators least _

theorem keepsOfOperators (h : inner.Careful) (least : Nat) (left : Expression) (scope : Scope) :
    Gives scope (Parser.operators inner least left) (·.firstOperand = left.firstOperand) := by
  unfold Parser.operators
  refine .bind (.any _) fun token _ => ?_
  split
  · exact .pure rfl
  · split
    · exact .pure rfl
    · exact .bind (.any _) fun token _ => .bind (.any _) fun right _ => h.operatorsKeep least _ scope

theorem ofConversions (h : inner.Careful) (value : Expression) : Parser.Careful (Parser.conversions inner value) := by
  unfold Parser.conversions
  refine .bind (.at? _) fun found => ?_
  split
  · exact .bind .advance fun token => .bind .expectNoun fun noun => .bind (.nounPhrase _ _) fun target => h.conversions _
  · exact .pure _

theorem keepsOfConversions (h : inner.Careful) (value : Expression) (scope : Scope) :
    Gives scope (Parser.conversions inner value) (·.firstOperand = value.firstOperand) := by
  unfold Parser.conversions
  refine .bind (.any _) fun found _ => ?_
  split
  · exact .bind (.any _) fun token _ => .bind (.any _) fun noun _ => .bind (.any _) fun target _ =>
      h.conversionsKeep _ scope
  · exact .pure rfl

theorem ofItems (h : inner.Careful) {expression : Parser Expression} (first : Parser.Careful expression) :
    Parser.Careful (Parser.items inner expression) := by
  unfold Parser.items
  refine .bind first fun item => .bind (.eat _) fun more => ?_
  split
  · exact .bind h.items fun later => .pure _
  · exact .bind (.expect _ _) fun _ => .pure _

theorem ofDefinitePhrase (h : inner.Careful) (p : NounPhrase) : Parser.Careful (Parser.definitePhrase inner p) := by
  unfold Parser.definitePhrase
  refine .bind (.eat _) fun bracket => ?_
  split
  · exact .bind (h.expression 0) fun index => .bind (.expect _ _) fun _ => .pure _
  · refine .bind .atOwner fun owned => ?_
    split
    · exact .bind .expectDeterminer fun found => .bind .expectNoun fun noun =>
        .bind (h.phrase _ _ _) fun owner => .pure _
    · exact .pure _

theorem ofIndefinitePhrase (h : inner.Careful) (p : NounPhrase) : Parser.Careful (Parser.indefinitePhrase inner p) := by
  unfold Parser.indefinitePhrase
  refine .bind (.eat _) fun bracket => ?_
  split
  · refine .bind (.eat _) fun closed => ?_
    split
    · exact .pure _
    · exact .bind h.items fun items => .pure _
  · refine .bind (.at? _) fun along => ?_
    split
    · refine .bind .peekSecond fun token => ?_
      split
      · exact .bind .advance fun _ => .bind h.arguments fun fields => .pure _
      · exact .pure _
    · exact .pure _

theorem ofPhrase (h : inner.Careful) (determiner : Token) (kind : Determiner) (noun : Token) :
    Parser.Careful (Parser.phrase inner determiner kind noun) := by
  unfold Parser.phrase
  split
  · exact .bind (.nounPhrase _ _) fun p => h.ofDefinitePhrase p
  · exact .bind (.nounPhrase _ _) fun p => h.ofIndefinitePhrase p
  · exact .throw nofun
  · exact .bind (.require _ _ _) fun _ => .bind (.nounPhrase _ _) fun p => .pure _
  · exact .bind (.require _ _ _) fun _ => .bind (.nounPhrase _ _) fun p => .pure _

theorem ofNounExpression (h : inner.Careful) (determiner : Token) (kind : Determiner) (noun : Token) :
    Parser.Careful (Parser.nounExpression inner determiner kind noun) := by
  unfold Parser.nounExpression
  refine .bind (h.ofPhrase determiner kind noun) fun operand => .bind (h.ofConversions operand) fun value =>
    .read fun scope => ?_
  split
  · exact .pure _
  · refine .bind .peek fun token => ?_
    split
    · exact .within _ (h.ofOperators 0 value)
    · exact .pure _

/-- Whether an owner stands at the front does not depend on the ids. -/
theorem atOwner_renumbered {scope : Scope} {s : State} (owned : atOwner scope s = .ok (true, s)) (id : NodeId) :
    atOwner scope { s with nextId := id } = .ok (true, { s with nextId := id }) := by
  obtain ⟨token, middle, seen, judged⟩ := bind_eq_ok owned
  obtain ⟨rfl, _⟩ := peek_eq_ok seen
  have seen' : peek scope { middle with nextId := id } = .ok (token, { middle with nextId := id }) := by
    unfold peek at seen ⊢
    split at seen <;> cases seen <;> simp [*]
  have both : (token.determiner?.isSome && Determiner.opensOwner token.text) = true :=
    congrArg Prod.fst (Except.ok.inj judged)
  unfold atOwner
  rw [bind_ok seen', both]
  rfl

/-- A definite phrase before an owner is a property. -/
theorem definitePhrase_property {phrase : NounPhrase} {scope : Scope} {s : State} (owned : atOwner scope s = .ok (true, s))
    {e : Expression} {t : State} (run : definitePhrase inner phrase scope s = .ok (e, t)) :
    ∃ owner, e = .property phrase owner := by
  obtain ⟨token, middle, seen, judged⟩ := bind_eq_ok owned
  obtain ⟨rfl, _⟩ := peek_eq_ok seen
  have isDeterminer : token.determiner?.isSome = true := by
    have both : (token.determiner?.isSome && Determiner.opensOwner token.text) = true :=
      congrArg Prod.fst (Except.ok.inj judged)
    exact (Bool.and_eq_true_iff.mp both).1
  have noBracket : (token.kind == TokenKind.openBracket) = false := by
    rw [beq_eq_false_iff_ne]
    intro bracket
    rw [Token.determiner?, bracket] at isDeterminer
    contradiction
  have notEaten : eat .openBracket scope middle = .ok (false, middle) := by
    unfold eat at?
    rw [bind_ok (bind_ok seen), noBracket]
    rfl
  unfold definitePhrase at run
  rw [bind_ok notEaten, if_neg Bool.false_ne_true, bind_ok owned, if_pos rfl] at run
  obtain ⟨found, _, _, rest⟩ := bind_eq_ok run
  obtain ⟨noun, _, _, rest⟩ := bind_eq_ok rest
  obtain ⟨owner, _, _, returned⟩ := bind_eq_ok rest
  cases returned
  exact ⟨owner, rfl⟩

/-- A value that begins before an owner begins with a property. -/
theorem nounExpression_property (h : inner.Careful) {determiner noun : Token} {scope : Scope} {s : State}
    (owned : atOwner scope s = .ok (true, s)) {value : Expression} {t : State}
    (run : nounExpression inner determiner .definite noun scope s = .ok (value, t)) :
    ∃ role owner, value.firstOperand = .property role owner := by
  obtain ⟨operand, middle, atOperand, rest⟩ := bind_eq_ok run
  obtain ⟨role, _, named, atPhrase⟩ := bind_eq_ok atOperand
  cases named
  obtain ⟨owner, rfl⟩ := definitePhrase_property (atOwner_renumbered owned _) atPhrase
  obtain ⟨converted, _, atConversions, rest⟩ := bind_eq_ok rest
  have first : converted.firstOperand = .property _ owner := h.keepsOfConversions _ scope _ _ _ atConversions
  obtain ⟨_, _, scopeRead, rest⟩ := bind_eq_ok rest
  cases scopeRead
  split at rest
  · cases rest
    exact ⟨_, owner, first⟩
  · obtain ⟨_, _, _, rest⟩ := bind_eq_ok rest
    split at rest
    · exact ⟨_, owner, (h.keepsOfOperators 0 converted _ _ _ _ rest).trans first⟩
    · cases rest
      exact ⟨_, owner, first⟩

/-- An argument before whose owner a property was not read would be a fault of the compiler, but
there a property is always read. -/
theorem ofArgument (h : inner.Careful) : Parser.Careful (Parser.argument inner) := by
  have role (determiner noun : Token) : Parser.Careful (do
      let role ← nounPhrase (some determiner) noun
      if beginsValue (← peek).kind then return ⟨role, some (← inner.expression 0)⟩
      return ⟨role, Option.none⟩ : Parser Argument) := by
    refine .bind (.nounPhrase _ _) fun role => .bind .peek fun token => ?_
    split
    · exact .bind (h.expression 0) fun value => .pure _
    · exact .pure _
  unfold Parser.argument
  refine .within _ (.bind .expectDeterminer fun found => ?_)
  obtain ⟨determiner, kind⟩ := found
  dsimp only
  split
  · exact .fail nofun
  · refine .bind (.requireOwner _ _) fun _ => .bind .expectNoun fun noun => ?_
    split
    · rename_i definite
      subst definite
      intro scope s clean
      refine Careful.atOwner.bindOn clean fun owned t looked cleanThere => ?_
      obtain ⟨rfl, _⟩ := Looks.atOwner scope s owned t looked
      split
      · rename_i isOwned
        rw [isOwned] at looked
        refine (h.ofNounExpression determiner .definite noun).bindOn cleanThere fun value u run cleanBehind => ?_
        obtain ⟨p, owner, first⟩ := h.nounExpression_property looked run
        rw [first]
        exact Careful.pure _ scope u cleanBehind
      · exact role determiner noun scope t cleanThere
    · exact role determiner noun

theorem ofArguments (h : inner.Careful) : Parser.Careful (Parser.arguments inner) := by
  unfold Parser.arguments
  refine .bind h.ofArgument fun first => .bind (.eat _) fun more => ?_
  split
  · exact .bind h.arguments fun later => .pure _
  · exact .pure _

theorem ofGroups (h : inner.Careful) : Parser.Careful (Parser.groups inner) := by
  unfold Parser.groups
  refine .bind .atPreposition fun found => ?_
  split
  · exact .bind .advance fun preposition => .bind h.ofArguments fun items => .bind h.groups fun later => .pure _
  · exact .pure _

theorem ofCallObject (h : inner.Careful) : Parser.Careful (Parser.callObject inner) := by
  unfold Parser.callObject
  refine .bind .peek fun token => ?_
  split
  · exact .bind h.ofArgument fun item => .pure _
  · exact .bind .advance fun token => .bind (.require _ _ _) fun _ => .pure _
  · exact .bind .advance fun token => .bind (.require _ _ _) fun _ => .pure _
  · exact .pure _

theorem ofCall (h : inner.Careful) : Parser.Careful (Parser.call inner) := by
  unfold Parser.call
  exact .within _ (.bind .freshId fun id => .bind (.expect _ _) fun verb => .bind h.ofCallObject fun object =>
    .bind h.ofGroups fun groups => .bind .optionalWord fun suffix => .pure _)

theorem ofPrimary (h : inner.Careful) : Parser.Careful (Parser.primary inner) := by
  unfold Parser.primary
  refine .bind .peek fun token => ?_
  split
  · exact .bind .advance fun _ => .pure _
  · exact .bind .advance fun _ => .pure _
  · exact .bind .advance fun _ => .pure _
  · exact .bind .advance fun _ => .bind (h.expression 0) fun value => .bind (.expect _ _) fun _ => .pure _
  · exact .bind h.ofCall fun c => .pure _
  · exact .bind .advance fun noun => .bind (.nounPhrase _ _) fun p => .pure _
  · exact .bind (.require _ _ _) fun _ => .bind .advance fun _ => .pure _
  · exact .bind (.require _ _ _) fun _ => .bind .advance fun _ => .pure _
  · exact .bind .advance fun determiner => .bind .expectNoun fun noun => h.ofNounExpression _ _ _
  · exact .throw nofun

theorem ofOperand (h : inner.Careful) : Parser.Careful (Parser.operand inner) := by
  unfold Parser.operand
  refine .bind .peek fun token => ?_
  split
  · exact .bind .advance fun token => .bind (h.expression _) fun operand => .pure _
  · exact .bind h.ofPrimary fun value => h.ofConversions value

theorem ofBinary (h : inner.Careful) (least : Nat) : Parser.Careful (Parser.binary inner least) := by
  unfold Parser.binary
  exact .within _ (.bind h.ofOperand fun left => h.ofOperators least left)

end Satzbau.Parser.Inner.Careful

import Satzbau.Proofs.Constituents.Kept
import Satzbau.Proofs.Parsing.NumberedExpressions

namespace Satzbau.Parser.Inner.Keeps

variable {front : Token → Prop} {inner : Inner}

theorem ofNone : Inner.none.Keeps where
  delivers := .ofNone
  expression _ := .unexpected _
  operators _ _ := .unexpected _
  conversions _ := .unexpected _
  phrase _ _ _ := .unexpected _
  items := .unexpected _
  arguments := .unexpected _
  groups := .unexpected _
  statements _ _ _ := .unexpected _
  alternatives := .unexpected _
  parameters := .unexpected _
  headerGroups := .unexpected _
  members := .unexpected _
  program := .unexpected _

theorem inside_of_operator {token : Token} {operator : Operator} (isOperator : token.operator? = some operator) :
    token.kind ≠ .fileEnd := by
  intro ends
  rw [Token.operator?, ends] at isOperator
  contradiction

theorem ofOperators (h : inner.Keeps) (least : Nat) (left : Expression) :
    Parser.Keeps front (slotsOf left.constituents) (Parser.operators inner least left)
      (Just fun e => slotsOf e.constituents) := by
  unfold Parser.operators
  refine .look .peek fun token => ?_
  split
  · exact .pure rfl
  · rename_i operator isOperator
    split
    · exact .pure rfl
    · refine .bind (.take fun _ known => known.2 ▸ inside_of_operator isOperator) fun token => ?_
      refine .bind (h.expression _) fun right => ?_
      have joined : slotsOf left.constituents ++ [.token token] ++ slotsOf right.constituents =
          slotsOf (Expression.binary operator token left right).constituents := by
        simp [Expression.constituents, Constituent.slots]
      exact joined ▸ h.operators least _

theorem ofConversions (h : inner.Keeps) (value : Expression) :
    Parser.Keeps front (slotsOf value.constituents) (Parser.conversions inner value)
      (Just fun e => slotsOf e.constituents) := by
  unfold Parser.conversions
  refine .look (.at? _) fun found => ?_
  split
  · rename_i there
    refine .bind (.take fun _ known => by simp [known.2 there]) fun token => .bind .expectNoun fun noun => ?_
    refine .name fun id => ?_
    have joined : slotsOf value.constituents ++ [.token token] ++ [.token noun] =
        slotsOf (Expression.conversion token value ⟨id, .none, noun⟩).constituents := by
      simp [Expression.constituents, Constituent.slots, NounPhrase.slots]
    exact joined ▸ h.conversions _
  · exact .pure rfl

theorem ofItems (h : inner.Keeps) {expression : Parser Expression}
    (first : Parser.Keeps (fun _ => True) [] expression (Just fun e => slotsOf e.constituents)) :
    Parser.Keeps front [] (Parser.items inner expression) (Just fun items => slotsOf (itemConstituents items)) := by
  unfold Parser.items
  refine .bind first.anywhere fun item => .bind (.eat rfl) fun more => ?_
  split
  · exact .bind h.items fun later => .pure (by simp [Just, itemConstituents])
  · exact .bind (.skip rfl _) fun _ => .pure (by simp [Just, itemConstituents])

theorem ofDefinitePhrase (h : inner.Keeps) (p : NounPhrase) :
    Parser.Keeps front p.slots (Parser.definitePhrase inner p) (Just fun e => slotsOf e.constituents) := by
  unfold Parser.definitePhrase
  refine .bind (.eat rfl) fun bracket => ?_
  split
  · refine .bind (h.expression 0) fun index => .bind (.skip rfl _) fun _ => .pure ?_
    simp [Just, Expression.constituents, Constituent.slots]
  · refine .look .atOwner fun owned => ?_
    split
    · refine .bind .expectDeterminer fun found => .bind .expectNoun fun noun => ?_
      rw [List.append_nil, List.append_assoc]
      refine .share (h.phrase _ _ _) ?_
      rintro owner _ rfl
      exact .pure (by simp [Just, Expression.constituents, Constituent.slots])
    · exact .pure (by simp [Just, Expression.constituents, Constituent.slots])

theorem ofIndefinitePhrase (h : inner.Keeps) (p : NounPhrase) :
    Parser.Keeps front p.slots (Parser.indefinitePhrase inner p) (Just fun e => slotsOf e.constituents) := by
  have alone : Just (fun e : Expression => slotsOf e.constituents) (.instantiation p []) p.slots := by
    simp [Just, Expression.constituents, argumentConstituents, Constituent.slots]
  unfold Parser.indefinitePhrase
  refine .bind (.eat rfl) fun bracket => ?_
  rw [List.append_nil]
  split
  · refine .bind (.eat rfl) fun closed => ?_
    split
    · exact .pure (by simp [Just, Expression.constituents, itemConstituents, Constituent.slots])
    · exact .bind h.items fun items => .pure (by simp [Just, Expression.constituents, Constituent.slots])
  · refine .look (.at? _) fun along => ?_
    split
    · rename_i there
      refine .look .peekSecond fun token => ?_
      split
      · refine .bind (.drop fun _ known => by rw [known.1.2 there]; rfl) fun _ => .bind h.arguments fun fields => ?_
        exact .pure (by simp [Just, Expression.constituents, Constituent.slots])
      · exact .pure alone
    · exact .pure alone

theorem ofPhrase (h : inner.Keeps) (determiner : Token) (kind : Determiner) (noun : Token) :
    Parser.Keeps front [.token determiner, .token noun] (Parser.phrase inner determiner kind noun)
      (Just fun e => slotsOf e.constituents) := by
  have named (id : NodeId) : [.token determiner, .token noun] = NounPhrase.slots ⟨id, some determiner, noun⟩ := rfl
  unfold Parser.phrase
  split
  · exact .name fun id => named id ▸ h.ofDefinitePhrase _
  · exact .name fun id => named id ▸ h.ofIndefinitePhrase _
  · exact .throw _
  · exact .look (.requireSelf _) fun _ => .name fun id => .pure (by simp [Just, Expression.constituents, Constituent.slots, named id])
  · exact .look (.requireMethodBlock _) fun _ => .name fun id =>
      .pure (by simp [Just, Expression.constituents, Constituent.slots, named id])

theorem ofNounExpression (h : inner.Keeps) (determiner : Token) (kind : Determiner) (noun : Token) :
    Parser.Keeps front [.token determiner, .token noun] (Parser.nounExpression inner determiner kind noun)
      (Just fun e => slotsOf e.constituents) := by
  unfold Parser.nounExpression
  refine .pass (h.ofPhrase determiner kind noun) fun operand => .pass (h.ofConversions operand) fun value => ?_
  refine .read fun scope => ?_
  split
  · exact .pure rfl
  · refine .look .peek fun token => ?_
    split
    · exact .within _ (h.ofOperators 0 value)
    · exact .pure rfl

/-- A value that begins with the property that names its role has the places of both. -/
theorem slots_of_leads {value owner : Expression} {role : NounPhrase} (leads : value.firstOperand = .property role owner) :
    slotsOf (Argument.mk role (some value)).constituents = slotsOf value.constituents := by
  have shares : Argument.sharesPhrase role (some value) = true := by
    simp [Argument.sharesPhrase, Expression.leadingProperty?, leads]
  simp [Argument.constituents, Constituent.slots, shares, valueConstituents]

theorem ofRoleThenValue (h : inner.Keeps) (determiner noun : Token) :
    Parser.Keeps front [.token determiner, .token noun] (do
        let role ← nounPhrase (some determiner) noun
        if beginsValue (← peek).kind then return ⟨role, some (← inner.expression 0)⟩
        return ⟨role, Option.none⟩ : Parser Argument)
      (Just fun a => slotsOf a.constituents) := by
  intro scope s a t atEnd _ run
  obtain ⟨role, middle, named, rest⟩ := bind_eq_ok run
  cases named
  obtain ⟨token, _, seen, rest⟩ := bind_eq_ok rest
  obtain ⟨rfl, _⟩ := peek_eq_ok seen
  split at rest
  · obtain ⟨value, last, read, returned⟩ := bind_eq_ok rest
    cases returned
    have holds : Holds (fun _ => True) scope s := ⟨trivial, fun _ _ => trivial⟩
    have own := h.delivers.unshared holds read (some determiner) noun
    obtain ⟨tokens, new, items, fills, known⟩ :=
      h.expression 0 scope { s with nextId := s.nextId + 1 } value t atEnd (fun _ _ => trivial) read
    refine ⟨tokens, new, items, fills, ?_⟩
    rw [Just, List.nil_append] at known
    simp [Just, Argument.constituents, Constituent.slots, own, valueConstituents, NounPhrase.slots, known]
  · cases rest
    refine ⟨[], [], rfl, .nil, ?_⟩
    simp [Just, Argument.constituents, Constituent.slots, Argument.sharesPhrase, valueConstituents, NounPhrase.slots]

theorem ofArgument (h : inner.Keeps) :
    Parser.Keeps front [] (Parser.argument inner) (Just fun a => slotsOf a.constituents) := by
  unfold Parser.argument
  refine .within _ (.bind .expectDeterminer fun found => ?_)
  obtain ⟨determiner, kind⟩ := found
  dsimp only
  split
  · exact .fail _
  · refine .look (.requireOwner determiner kind) fun _ => .bind .expectNoun fun noun => ?_
    split
    · refine .look .atOwner fun owned => ?_
      split
      · refine .pass (h.ofNounExpression determiner kind noun) fun value => ?_
        split
        · rename_i role owner leads
          exact .pure (slots_of_leads leads).symm
        · exact .fail _
      · exact h.ofRoleThenValue determiner noun
    · exact h.ofRoleThenValue determiner noun

theorem ofArguments (h : inner.Keeps) :
    Parser.Keeps front [] (Parser.arguments inner) (Just fun arguments => slotsOf (argumentConstituents arguments)) := by
  unfold Parser.arguments
  refine .bind h.ofArgument fun first => .bind (.eat rfl) fun more => ?_
  split
  · exact .bind h.arguments fun later => .pure (by simp [Just, argumentConstituents])
  · exact .pure (by simp [Just, argumentConstituents])

theorem inside_of_introduces {token : Token} (introduces : token.kind.introducesGroup) : token.kind ≠ .fileEnd := by
  intro ends
  rw [ends] at introduces
  rcases introduces with other | other | other <;> contradiction

theorem ofGroups (h : inner.Keeps) :
    Parser.Keeps front [] (Parser.groups inner) (Just fun groups => slotsOf (groupConstituents groups)) := by
  unfold Parser.groups
  refine .look .atPreposition fun found => ?_
  split
  · rename_i there
    refine .bind (.take fun _ known => inside_of_introduces (known.2 there)) fun preposition => ?_
    refine .bind h.ofArguments fun items => .bind h.groups fun later => .pure ?_
    simp [Just, groupConstituents, Constituent.slots]
  · exact .pure (by simp [Just, groupConstituents])

theorem ofCallObject (h : inner.Keeps) :
    Parser.Keeps front [] (Parser.callObject inner) (Just fun object => slotsOf (objectConstituents object)) := by
  unfold Parser.callObject
  refine .look .peek fun token => ?_
  split
  · exact .bind h.ofArgument fun a => .pure (by simp [Just, objectConstituents])
  · rename_i kind
    refine .bind (.take fun _ known => by simp [known.2, kind]) fun token => .look (.requireSelf token) fun _ => ?_
    exact .pure (by simp [Just, objectConstituents, Constituent.slots])
  · rename_i kind
    refine .bind (.take fun _ known => by simp [known.2, kind]) fun token => .look (.requireMethodBlock token) fun _ => ?_
    exact .pure (by simp [Just, objectConstituents, Constituent.slots])
  · exact .pure (by simp [Just, objectConstituents])

theorem ofCall (h : inner.Keeps) :
    Parser.Keeps front [] (Parser.call inner) (Just fun c => slotsOf c.constituents) := by
  unfold Parser.call
  refine .within _ (.bind .freshId fun id => .bind (.expect (by simp) _) fun verb => .bind h.ofCallObject fun object => ?_)
  refine .bind h.ofGroups fun groups => .bind .optionalWord fun suffix => .pure ?_
  simp [Just, Call.constituents, Constituent.slots]

theorem ofPrimary (h : inner.Keeps) :
    Parser.Keeps front [] (Parser.primary inner) (Just fun e => slotsOf e.constituents) := by
  have taken {front : Token → Prop} (inside : ∀ token, front token → token.kind ≠ .fileEnd) (make : Token → Expression)
      (slots : ∀ token, slotsOf (make token).constituents = [.token token]) :
      Parser.Keeps front [] (do return make (← Parser.advance)) (Just fun e => slotsOf e.constituents) :=
    .bind (.take inside) fun token => .pure (slots token).symm
  unfold Parser.primary
  refine .look .peek fun token => ?_
  split
  · rename_i kind
    exact taken (fun _ known => by simp [known.2, kind]) .literal fun _ => rfl
  · rename_i kind
    exact taken (fun _ known => by simp [known.2, kind]) .literal fun _ => rfl
  · rename_i kind
    exact taken (fun _ known => by simp [known.2, kind]) .literal fun _ => rfl
  · rename_i kind
    refine .bind (.drop fun _ known => by rw [known.2, kind]; rfl) fun _ => .bind (h.expression 0) fun value => ?_
    exact .bind (.skip rfl _) fun _ => .pure (by simp [Just])
  · exact .bind h.ofCall fun c => .pure (by simp [Just, Expression.constituents])
  · rename_i kind
    refine .bind (.take fun _ known => by simp [known.2, kind]) fun noun => .name fun id => .pure ?_
    simp [Just, Expression.constituents, Constituent.slots, NounPhrase.slots]
  · rename_i kind
    refine .look (.requireSelf token) fun _ => ?_
    exact taken (fun _ known => by simp [known.1.2, kind]) .self fun _ => rfl
  · rename_i kind
    refine .look (.requireMethodBlock token) fun _ => ?_
    exact taken (fun _ known => by simp [known.1.2, kind]) .you fun _ => rfl
  · rename_i kind
    refine .bind (.take fun _ known => by simp [known.2, kind]) fun determiner => .bind .expectNoun fun noun => ?_
    exact h.ofNounExpression determiner _ noun
  · exact .throw _

theorem ofOperand (h : inner.Keeps) :
    Parser.Keeps front [] (Parser.operand inner) (Just fun e => slotsOf e.constituents) := by
  unfold Parser.operand
  refine .look .peek fun token => ?_
  split
  · rename_i isMinus
    refine .bind (.take fun _ known => known.2 ▸ inside_of_operator isMinus) fun sign => .bind (h.expression _) fun value => ?_
    exact .pure (by simp [Just, Expression.constituents, Constituent.slots])
  · exact .pass h.ofPrimary fun value => h.ofConversions value

theorem ofBinary (h : inner.Keeps) (least : Nat) :
    Parser.Keeps front [] (Parser.binary inner least) (Just fun e => slotsOf e.constituents) :=
  .within _ (.pass h.ofOperand fun left => h.ofOperators least left)

end Satzbau.Parser.Inner.Keeps

import Satzbau.Proofs.Parsing.Written

namespace Satzbau.Parser.Inner.Delivers

variable {fact front : Token → Prop} {inner : Inner}

theorem binaryWritten {operator : Operator} {token : Token} {left right : Expression}
    (atLeft : ExpressionWritten fact left) (atRight : ExpressionWritten fact right) :
    ExpressionWritten fact (.binary operator token left right) :=
  ⟨by simp [Expression.occurrences, atLeft.1, atRight.1], atLeft.2⟩

theorem conversionWritten {token : Token} {value : Expression} {target : NounPhrase}
    (atValue : ExpressionWritten fact value) (atTarget : target.Written fact) :
    ExpressionWritten fact (.conversion token value target) :=
  ⟨by simp [Expression.occurrences, atValue.1, Occurrence.Written, atTarget], atValue.2⟩

theorem expressionWritten {e : Expression} (written : AllWritten fact e.occurrences)
    (leads : e.leadingProperty? = Option.none) : ExpressionWritten fact e :=
  ⟨written, by simp [leads]⟩

theorem ofOperators (h : inner.Delivers fact) (least : Nat) (left : Expression) (known : ExpressionWritten fact left) :
    Parser.Delivers fact front (idsOf left.occurrences) (Parser.operators inner least left)
      (fun e => idsOf e.occurrences) (ExpressionWritten fact) := by
  unfold Parser.operators
  refine .look .peek fun token => ?_
  split
  · exact .pure (.refl _) known
  · rename_i operator _
    split
    · exact .pure (.refl _) known
    · refine .bind .advance fun token _ => .bind (h.expression _) fun right atRight => ?_
      refine .regroup ?_ (h.operators least (.binary operator token left right) (binaryWritten known atRight))
      simp [Expression.occurrences]

theorem ofConversions (h : inner.Delivers fact) (value : Expression) (known : ExpressionWritten fact value) :
    Parser.Delivers fact front (idsOf value.occurrences) (Parser.conversions inner value)
      (fun e => idsOf e.occurrences) (ExpressionWritten fact) := by
  unfold Parser.conversions
  refine .look (.at? _) fun found => ?_
  split
  · refine .bind .advance fun token _ => .bind .expectNoun fun noun isNoun => ?_
    refine .bind (.nounPhrase isNoun (by simp)) fun target atTarget => ?_
    refine .regroup ?_ (h.conversions (.conversion token value target) (conversionWritten known atTarget.2))
    simp [Expression.occurrences]
  · exact .pure (.refl _) known

theorem ofItems (h : inner.Delivers fact) {expression : Parser Expression}
    (first : Parser.Delivers fact (fun _ => True) [] expression (fun e => idsOf e.occurrences) (ExpressionWritten fact)) :
    Parser.Delivers fact front [] (Parser.items inner expression)
      (fun items => idsOf (itemOccurrences items)) fun items => AllWritten fact (itemOccurrences items) := by
  unfold Parser.items
  refine .bind first.anywhere fun item atItem => .bind (.eat _) fun more _ => ?_
  split
  · refine .bind h.items fun later atLater => .pure ?_ ?_
    · simp [itemOccurrences]
    · simp [itemOccurrences, atItem.1, atLater]
  · refine .bind (.expect _ _) fun _ _ => .pure ?_ ?_
    · simp [itemOccurrences]
    · simp [itemOccurrences, atItem.1]

theorem ofDefinitePhrase (h : inner.Delivers fact) {p : NounPhrase} (role : p.IsRole fact) :
    Parser.Delivers fact front [p.id] (Parser.definitePhrase inner p)
      (fun e => idsOf e.occurrences) (ExpressionWritten fact) := by
  unfold Parser.definitePhrase
  refine .bind (.eat _) fun bracket _ => ?_
  split
  · refine .bind (h.expression 0) fun index atIndex => .bind (.expect _ _) fun _ _ => .pure ?_ ?_
    · simp [Expression.occurrences]
    · exact expressionWritten (by simp [Expression.occurrences, Occurrence.Written, role.2, atIndex.1]) rfl
  · refine .look .atOwner fun owned => ?_
    split
    · refine .bind .expectDeterminer fun found atDeterminer => .bind .expectNoun fun noun isNoun => ?_
      refine .bind (h.phrase _ _ _ atDeterminer isNoun) fun owner atOwner => .pure ?_ ?_
      · simp [Expression.occurrences]
      · refine ⟨by simp [Expression.occurrences, Occurrence.Written, role.2, atOwner.1], ?_⟩
        simp [Expression.leadingProperty?, Expression.firstOperand, role.1]
    · refine .pure (by simp [Expression.occurrences]) ?_
      exact expressionWritten (by simp [Expression.occurrences, Occurrence.Written, role.2]) rfl

theorem ofIndefinitePhrase (h : inner.Delivers fact) {p : NounPhrase} (written : p.Written fact) :
    Parser.Delivers fact front [p.id] (Parser.indefinitePhrase inner p)
      (fun e => idsOf e.occurrences) (ExpressionWritten fact) := by
  have alone : ExpressionWritten fact (.instantiation p []) :=
    expressionWritten (by simp [Expression.occurrences, argumentOccurrences, Occurrence.Written, written]) rfl
  unfold Parser.indefinitePhrase
  refine .bind (.eat _) fun bracket _ => ?_
  split
  · refine .bind (.eat _) fun closed _ => ?_
    split
    · refine .pure (by simp [Expression.occurrences, itemOccurrences]) ?_
      exact expressionWritten (by simp [Expression.occurrences, itemOccurrences, Occurrence.Written, written]) rfl
    · refine .bind h.items fun items atItems => .pure (by simp [Expression.occurrences]) ?_
      exact expressionWritten (by simp [Expression.occurrences, Occurrence.Written, written, atItems]) rfl
  · refine .look (.at? _) fun along => ?_
    split
    · refine .look .peekSecond fun token => ?_
      split
      · refine .bind .advance fun _ _ => .bind h.arguments fun fields atFields => .pure ?_ ?_
        · simp [Expression.occurrences]
        · refine expressionWritten ?_ rfl
          simp only [Expression.occurrences, allWritten_cons, argumentOccurrences_eq, allWritten_flatMap]
          exact ⟨written, fun a inside => (atFields.2 a inside).1⟩
      · exact .pure (by simp [Expression.occurrences, argumentOccurrences]) alone
    · exact .pure (by simp [Expression.occurrences, argumentOccurrences]) alone

theorem ofPhrase (h : inner.Delivers fact) (determiner : Token) (kind : Determiner) (noun : Token)
    (isDeterminer : determiner.determiner? = some kind ∧ fact determiner) (isNoun : noun.kind = .noun ∧ fact noun) :
    Parser.Delivers fact front [] (Parser.phrase inner determiner kind noun)
      (fun e => idsOf e.occurrences) (ExpressionWritten fact) := by
  have determined : ∀ token ∈ some determiner, token.determiner?.isSome ∧ fact token := by
    simp [isDeterminer]
  have fresh {front : Token → Prop} : Parser.Delivers fact front [] (nounPhrase (some determiner) noun)
      (fun p => [p.id]) fun p => p.determiner = some determiner ∧ p.Written fact :=
    .nounPhrase isNoun determined
  unfold Parser.phrase
  split
  · exact .bind fresh fun p atPhrase => h.ofDefinitePhrase ⟨by simp [atPhrase.1], atPhrase.2⟩
  · exact .bind fresh fun p atPhrase => h.ofIndefinitePhrase atPhrase.2
  · exact .throw _
  · refine .look (.requireSelf _) fun _ => .bind fresh fun p atPhrase => .pure (by simp [Expression.occurrences]) ?_
    exact expressionWritten (by simp [Expression.occurrences, Occurrence.Written, atPhrase.2]) rfl
  · refine .look (.requireMethodBlock _) fun _ => .bind fresh fun p atPhrase => .pure (by simp [Expression.occurrences]) ?_
    exact expressionWritten (by simp [Expression.occurrences, Occurrence.Written, atPhrase.2]) rfl

theorem ofNounExpression (h : inner.Delivers fact) (determiner : Token) (kind : Determiner) (noun : Token)
    (isDeterminer : determiner.determiner? = some kind ∧ fact determiner) (isNoun : noun.kind = .noun ∧ fact noun) :
    Parser.Delivers fact front [] (Parser.nounExpression inner determiner kind noun)
      (fun e => idsOf e.occurrences) (ExpressionWritten fact) := by
  unfold Parser.nounExpression
  refine .bind (h.ofPhrase determiner kind noun isDeterminer isNoun) fun operand atOperand => ?_
  refine .pass (h.ofConversions operand atOperand) fun value atValue => .read fun scope => ?_
  split
  · exact .pure (.refl _) atValue
  · refine .look .peek fun token => ?_
    split
    · exact .within _ (h.ofOperators 0 value atValue)
    · exact .pure (.refl _) atValue

theorem sharedArgumentWritten {value owner : Expression} {role : NounPhrase}
    (leads : value.firstOperand = .property role owner) (known : ExpressionWritten fact value) :
    (Argument.mk role (some value)).occurrences = value.occurrences ∧
      ArgumentWritten fact ⟨role, some value⟩ := by
  have leading : value.leadingProperty? = some role := by
    simp [Expression.leadingProperty?, leads]
  have shared : (Argument.mk role (some value)).occurrences = value.occurrences := by
    simp [Argument.occurrences, Argument.sharesPhrase, leading, valueOccurrences]
  refine ⟨shared, ?_, known.2 role leading, ?_⟩
  · rw [shared]
    exact known.1
  · exact known.1 _ (Expression.leadingProperty?_mem leading)

/-- A role that is read before its value is not the phrase with which the value begins: the value has
later ids. -/
theorem unshared (h : inner.Delivers fact) {scope : Scope} {s t : State} {value : Expression} (holds : Holds fact scope s)
    (read : inner.expression 0 scope { s with nextId := s.nextId + 1 } = .ok (value, t)) (determiner : Option Token)
    (noun : Token) : Argument.sharesPhrase ⟨s.nextId, determiner, noun⟩ (some value) = false := by
  obtain ⟨_, _, numbered, _⟩ :=
    h.expression 0 scope { s with nextId := s.nextId + 1 } value t (holds.tail fun _ inside => inside) (fun _ _ => trivial)
      read
  rw [Argument.sharesPhrase, beq_eq_false_iff_ne]
  intro leads
  have inside : s.nextId ∈ idsOf value.occurrences :=
    List.mem_map_of_mem (f := Occurrence.id) (Expression.leadingProperty?_mem leads)
  rw [numbered.mem_iff, List.nil_append, List.mem_range'_1] at inside
  exact absurd inside.1 (Nat.not_succ_le_self _)

/-- A role that is read before its value has an id of its own. -/
theorem ofRoleThenValue (h : inner.Delivers fact) {determiner noun : Token}
    (isDeterminer : determiner.determiner?.isSome ∧ fact determiner) (isNoun : noun.kind = .noun ∧ fact noun) :
    Parser.Delivers fact front [] (do
        let role ← nounPhrase (some determiner) noun
        if beginsValue (← peek).kind then return ⟨role, some (← inner.expression 0)⟩
        return ⟨role, Option.none⟩ : Parser Argument)
      (fun a => idsOf a.occurrences) (ArgumentWritten fact) := by
  intro scope s a t holds _ run
  obtain ⟨role, middle, named, rest⟩ := bind_eq_ok run
  cases named
  have isRole : NounPhrase.IsRole fact ⟨s.nextId, some determiner, noun⟩ :=
    ⟨rfl, isNoun, by simpa using isDeterminer⟩
  obtain ⟨token, _, seen, rest⟩ := bind_eq_ok rest
  obtain ⟨rfl, _⟩ := peek_eq_ok seen
  split at rest
  · obtain ⟨value, last, read, returned⟩ := bind_eq_ok rest
    cases returned
    obtain ⟨subset, grows, numbered, written⟩ :=
      h.expression 0 scope { s with nextId := s.nextId + 1 } value t (holds.tail fun _ inside => inside)
        (fun _ _ => trivial) read
    have own := h.unshared holds read (some determiner) noun
    have joined : s.nextId :: List.range' (s.nextId + 1) (t.nextId - (s.nextId + 1)) =
        List.range' s.nextId (t.nextId - s.nextId) := by
      rw [← range'_join (Nat.le_succ s.nextId) grows, Nat.succ_sub (Nat.le_refl _), Nat.sub_self]
      rfl
    refine ⟨subset, Nat.le_of_succ_le grows, ?_, ?_, isRole⟩
    · simp only [Argument.occurrences, own, valueOccurrences, Bool.false_eq_true, if_false, idsOf_phrase]
      rw [List.nil_append, ← joined]
      exact numbered.cons _
    · simp [Argument.occurrences, own, valueOccurrences, Occurrence.Written, isRole.2, written.1]
  · cases rest
    refine ⟨fun _ inside => inside, Nat.le_succ _, ?_, ?_, isRole⟩
    · simp [Argument.occurrences, Argument.sharesPhrase, valueOccurrences]
    · simp [Argument.occurrences, Argument.sharesPhrase, valueOccurrences, Occurrence.Written, isRole.2]

theorem ofArgument (h : inner.Delivers fact) :
    Parser.Delivers fact front [] (Parser.argument inner) (fun a => idsOf a.occurrences) (ArgumentWritten fact) := by
  unfold Parser.argument
  refine .within _ (.bind .expectDeterminer fun found atDeterminer => ?_)
  obtain ⟨determiner, kind⟩ := found
  have determined : determiner.determiner?.isSome ∧ fact determiner := by
    simp [atDeterminer.1, atDeterminer.2]
  dsimp only
  split
  · exact .fail _
  · refine .look (.requireOwner determiner kind) fun _ => .bind .expectNoun fun noun isNoun => ?_
    split
    · refine .look .atOwner fun owned => ?_
      split
      · refine .bind (h.ofNounExpression determiner kind noun atDeterminer isNoun) fun value atValue => ?_
        split
        · rename_i role owner leads
          obtain ⟨shared, written⟩ := sharedArgumentWritten leads atValue
          exact .pure (by simp [shared]) written
        · exact .fail _
      · exact h.ofRoleThenValue determined isNoun
    · exact h.ofRoleThenValue determined isNoun

theorem ofArguments (h : inner.Delivers fact) :
    Parser.Delivers fact front [] (Parser.arguments inner)
      (fun arguments => idsOf (argumentOccurrences arguments)) (ArgumentsWritten fact) := by
  unfold Parser.arguments
  refine .bind h.ofArgument fun first atFirst => .bind (.eat _) fun more _ => ?_
  split
  · refine .bind h.arguments fun later atLater => .pure (by simp [argumentOccurrences]) ⟨by simp, ?_⟩
    simp only [List.mem_cons]
    rintro a (rfl | inLater)
    · exact atFirst
    · exact atLater.2 a inLater
  · exact .pure (by simp [argumentOccurrences]) ⟨by simp, by simpa using atFirst⟩

theorem ofGroups (h : inner.Delivers fact) :
    Parser.Delivers fact front [] (Parser.groups inner)
      (fun groups => idsOf (groupOccurrences groups)) (GroupsWritten fact) := by
  unfold Parser.groups
  refine .look .atPreposition fun found => ?_
  split
  · rename_i there
    refine .bind .advance fun preposition atPreposition => .bind h.ofArguments fun items atItems => ?_
    refine .bind h.groups fun later atLater => .pure (by simp [groupOccurrences]) ?_
    simp only [GroupsWritten, List.mem_cons]
    rintro g (rfl | inLater)
    · exact ⟨⟨atPreposition.1.2 there, atPreposition.2⟩, atItems⟩
    · exact atLater g inLater
  · exact .pure (by simp [groupOccurrences]) (by simp [GroupsWritten])

theorem ofCallObject (h : inner.Delivers fact) :
    Parser.Delivers fact front [] (Parser.callObject inner) (fun object => idsOf (objectOccurrences object))
      fun object => ∀ a ∈ object.toList, ArgumentWritten fact a := by
  unfold Parser.callObject
  refine .look .peek fun token => ?_
  split
  · exact .bind h.ofArgument.anywhere fun a atArgument =>
      .pure (by simp [objectOccurrences]) (by simpa [ObjectRole.toList] using atArgument)
  · exact .bind .advance fun token _ => .look (.requireSelf token) fun _ =>
      .pure (by simp [objectOccurrences]) (by simp [ObjectRole.toList])
  · exact .bind .advance fun token _ => .look (.requireMethodBlock token) fun _ =>
      .pure (by simp [objectOccurrences]) (by simp [ObjectRole.toList])
  · exact .pure (by simp [objectOccurrences]) (by simp [ObjectRole.toList])

theorem optionalWord : Parser.Delivers fact front [] Parser.optionalWord (fun _ => [])
    fun found => ∀ token ∈ found, token.kind = .word ∧ fact token := by
  unfold Parser.optionalWord
  refine .look (.at? _) fun found => ?_
  split
  · rename_i there
    exact .bind .advance fun token known => .pure (.refl _) (by simp [known.1.2 there, known.2])
  · exact .pure (.refl _) (by simp)

theorem ofCall (h : inner.Delivers fact) :
    Parser.Delivers fact front [] (Parser.call inner) (fun c => idsOf c.occurrences)
      fun c => AllWritten fact c.occurrences := by
  unfold Parser.call
  refine .within _ (.bind .freshId fun id _ => .bind (.expect _ _) fun verb isVerb => ?_)
  refine .bind h.ofCallObject fun object atObject => .bind h.ofGroups fun groups atGroups => ?_
  refine .bind optionalWord fun suffix atSuffix => .pure (by simp [Call.occurrences]) ?_
  simp only [Call.occurrences_eq, allWritten_cons, allWritten_flatMap]
  have roles : Roles.Written fact ⟨verb, object.map Argument.phrase, groups.map (.map Argument.phrase), suffix⟩ :=
    .map isVerb (fun a inside => (atObject a inside).2) (fun g member =>
      ⟨(atGroups g member).1, (atGroups g member).2.1, fun a among => ((atGroups g member).2.2 a among).2⟩) atSuffix
  refine ⟨roles, fun a inside => ?_⟩
  obtain inObject | inGroup := List.mem_append.mp inside
  · exact (atObject a inObject).1
  · obtain ⟨g, member, among⟩ := List.mem_flatMap.mp inGroup
    exact ((atGroups g member).2.2 a among).1

theorem ofPrimary (h : inner.Delivers fact) :
    Parser.Delivers fact front [] (Parser.primary inner) (fun e => idsOf e.occurrences) (ExpressionWritten fact) := by
  unfold Parser.primary
  refine .look .peek fun token => ?_
  have literal {front : Token → Prop} : Parser.Delivers fact front [] (do return .literal (← Parser.advance))
      (fun e => idsOf e.occurrences) (ExpressionWritten fact) :=
    .bind .advance fun token _ => .pure (.refl _) (expressionWritten (by simp [Expression.occurrences]) rfl)
  split
  · exact literal
  · exact literal
  · exact literal
  · refine .bind .advance fun _ _ => .bind (h.expression 0) fun value atValue => ?_
    refine .bind (.expect _ _) fun _ _ => .pure (by simp) atValue
  · refine .bind h.ofCall fun c atCall => .pure (by simp [Expression.occurrences]) ?_
    exact expressionWritten (by simpa [Expression.occurrences] using atCall) rfl
  · rename_i isNoun
    refine .bind .advance fun noun known => ?_
    have nounKnown : noun.kind = .noun ∧ fact noun := ⟨known.1.2 ▸ isNoun, known.2⟩
    refine .bind (.nounPhrase nounKnown (by simp)) fun p atPhrase => .pure (by simp [Expression.occurrences]) ?_
    exact expressionWritten (by simp [Expression.occurrences, Occurrence.Written, atPhrase.2]) rfl
  · refine .look (.requireSelf token) fun _ => .bind .advance fun _ _ => .pure (.refl _) ?_
    exact expressionWritten (by simp [Expression.occurrences]) rfl
  · refine .look (.requireMethodBlock token) fun _ => .bind .advance fun _ _ => .pure (.refl _) ?_
    exact expressionWritten (by simp [Expression.occurrences]) rfl
  · rename_i kind isDeterminer
    refine .bind .advance fun determiner known => .bind .expectNoun fun noun isNoun => ?_
    refine h.ofNounExpression determiner kind noun ⟨?_, known.2⟩ isNoun
    rw [known.1.2, Token.determiner?, isDeterminer]
    rfl
  · exact .throw _

theorem ofOperand (h : inner.Delivers fact) :
    Parser.Delivers fact front [] (Parser.operand inner) (fun e => idsOf e.occurrences) (ExpressionWritten fact) := by
  unfold Parser.operand
  refine .look .peek fun token => ?_
  split
  · refine .bind .advance fun sign _ => .bind (h.expression _) fun value atValue => ?_
    exact .pure (by simp [Expression.occurrences])
      (expressionWritten (by simpa [Expression.occurrences] using atValue.1) rfl)
  · exact .pass h.ofPrimary fun value atValue => h.ofConversions value atValue

theorem ofBinary (h : inner.Delivers fact) (least : Nat) :
    Parser.Delivers fact front [] (Parser.binary inner least) (fun e => idsOf e.occurrences) (ExpressionWritten fact) :=
  .within _ (.pass h.ofOperand fun left atLeft => h.ofOperators least left atLeft)

end Satzbau.Parser.Inner.Delivers

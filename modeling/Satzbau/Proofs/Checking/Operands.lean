import Satzbau.Proofs.Backtracking

namespace Satzbau

/-- What an operand stands in: a side of an operator, what is behind a minus sign, or a value that is
converted. -/
inductive Enclosure
  | left (o : Operator)
  | right (o : Operator)
  | minus
  | conversion
deriving DecidableEq, Repr

namespace Enclosure

def isRight : Enclosure → Bool
  | right _ => true
  | _ => false

/-- The sides of operators are where an operator asks for a case. -/
def isSide : Enclosure → Bool
  | left _ | right _ => true
  | minus | conversion => false

theorem isRight_of_not_isSide {e : Enclosure} (sign : e.isSide = false) : e.isRight = false := by
  cases e <;> first | rfl | contradiction

end Enclosure

/-- What a check of an expression comes to: its operands, each with its enclosures from the outermost to
the innermost, and the types it is converted to. -/
inductive Visit
  | operand (within : List Enclosure) (e : Expression)
  | target (p : NounPhrase)

def Visit.inside (outer : Enclosure) : Visit → Visit
  | operand within e => .operand (outer :: within) e
  | target p => .target p

/-- The operands and targets of an expression in the order of the text. Operators, minus signs and
conversions are passed, whatever holds them. -/
def Expression.visits : Expression → List Visit
  | .binary o _ left right => left.visits.map (.inside (.left o)) ++ right.visits.map (.inside (.right o))
  | .minus _ operand => operand.visits.map (.inside .minus)
  | .conversion _ value target => value.visits.map (.inside .conversion) ++ [.target target]
  | other => [.operand [] other]

/-- Whether an expression is an operand as a whole. -/
def Expression.IsOperand : Expression → Prop
  | .binary .. | .minus .. | .conversion .. => False
  | _ => True

theorem Visit.mem_inside {visits : List Visit} {outer : Enclosure} {within : List Enclosure} {e : Expression}
    (inside : Visit.operand within e ∈ visits.map (Visit.inside outer)) : ∃ inner, Visit.operand inner e ∈ visits := by
  obtain ⟨visit, member, same⟩ := List.mem_map.mp inside
  cases visit with
  | operand inner e =>
    cases same
    exact ⟨inner, member⟩
  | target p => cases same

theorem Expression.isOperand_of_visits {e e' : Expression} {within : List Enclosure}
    (visited : Visit.operand within e' ∈ e.visits) : e'.IsOperand := by
  fun_induction Expression.visits e generalizing within with
  | case1 o token left right ihLeft ihRight =>
    obtain inLeft | inRight := List.mem_append.mp visited
    · obtain ⟨_, member⟩ := Visit.mem_inside inLeft
      exact ihLeft member
    · obtain ⟨_, member⟩ := Visit.mem_inside inRight
      exact ihRight member
  | case2 token operand ih =>
    obtain ⟨_, member⟩ := Visit.mem_inside visited
    exact ih member
  | case3 token value target ih =>
    obtain inValue | isTarget := List.mem_append.mp visited
    · obtain ⟨_, member⟩ := Visit.mem_inside inValue
      exact ih member
    · cases List.mem_singleton.mp isTarget
  | case4 other notBinary notMinus notConversion =>
    cases List.mem_singleton.mp visited
    cases e' with
    | binary o token left right => exact notBinary o token left right rfl
    | minus token operand => exact notMinus token operand rfl
    | conversion token value target => exact notConversion token value target rfl
    | _ => trivial

/-- The case of the innermost operator, or some cases where there is none. -/
def nearestCases (cases : CaseSet) : List Enclosure → CaseSet
  | [] => cases
  | .left o :: within | .right o :: within => nearestCases (.single o.operatorClass.operandCase) within
  | .minus :: within | .conversion :: within => nearestCases cases within

/-- What an operand takes: the operand at the front of a whole expression the cases of the whole, any other
one the case of the operator nearest to it. -/
def operandCases (cases : CaseSet) (within : List Enclosure) : CaseSet :=
  if within.any Enclosure.isRight then nearestCases cases within else cases

/-- The enclosures of an operand up to the first minus sign or conversion that has it at its front. -/
def upToSign : List Enclosure → List Enclosure
  | [] => []
  | outer :: within =>
    if outer.isSide = false ∧ within.any Enclosure.isRight = false then [] else outer :: upToSign within

/-- The numbers in which an operand may be. Operators and minus signs accept any. -/
def operandNumbers (numbers : NumberSet) : List Enclosure → NumberSet
  | [] => numbers
  | .conversion :: within => operandNumbers numbers within
  | .left _ :: within | .right _ :: within | .minus :: within => operandNumbers .all within

/-- Whether an operand is at the front of operators behind a minus sign or within a conversion, and these
are not at the front of the whole expression. -/
def FrontsInner (within : List Enclosure) : Prop :=
  ∃ before sign behind, within = before ++ sign :: behind ∧ sign.isSide = false ∧ before.any Enclosure.isRight = true ∧
    behind.any Enclosure.isRight = false ∧ behind.any Enclosure.isSide = true

theorem nearestCases_of_side {within : List Enclosure} (side : within.any Enclosure.isSide = true) (cases cases' : CaseSet) :
    nearestCases cases within = nearestCases cases' within := by
  induction within with
  | nil => contradiction
  | cons outer within ih =>
    cases outer with
    | left o => rfl
    | right o => rfl
    | minus => exact ih side
    | conversion => exact ih side

theorem nearestCases_of_no_side {within : List Enclosure} (none : within.any Enclosure.isSide = false) (cases : CaseSet) :
    nearestCases cases within = cases := by
  induction within with
  | nil => rfl
  | cons outer within ih =>
    cases outer with
    | left o => contradiction
    | right o => contradiction
    | minus => exact ih none
    | conversion => exact ih none

theorem any_isSide_of_isRight {within : List Enclosure} (right : within.any Enclosure.isRight = true) :
    within.any Enclosure.isSide = true := by
  obtain ⟨e, member, isRight⟩ := List.any_eq_true.mp right
  refine List.any_eq_true.mpr ⟨e, member, ?_⟩
  cases e <;> first | rfl | contradiction

/-- Nothing behind a right side is cut off together with it. -/
theorem any_isRight_upToSign (within : List Enclosure) :
    (upToSign within).any Enclosure.isRight = within.any Enclosure.isRight := by
  induction within with
  | nil => rfl
  | cons outer within ih =>
    unfold upToSign
    split
    · rename_i cut
      have notRight : outer.isRight = false := Enclosure.isRight_of_not_isSide cut.1
      rw [List.any_cons, notRight, Bool.false_or, cut.2]
      rfl
    · rw [List.any_cons, List.any_cons, ih]

theorem operandCases_of_front {within : List Enclosure} (front : within.any Enclosure.isRight = false) (cases : CaseSet) :
    operandCases cases within = cases := by
  rw [operandCases, front]
  rfl

theorem operandCases_of_right {within : List Enclosure} (right : within.any Enclosure.isRight = true) (cases : CaseSet) :
    operandCases cases within = nearestCases cases within := by
  rw [operandCases, right]
  rfl

/-- The left side of an operator leaves the front at the front. -/
theorem operandCases_left (o : Operator) (cases : CaseSet) (within : List Enclosure) :
    operandCases cases (.left o :: within) = operandCases cases within := by
  have same : (Enclosure.left o :: within).any Enclosure.isRight = within.any Enclosure.isRight := rfl
  cases right : within.any Enclosure.isRight with
  | false => rw [operandCases_of_front right, operandCases_of_front (same.trans right)]
  | true =>
    rw [operandCases_of_right right, operandCases_of_right (same.trans right)]
    exact nearestCases_of_side (any_isSide_of_isRight right) _ _

theorem upToSign_side {outer : Enclosure} (side : outer.isSide = true) (within : List Enclosure) :
    upToSign (outer :: within) = outer :: upToSign within := by
  rw [upToSign, if_neg fun cut => Bool.false_ne_true (cut.1.symm.trans side)]

theorem nearestCases_sign {outer : Enclosure} (sign : outer.isSide = false) (cases : CaseSet) (within : List Enclosure) :
    nearestCases cases (outer :: within) = nearestCases cases within := by
  cases outer <;> first | rfl | contradiction

theorem cases_upToSign_sign {outer : Enclosure} (sign : outer.isSide = false) (cases : CaseSet) (within : List Enclosure) :
    operandCases cases (upToSign (outer :: within)) = operandCases cases (upToSign within) ∧
      nearestCases cases (upToSign (outer :: within)) = operandCases cases (upToSign within) := by
  cases right : within.any Enclosure.isRight with
  | false =>
    rw [upToSign, if_pos ⟨sign, right⟩, operandCases_of_front ((any_isRight_upToSign within).trans right)]
    exact ⟨rfl, rfl⟩
  | true =>
    have inside : (upToSign within).any Enclosure.isRight = true := (any_isRight_upToSign within).trans right
    have outside : (outer :: upToSign within).any Enclosure.isRight = true := by rw [List.any_cons, inside, Bool.or_true]
    rw [upToSign, if_neg fun cut => Bool.false_ne_true (cut.2.symm.trans right), operandCases_of_right inside,
      operandCases_of_right outside, nearestCases_sign sign]
    exact ⟨rfl, rfl⟩

/-- An enclosure that is cut off holds no operator before the operand, unless the operand fronts one. -/
theorem nearestCases_upToSign {within : List Enclosure}
    (plain : ∀ before sign behind, within = before ++ sign :: behind → sign.isSide = false →
      behind.any Enclosure.isRight = false → behind.any Enclosure.isSide = false) (cases : CaseSet) :
    nearestCases cases (upToSign within) = nearestCases cases within := by
  induction within generalizing cases with
  | nil => rfl
  | cons outer within ih =>
    have inner := ih fun before sign behind split => plain (outer :: before) sign behind (congrArg _ split)
    unfold upToSign
    split
    · rename_i cut
      have alone := plain [] outer within rfl cut.1 cut.2
      rw [nearestCases_sign cut.1, nearestCases_of_no_side alone]
      rfl
    · cases outer with
      | left o => exact inner _
      | right o => exact inner _
      | minus => exact inner _
      | conversion => exact inner _

/-- What is cut off makes no difference but to an operand that fronts something within the expression. -/
theorem operandCases_upToSign {within : List Enclosure} (plain : ¬FrontsInner within) (cases : CaseSet) :
    operandCases cases (upToSign within) = operandCases cases within := by
  cases right : within.any Enclosure.isRight with
  | false => rw [operandCases_of_front right, operandCases_of_front ((any_isRight_upToSign within).trans right)]
  | true =>
    rw [operandCases_of_right right, operandCases_of_right ((any_isRight_upToSign within).trans right)]
    refine nearestCases_upToSign (fun before sign behind split isSign front => ?_) cases
    -- The right side is not behind the sign and not the sign itself, so it is before the sign.
    have before' : before.any Enclosure.isRight = true := by
      rw [split, List.any_append, List.any_cons, front, Enclosure.isRight_of_not_isSide isSign] at right
      simpa using right
    exact Bool.eq_false_iff.mpr fun operators => plain ⟨before, sign, behind, split, isSign, before', front, operators⟩

namespace Checker

/-- The cases that a check hands down to an operand. `leading` says whether what it is in stands at the
front of a whole expression. -/
def handedDown (cases : CaseSet) (leading : Bool) : List Enclosure → CaseSet
  | [] => cases
  | .left o :: within => handedDown (if leading then cases else .single o.operatorClass.operandCase) leading within
  | .right o :: within => handedDown (.single o.operatorClass.operandCase) false within
  | .minus :: within | .conversion :: within => handedDown cases true within

/-- A minus sign or a conversion begins a whole expression of its own: an operand at its front takes what the
sign or the conversion takes. -/
theorem handedDown_eq (within : List Enclosure) (cases : CaseSet) :
    handedDown cases true within = operandCases cases (upToSign within) ∧
      handedDown cases false within = nearestCases cases (upToSign within) := by
  induction within generalizing cases with
  | nil => exact ⟨rfl, rfl⟩
  | cons outer within ih =>
    cases outer with
    | left o =>
      refine ⟨?_, (ih _).2⟩
      rw [upToSign_side rfl, operandCases_left, ← (ih cases).1]
      rfl
    | right o => exact ⟨(ih _).2, (ih _).2⟩
    | minus =>
      rw [(cases_upToSign_sign rfl cases within).1, (cases_upToSign_sign rfl cases within).2]
      exact ⟨(ih cases).1, (ih cases).1⟩
    | conversion =>
      rw [(cases_upToSign_sign rfl cases within).1, (cases_upToSign_sign rfl cases within).2]
      exact ⟨(ih cases).1, (ih cases).1⟩

/-- A visit checks an operand in the cases and numbers that it takes where it stands. -/
def checkVisit (dictionary : Dictionary) (casesAt : List Enclosure → CaseSet) (numbersAt : List Enclosure → NumberSet) :
    Visit → Checking Unit
  | .operand within e => checkExpression dictionary (casesAt within) (numbersAt within) true e
  | .target p => resolveIn dictionary p .nominative (.single .singular)

theorem checkVisits_inside (dictionary : Dictionary) (casesAt : List Enclosure → CaseSet)
    (numbersAt : List Enclosure → NumberSet) (outer : Enclosure) (visits : List Visit) :
    forM (visits.map (Visit.inside outer)) (checkVisit dictionary casesAt numbersAt) =
      forM visits (checkVisit dictionary (fun within => casesAt (outer :: within)) fun within => numbersAt (outer :: within)) := by
  induction visits with
  | nil => rfl
  | cons visit later ih =>
    rw [List.map_cons, List.forM_cons, List.forM_cons, ih]
    cases visit <;> rfl

theorem checkExpression_visits (dictionary : Dictionary) (e : Expression) (cases : CaseSet) (numbers : NumberSet) (leading : Bool) :
    checkExpression dictionary cases numbers leading e =
      forM e.visits (checkVisit dictionary (handedDown cases leading) (operandNumbers numbers)) := by
  fun_induction Expression.visits e generalizing cases numbers leading with
  | case1 o token left right ihLeft ihRight =>
    unfold checkExpression
    dsimp only
    rw [ihLeft, ihRight, List.forM_append, checkVisits_inside, checkVisits_inside]
    rfl
  | case2 token operand ih =>
    unfold checkExpression
    rw [ih, checkVisits_inside]
    rfl
  | case3 token value target ih =>
    unfold checkExpression
    rw [ih, List.forM_append, checkVisits_inside, List.forM_cons, List.forM_nil, bind_pure_unit]
    rfl
  | case4 other notBinary notMinus notConversion =>
    rw [List.forM_cons, List.forM_nil, bind_pure_unit]
    unfold checkVisit
    cases other with
    | binary o token left right => exact absurd rfl (notBinary o token left right)
    | minus token operand => exact absurd rfl (notMinus token operand)
    | conversion token value target => exact absurd rfl (notConversion token value target)
    | _ => rfl

/-- An expression is checked as its operands are, one after the other. Each takes the cases of the whole if it
is at the front and otherwise the case of the operator nearest to it, but an operand at the front of operators
behind a minus sign or within a conversion takes what the sign or the conversion takes. -/
theorem checkExpression_operands (dictionary : Dictionary) (cases : CaseSet) (numbers : NumberSet) (e : Expression) :
    checkExpression dictionary cases numbers true e =
        forM e.visits (checkVisit dictionary (fun within => operandCases cases (upToSign within)) (operandNumbers numbers)) ∧
      ∀ within operand, .operand within operand ∈ e.visits → operand.IsOperand ∧
        (¬FrontsInner within → operandCases cases (upToSign within) = operandCases cases within) := by
  refine ⟨?_, fun within operand visited => ⟨Expression.isOperand_of_visits visited, fun plain => operandCases_upToSign plain cases⟩⟩
  rw [checkExpression_visits]
  congr 2
  funext within
  exact (handedDown_eq within cases).1

end Checker

/-- The value of a program that is a single assignment. -/
def Program.assigned? (p : Program) : Option Expression :=
  match p.statements with
  | [.declaration _ _ _ value] => some value
  | _ => none

def Visit.within? : Visit → Option (List Enclosure)
  | operand within _ => some within
  | target _ => none

def baum : Declension :=
  ⟨.masculine, ⟨"Baum", "Baumes", "Baum", "Baum"⟩, ⟨"Bäume", "Bäume", "Bäumen", "Bäume"⟩⟩

/-- A tree that is added in spite of a minus sign and a conversion. -/
def addedTree : String :=
  "die Zahl ist 1 plus -den Baum als Zahl\n"

theorem addedTree_accusative :
    ∃ p value operand, (TokenStream.ofText .none ⟨"satz"⟩ addedTree).program = .ok p ∧ p.assigned? = some value ∧
      .operand [.right .plus, .minus, .conversion] operand ∈ value.visits ∧
      operandCases (.single .nominative) (upToSign [.right .plus, .minus, .conversion]) = .single .accusative ∧
      Checker.checkExpression ⟨[baum, zahl]⟩ (.single .nominative) .all true value =
        forM value.visits (Checker.checkVisit ⟨[baum, zahl]⟩ (fun within => operandCases (.single .nominative) (upToSign within))
          (operandNumbers .all)) := by
  have stream := TokenStream.ofText_eq .none ⟨"satz"⟩ addedTree (by decide +kernel)
  have computed : ((TokenStream.ofText .none ⟨"satz"⟩ addedTree).program.map fun p => p.assigned?.map fun value =>
      value.visits.filterMap Visit.within?).toOption = some (some [[.left .plus], [.right .plus, .minus, .conversion]]) := by
    rw [stream]
    decide +kernel
  obtain ⟨p, parsed, viewed⟩ := exists_ok_of_view computed
  obtain ⟨value, assigned, places⟩ := Option.map_eq_some_iff.mp viewed
  have member : [Enclosure.right .plus, .minus, .conversion] ∈ value.visits.filterMap Visit.within? := by simp [places]
  obtain ⟨visit, visited, place⟩ := List.mem_filterMap.mp member
  cases visit with
  | target p => contradiction
  | operand within operand =>
    cases place
    obtain ⟨sameCheck, plain⟩ := Checker.checkExpression_operands ⟨[baum, zahl]⟩ (.single .nominative) .all value
    have notFront : ¬FrontsInner [.right .plus, .minus, .conversion] := by
      rintro ⟨before, sign, behind, split, isSign, right, front, side⟩
      rcases before with _ | ⟨first, _ | ⟨second, later⟩⟩
      · contradiction
      · cases split
        contradiction
      · have length := congrArg List.length split
        simp only [List.length_append, List.length_cons, List.length_nil] at length
        obtain rfl : behind = [] := List.eq_nil_of_length_eq_zero (by omega)
        contradiction
    have cases' := (plain _ operand visited).2 notFront
    exact ⟨p, value, operand, parsed, assigned, visited, cases', sameCheck⟩

/-- Both trees of a comparison are in the dative, whatever the comparison is part of. -/
def comparedTrees : String :=
  "die Zahl ist 1 plus -(dem Baum kleiner dem Baum)\n"

/-- The first tree is refused for not being in the accusative, which is the case of the operator before the
minus sign, while all operands pass in the cases of the operators nearest to them. -/
theorem comparedTrees_refused :
    ∃ p value, (TokenStream.ofText .none ⟨"satz"⟩ comparedTrees).program = .ok p ∧ p.assigned? = some value ∧
      ((Checker.checkExpression ⟨[baum, zahl]⟩ (.single .nominative) .all true value).run .empty).1.toOption = none ∧
      ((forM value.visits (Checker.checkVisit ⟨[baum, zahl]⟩ (operandCases (.single .nominative)) (operandNumbers .all)))
        |>.run .empty).1.toOption = some () := by
  have stream := TokenStream.ofText_eq .none ⟨"satz"⟩ comparedTrees (by decide +kernel)
  have computed : ((TokenStream.ofText .none ⟨"satz"⟩ comparedTrees).program.map fun p => p.assigned?.map fun value =>
      (((Checker.checkExpression ⟨[baum, zahl]⟩ (.single .nominative) .all true value).run .empty).1.toOption,
        ((forM value.visits (Checker.checkVisit ⟨[baum, zahl]⟩ (operandCases (.single .nominative)) (operandNumbers .all)))
          |>.run .empty).1.toOption)).toOption = some (some (none, some ())) := by
    rw [stream]
    decide +kernel
  obtain ⟨p, parsed, viewed⟩ := exists_ok_of_view computed
  obtain ⟨value, assigned, outcomes⟩ := Option.map_eq_some_iff.mp viewed
  obtain ⟨refused, passes⟩ := Prod.mk.inj outcomes
  exact ⟨p, value, parsed, assigned, refused, passes⟩

end Satzbau

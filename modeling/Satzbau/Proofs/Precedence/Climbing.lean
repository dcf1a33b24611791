import Satzbau.Proofs.Following.Definitions
import Satzbau.Proofs.Precedence.Depth
import Satzbau.Proofs.Precedence.Trees
import Satzbau.Proofs.Repeating.Reading
import Satzbau.Proofs.Respelling.Requests

namespace Satzbau

namespace Operator

/-- Each level has two powers. The side that an operator associates to has the lower one. -/
theorem leftPower_eq (o : Operator) : o.leftPower = 10 * o.level + if o = power then 1 else 0 := by
  cases o <;> rfl

theorem rightPower_eq (o : Operator) : o.rightPower = 10 * o.level + if o = power then 0 else 1 := by
  cases o <;> rfl

theorem eq_power_congr {o p : Operator} (same : o.rank = p.rank) : o = power ↔ p = power := by
  rw [← rank_eq_power, ← rank_eq_power, same]

theorem leftPower_le {o p : Operator} (looser : o.rank ≤ p.rank) : o.leftPower ≤ p.leftPower := by
  rw [leftPower_eq, leftPower_eq, level_eq, level_eq]
  obtain tighter | same := Nat.lt_or_eq_of_le looser
  · split <;> omega
  · simp only [same, eq_power_congr same, Nat.le_refl]

theorem rightPower_le_power (o : Operator) : o.rightPower ≤ power.leftPower := by
  have bound := o.rank_le_power
  rw [leftPower_eq, rightPower_eq, level_eq, level_eq, if_pos rfl]
  split <;> omega

/-- What does not end the right side of an operator may stand there. -/
theorem allowsRight_of_le {outer inner : Operator} (held : outer.rightPower ≤ inner.leftPower) :
    outer.AllowsRight inner := by
  rw [leftPower_eq, rightPower_eq, level_eq, level_eq] at held
  obtain tighter | same | looser := Nat.lt_trichotomy outer.rank inner.rank
  · exact Or.inl tighter
  · refine Or.inr ⟨same, Decidable.byContradiction fun other => ?_⟩
    rw [if_neg other, if_neg fun isPower => other ((eq_power_congr same).mpr isPower), same] at held
    omega
  · split at held <;> split at held <;> omega

/-- What ends the right side of an operator may have that operator on its left. -/
theorem allowsLeft_of_lt {outer inner : Operator} (ends : outer.leftPower < inner.rightPower) :
    outer.AllowsLeft inner := by
  rw [leftPower_eq, rightPower_eq, level_eq, level_eq] at ends
  obtain tighter | same | looser := Nat.lt_trichotomy outer.rank inner.rank
  · exact Or.inl tighter
  · refine Or.inr ⟨same, fun isPower => ?_⟩
    rw [if_pos isPower, if_pos ((eq_power_congr same).mp isPower), same] at ends
    omega
  · split at ends <;> split at ends <;> omega

/-- Only powers hold their left side more firmly than a minus sign holds what is behind it. -/
theorem minusSignPower_le {o : Operator} : minusSignPower ≤ o.leftPower ↔ o = power := by
  cases o <;> decide

theorem minusSignPower_le_power : minusSignPower ≤ power.leftPower :=
  minusSignPower_le.mpr rfl

end Operator

/-- The operator that a rest of an expression begins with. -/
def nextOperator : List Symbol → Option Operator
  | .operator o _ :: _ => some o
  | _ => none

namespace Parser

/-- An operand at the front of a state and what is left behind it: a literal, a name without an article or
any expression in parentheses. -/
inductive ReadsOperand (scope : Scope) : State → Expression → State → Prop
  | literal {token : Token} {rest : List (Except Diagnostic Token)} {id : NodeId} (isLiteral : token.kind.isLiteral) :
    ReadsOperand scope ⟨.ok token :: rest, id⟩ (.literal token) ⟨rest, id⟩
  | name {token : Token} {rest : List (Except Diagnostic Token)} {id : NodeId} (isNoun : token.kind = .noun) :
    ReadsOperand scope ⟨.ok token :: rest, id⟩ (.noun ⟨id, none, token⟩) ⟨rest, id + 1⟩
  | parenthesised {opening closing : Token} {items rest : List (Except Diagnostic Token)} {id next : NodeId}
    {e : Expression} (opens : opening.kind = .openParenthesis) (closes : closing.kind = .closeParenthesis)
    (inside : complete expression scope ⟨items, id⟩ = .ok (e, ⟨.ok closing :: rest, next⟩)) :
    ReadsOperand scope ⟨.ok opening :: items, id⟩ e ⟨rest, next⟩

mutual

/-- Operands with operators between them and any number of minus signs before each of them. -/
inductive ReadsTerms (scope : Scope) : List Symbol → State → State → Prop
  | operand {e : Expression} {symbols : List Symbol} {s middle t : State} (first : ReadsOperand scope s e middle)
    (later : ReadsOperators scope symbols middle t) : ReadsTerms scope (.operand e :: symbols) s t
  | minusSign {token : Token} {symbols : List Symbol} {rest : List (Except Diagnostic Token)} {id : NodeId} {t : State}
    (isMinus : token.kind = .operator .minus) (later : ReadsTerms scope symbols ⟨rest, id⟩ t) :
    ReadsTerms scope (.minusSign token :: symbols) ⟨.ok token :: rest, id⟩ t

/-- What can be behind an operand: nothing, or an operator and what it stands before. -/
inductive ReadsOperators (scope : Scope) : List Symbol → State → State → Prop
  | none {s : State} : ReadsOperators scope [] s s
  | operator {o : Operator} {token : Token} {symbols : List Symbol} {rest : List (Except Diagnostic Token)} {id : NodeId}
    {t : State} (isOperator : token.kind = .operator o) (later : ReadsTerms scope symbols ⟨rest, id⟩ t) :
    ReadsOperators scope (.operator o token :: symbols) ⟨.ok token :: rest, id⟩ t

end

/-- Whether the token at the front continues no expression. -/
def EndsTerms (scope : Scope) (s : State) : Prop :=
  ∃ token, peek scope s = .ok (token, s) ∧ token.operator? = none ∧ token.kind ≠ .keyword .convert

variable {scope : Scope}

/-- Behind an operand there is the next operator, if any, and never a conversion. -/
theorem ReadsOperators.front {symbols : List Symbol} {s t : State} (reads : ReadsOperators scope symbols s t)
    (ends : EndsTerms scope t) : ∃ token, peek scope s = .ok (token, s) ∧ token.operator? = nextOperator symbols ∧
      token.kind ≠ .keyword .convert := by
  cases reads with
  | none => exact ends
  | @operator o token _ _ _ _ isOperator later =>
    refine ⟨token, rfl, ?_, ?_⟩
    · rw [Token.operator?, isOperator]
      rfl
    · rw [isOperator]
      exact TokenKind.noConfusion

theorem conversions_none {inner : Inner} {value : Expression} {s : State} {token : Token}
    (seen : peek scope s = .ok (token, s)) (other : token.kind ≠ .keyword .convert) :
    conversions inner value scope s = .ok (value, s) := by
  have absent : atKeyword .convert scope s = .ok (false, s) := by
    unfold atKeyword at?
    rw [bind_ok seen, beq_eq_false_iff_ne.mpr other]
    rfl
  unfold conversions
  rw [bind_ok absent]
  rfl

/-- What an expression is read as with enough fuel in one scope, it is read as with any more in a scope
alike. -/
theorem binary_of_complete {scope' : Scope} (like : scope.Like scope') {s t : State} {e : Expression}
    (reads : complete expression scope s = .ok (e, t)) {size : Nat} (enough : s.items.length ≤ size) :
    binary (inner size) 0 scope' s = .ok (e, t) := by
  have more : Follows Eq (fun _ => True) (binary (inner s.items.length) 0) (binary (inner size) 0) :=
    Inner.Follows.ofBinary (.ofInner (fun items _ same => by subst same; cases items <;> constructor; rfl) enough) 0
  obtain ⟨_, rfl, run⟩ := more.run rfl reads
  rw [← binary_of_like like]
  exact run

variable {scope' : Scope}

theorem ReadsOperand.nonempty {s t : State} {e : Expression} (reads : ReadsOperand scope s e t) : s.items ≠ [] := by
  cases reads <;> exact List.cons_ne_nil _ _

theorem primary_reads {s t : State} {e : Expression} (reads : ReadsOperand scope s e t) (like : scope.Like scope') {size : Nat}
    (enough : s.items.length ≤ size + 1) : primary (inner (size + 1)) scope' s = .ok (e, t) := by
  cases reads with
  | @literal token rest id isLiteral =>
    have seen : peek scope' ⟨.ok token :: rest, id⟩ = .ok (token, ⟨.ok token :: rest, id⟩) := rfl
    unfold primary
    rw [bind_ok seen]
    cases kind : token.kind <;> rw [kind] at isLiteral <;> first | contradiction | rfl
  | @name token rest id isNoun =>
    have seen : peek scope' ⟨.ok token :: rest, id⟩ = .ok (token, ⟨.ok token :: rest, id⟩) := rfl
    unfold primary
    rw [bind_ok seen, isNoun]
    rfl
  | @parenthesised opening closing items rest id next _ opens closes inside =>
    have seen : peek scope' ⟨.ok opening :: items, id⟩ = .ok (opening, ⟨.ok opening :: items, id⟩) := rfl
    have taken : advance scope' ⟨.ok opening :: items, id⟩ = .ok (opening, ⟨items, id⟩) := rfl
    have value : (inner (size + 1)).expression 0 scope' ⟨items, id⟩ = .ok (e, ⟨.ok closing :: rest, next⟩) :=
      binary_of_complete like inside (Nat.le_of_succ_le_succ enough)
    unfold primary
    rw [bind_ok seen, opens]
    dsimp only
    rw [bind_ok taken, bind_ok value, bind_ok (expect_cons closes _)]
    rfl

theorem ReadsOperand.not_minus {s t : State} {e : Expression} (reads : ReadsOperand scope s e t) :
    ∃ token, peek scope s = .ok (token, s) ∧ token.operator? ≠ some .minus := by
  cases reads with
  | @literal token _ _ isLiteral =>
    refine ⟨token, rfl, fun isMinus => ?_⟩
    unfold Token.operator? at isMinus
    cases kind : token.kind <;> rw [kind] at isLiteral isMinus <;> contradiction
  | @name token _ _ isNoun =>
    refine ⟨token, rfl, fun isMinus => ?_⟩
    rw [Token.operator?, isNoun] at isMinus
    contradiction
  | @parenthesised opening _ _ _ _ _ _ opens _ _ =>
    refine ⟨opening, rfl, fun isMinus => ?_⟩
    rw [Token.operator?, opens] at isMinus
    contradiction

theorem operand_reads {s t : State} {e : Expression} (reads : ReadsOperand scope s e t) (like : scope.Like scope') {size : Nat}
    (enough : s.items.length ≤ size + 1) {token : Token} (behind : peek scope t = .ok (token, t))
    (other : token.kind ≠ .keyword .convert) : operand (inner (size + 1)) scope' s = .ok (e, t) := by
  obtain ⟨first, seen, notMinus⟩ := reads.not_minus
  rw [like.peek] at seen behind
  unfold operand
  rw [bind_ok seen, if_neg notMinus, bind_ok (primary_reads reads like enough)]
  exact conversions_none behind other

theorem operand_minus {inner : Inner} {token : Token} {rest : List (Except Diagnostic Token)} {id : NodeId} {value : Expression}
    {t : State} (isMinus : token.kind = .operator .minus)
    (below : inner.expression Operator.minusSignPower scope ⟨rest, id⟩ = .ok (value, t)) :
    operand inner scope ⟨.ok token :: rest, id⟩ = .ok (.minus token value, t) := by
  have seen : peek scope ⟨.ok token :: rest, id⟩ = .ok (token, ⟨.ok token :: rest, id⟩) := rfl
  have taken : advance scope ⟨.ok token :: rest, id⟩ = .ok (token, ⟨rest, id⟩) := rfl
  have isOperator : token.operator? = some .minus := by
    rw [Token.operator?, isMinus]
    rfl
  unfold operand
  rw [bind_ok seen, if_pos isOperator, bind_ok taken, bind_ok below]
  rfl

theorem operators_none {inner : Inner} {least : Nat} {left : Expression} {s : State} {token : Token}
    (seen : peek scope s = .ok (token, s)) (other : token.operator? = none) :
    operators inner least left scope s = .ok (left, s) := by
  unfold operators
  rw [bind_ok seen, other]
  rfl

theorem operators_cons {inner : Inner} {least : Nat} {left : Expression} {o : Operator} {token : Token}
    {rest : List (Except Diagnostic Token)} {id : NodeId} (isOperator : token.kind = .operator o) :
    operators inner least left scope ⟨.ok token :: rest, id⟩ =
      if o.leftPower < least then .ok (left, ⟨.ok token :: rest, id⟩)
      else (do
        let right ← inner.expression o.rightPower
        inner.operators least (.binary o token left right) : Parser Expression) scope ⟨rest, id⟩ := by
  have seen : peek scope ⟨.ok token :: rest, id⟩ = .ok (token, ⟨.ok token :: rest, id⟩) := rfl
  have taken : advance scope ⟨.ok token :: rest, id⟩ = .ok (token, ⟨rest, id⟩) := rfl
  have isNext : token.operator? = some o := by
    rw [Token.operator?, isOperator]
    rfl
  unfold operators
  rw [bind_ok seen, isNext]
  dsimp only
  split
  · rfl
  · rw [bind_ok taken]

/-- What is left behind an expression stood at the end of what there was. -/
theorem binary_shortens (size least : Nat) : Shortens scope (binary (inner size) least) :=
  .of_follows fun _ matching => Inner.Follows.ofBinary (.ofInner matching (Nat.le_refl size)) least

theorem ReadsOperand.shortens {s t : State} {e : Expression} (reads : ReadsOperand scope s e t) :
    t.items.length < s.items.length := by
  cases reads with
  | literal _ => exact Nat.lt_succ_self _
  | name _ => exact Nat.lt_succ_self _
  | @parenthesised opening closing items rest id next _ opens closes inside =>
    have left := (binary_shortens _ 0 _ _ _ inside).length_le
    exact Nat.lt_succ_of_lt left

/-- How a tree is read off the front of an expression while operators that hold their left side with less
than some power end it. `later` and `middle` are what is left. -/
structure Climbs (scope : Scope) (least : Nat) (symbols : List Symbol) (t : State) (tree : OperatorTree) (later : List Symbol)
    (middle : State) : Prop where
  reading : tree.reading ++ later = symbols
  obeys : tree.Obeys (nextOperator later)
  held : ∀ o ∈ tree.operators, least ≤ o.leftPower
  ends : ∀ o, nextOperator later = some o → o.leftPower < least
  left : ReadsOperators scope later middle t

/-- What the loop over the operators keeps of the tree it has read so far. -/
structure Grown (least : Nat) (next : Option Operator) (tree : OperatorTree) : Prop where
  obeys : tree.Obeys next
  held : ∀ o ∈ tree.operators, least ≤ o.leftPower
  allowsLeft : ∀ p, next = some p → ∀ o ∈ tree.operators, p.AllowsLeft o

theorem Grown.operand (least : Nat) (next : Option Operator) (e : Expression) : Grown least next (.operand e) where
  obeys := trivial
  held _ member := absurd member (List.not_mem_nil)
  allowsLeft _ _ _ member := absurd member (List.not_mem_nil)

/-- Behind a minus sign only powers are taken along, and all of them. -/
theorem Grown.minus {least : Nat} {symbols later : List Symbol} {t middle : State} {below : OperatorTree}
    (climbs : Climbs scope Operator.minusSignPower symbols t below later middle) (loose : least ≤ Operator.power.leftPower)
    (token : Token) : Grown least (nextOperator later) (.minus token below) := by
  have powers : ∀ o ∈ below.operators, o = .power := fun o member => Operator.minusSignPower_le.mp (climbs.held o member)
  have noPower : nextOperator later ≠ some .power := by
    intro next
    exact absurd (climbs.ends .power next) (by decide)
  refine ⟨⟨climbs.obeys, powers, noPower⟩, fun o member => ?_, fun p next o member => ?_⟩
  · rw [powers o member]
    exact loose
  · rw [powers o member]
    refine Operator.allowsLeft_power ?_
    rintro rfl
    exact noPower next

theorem Grown.binary {least : Nat} {symbols later : List Symbol} {t middle : State} {left right : OperatorTree} {p : Operator}
    (grown : Grown least (some p) left) (holds : least ≤ p.leftPower)
    (climbs : Climbs scope p.rightPower symbols t right later middle) (token : Token) :
    Grown least (nextOperator later) (.binary p token left right) := by
  have allowsLeft : ∀ o ∈ left.operators, p.AllowsLeft o := grown.allowsLeft p rfl
  have allowsRight : ∀ o ∈ right.operators, p.AllowsRight o := fun o member => Operator.allowsRight_of_le (climbs.held o member)
  refine ⟨⟨grown.obeys, climbs.obeys, allowsLeft, allowsRight⟩, fun o member => ?_, fun next isNext o member => ?_⟩
  · obtain inLeft | rfl | inRight : o ∈ left.operators ∨ o = p ∨ o ∈ right.operators := by
      simpa [OperatorTree.operators] using member
    · exact grown.held o inLeft
    · exact holds
    · exact holds.trans (Operator.leftPower_le (allowsRight o inRight).rank_le)
  · have outer : next.AllowsLeft p := Operator.allowsLeft_of_lt (climbs.ends next isNext)
    obtain inLeft | rfl | inRight : o ∈ left.operators ∨ o = p ∨ o ∈ right.operators := by
      simpa [OperatorTree.operators] using member
    · exact outer.below (allowsLeft o inLeft).rank_le
    · exact outer
    · exact outer.below (allowsRight o inRight).rank_le

/-- An expression of symbols is read as far as its operators hold their left side firmly enough. -/
def TermsClimb (scope : Scope) (symbols : List Symbol) : Prop :=
  ∀ {least size : Nat} {s t : State} {scope' : Scope}, least ≤ Operator.power.leftPower →
    ReadsTerms scope symbols s t → EndsTerms scope t → scope.Like scope' → s.items.length ≤ size →
    ∃ tree later middle, Climbs scope least symbols t tree later middle ∧
      binary (inner size) least scope' s = .ok (tree.toExpression, middle)

/-- Operators behind a tree are read as far as they hold it firmly enough. -/
def OperatorsClimb (scope : Scope) (symbols : List Symbol) : Prop :=
  ∀ {least size : Nat} {s t : State} {scope' : Scope} {left : OperatorTree}, least ≤ Operator.power.leftPower →
    ReadsOperators scope symbols s t → EndsTerms scope t → scope.Like scope' → s.items.length ≤ size →
    Grown least (nextOperator symbols) left →
    ∃ tree later middle, Climbs scope least (left.reading ++ symbols) t tree later middle ∧
      operators (inner size) least left.toExpression scope' s = .ok (tree.toExpression, middle)

theorem Climbs.shorter {least : Nat} {symbols later : List Symbol} {t middle : State} {tree : OperatorTree}
    (climbs : Climbs scope least symbols t tree later middle) : later.length < symbols.length := by
  have nonempty := List.length_pos_iff.mpr tree.reading_ne_nil
  rw [← climbs.reading, List.length_append]
  omega

theorem operatorsClimb {symbols : List Symbol} (terms : ∀ later, later.length < symbols.length → TermsClimb scope later)
    (others : ∀ later, later.length < symbols.length → OperatorsClimb scope later) : OperatorsClimb scope symbols := by
  intro least size s t scope' left loose reads ends like enough grown
  cases reads with
  | none =>
    obtain ⟨front, seen, isNone, _⟩ := ends
    rw [like.peek] at seen
    exact ⟨left, [], s, ⟨rfl, grown.obeys, grown.held, fun _ next => (nomatch next), .none⟩, operators_none seen isNone⟩
  | @operator p token symbols rest id _ isOperator later =>
    rw [operators_cons isOperator]
    split
    · rename_i ended
      refine ⟨left, .operator p token :: symbols, _, ⟨rfl, grown.obeys, grown.held, ?_, .operator isOperator later⟩, rfl⟩
      rintro _ ⟨⟩
      exact ended
    · rename_i holds
      obtain ⟨size, rfl⟩ : ∃ k, size = k + 1 := Nat.exists_eq_succ_of_ne_zero (Nat.ne_zero_of_lt enough)
      have enough' : rest.length ≤ size := Nat.le_of_succ_le_succ enough
      obtain ⟨right, behind, middle, climbs, runRight⟩ :=
        terms symbols (Nat.lt_succ_self _) p.rightPower_le_power later ends like enough'
      have fits : middle.items.length ≤ size := (binary_shortens _ _ _ _ _ runRight).length_le.trans enough'
      obtain ⟨tree, remaining, last, climbs', runOthers⟩ :=
        others behind (climbs.shorter.trans (Nat.lt_succ_self _)) loose climbs.left ends like fits
          (grown.binary (Nat.not_lt.mp holds) climbs token)
      refine ⟨tree, remaining, last, { climbs' with reading := ?_ }, ?_⟩
      · rw [climbs'.reading, ← climbs.reading]
        simp [OperatorTree.reading]
      · have runRight : (inner (size + 1)).expression p.rightPower scope' ⟨rest, id⟩ = .ok (right.toExpression, middle) :=
          runRight
        rw [bind_ok runRight]
        exact runOthers

theorem termsClimb {symbols : List Symbol} (terms : ∀ later, later.length < symbols.length → TermsClimb scope later)
    (others : ∀ later, later.length < symbols.length → OperatorsClimb scope later) : TermsClimb scope symbols := by
  intro least size s t scope' loose reads ends like enough
  cases reads with
  | @operand e symbols _ middle _ first later =>
    have nonempty : 0 < s.items.length := List.length_pos_iff.mpr first.nonempty
    obtain ⟨size, rfl⟩ : ∃ k, size = k + 1 := Nat.exists_eq_succ_of_ne_zero (by omega)
    obtain ⟨front, seen, _, other⟩ := later.front ends
    have runOperand := operand_reads first like.binary enough seen other
    have fits : middle.items.length ≤ size + 1 := by
      have := first.shortens
      omega
    obtain ⟨tree, remaining, last, climbs, runOthers⟩ :=
      others symbols (Nat.lt_succ_self _) loose later ends like.binary fits (.operand least _ e)
    refine ⟨tree, remaining, last, climbs, ?_⟩
    unfold binary
    rw [within_run, bind_ok runOperand]
    exact runOthers
  | @minusSign token symbols rest id _ isMinus later =>
    obtain ⟨size, rfl⟩ : ∃ k, size = k + 1 := Nat.exists_eq_succ_of_ne_zero (Nat.ne_zero_of_lt enough)
    have enough' : rest.length ≤ size := Nat.le_of_succ_le_succ enough
    obtain ⟨below, behind, middle, climbs, runBelow⟩ :=
      terms symbols (Nat.lt_succ_self _) Operator.minusSignPower_le_power later ends like.binary enough'
    have fits : middle.items.length ≤ size + 1 :=
      ((binary_shortens _ _ _ _ _ runBelow).length_le.trans enough').trans (Nat.le_succ size)
    obtain ⟨tree, remaining, last, climbs', runOthers⟩ :=
      others behind (climbs.shorter.trans (Nat.lt_succ_self _)) loose climbs.left ends like.binary fits (.minus climbs loose token)
    refine ⟨tree, remaining, last, { climbs' with reading := ?_ }, ?_⟩
    · rw [climbs'.reading, ← climbs.reading]
      rfl
    · have runOperand : operand (inner (size + 1)) { scope' with around := .binary :: scope'.around } ⟨.ok token :: rest, id⟩ =
          .ok (.minus token below.toExpression, middle) :=
        operand_minus isMinus runBelow
      unfold binary
      rw [within_run, bind_ok runOperand]
      exact runOthers

/-- Each run of the loop is over fewer symbols than the expression it is for. -/
theorem climb (symbols : List Symbol) : TermsClimb scope symbols ∧ OperatorsClimb scope symbols := by
  induction length : symbols.length using Nat.strong_induction_on generalizing symbols with
  | _ n ih =>
    have terms : ∀ later : List Symbol, later.length < symbols.length → TermsClimb scope later :=
      fun later shorter => (ih _ (length ▸ shorter) later rfl).1
    have others : ∀ later : List Symbol, later.length < symbols.length → OperatorsClimb scope later :=
      fun later shorter => (ih _ (length ▸ shorter) later rfl).2
    exact ⟨termsClimb terms others, operatorsClimb terms others⟩

/-- Operands with operators between them are read as a whole, and as the one tree in which each operator
holds what it has to. -/
theorem expression_precedence {symbols : List Symbol} {s t : State} (reads : ReadsTerms scope symbols s t)
    (ends : EndsTerms scope t) :
    ∃ tree : OperatorTree, tree.reading = symbols ∧ tree.Obeys none ∧
      (∀ other : OperatorTree, other.reading = symbols → other.Obeys none → other = tree) ∧
      complete expression scope s = .ok (tree.toExpression, t) := by
  obtain ⟨tree, later, middle, climbs, run⟩ :=
    (climb symbols).1 (Nat.zero_le _) reads ends (.refl scope) (Nat.le_refl s.items.length)
  -- No operator holds its left side with less than nothing, so none is left.
  cases climbs.left with
  | none =>
    have reading : tree.reading = symbols := by rw [← climbs.reading, List.append_nil]
    have obeys : tree.Obeys none := climbs.obeys
    exact ⟨tree, reading, obeys, fun other same obeys' => OperatorTree.eq_of_reading (same.trans reading.symm) obeys' obeys, run⟩
  | operator _ _ => exact absurd (climbs.ends _ rfl) (Nat.not_lt_zero _)

end Parser

-- The line `1 plus -Baum hoch (2 minus 3)`.
namespace Raised

def token (kind : TokenKind) (text : String) (first last : Nat) : Token :=
  ⟨kind, text, "satz", .onLine 1 first last⟩

def one : Token := token (.number ⟨1, 0⟩) "1" 1 2
def plus : Token := token (.operator .plus) "plus" 3 7
def sign : Token := token (.operator .minus) "-" 8 9
def noun : Token := token .noun "Baum" 9 13
def power : Token := token (.operator .power) "hoch" 14 18
def opening : Token := token .openParenthesis "(" 19 20
def two : Token := token (.number ⟨2, 0⟩) "2" 20 21
def minus : Token := token (.operator .minus) "minus" 22 27
def three : Token := token (.number ⟨3, 0⟩) "3" 28 29
def closing : Token := token .closeParenthesis ")" 29 30
def lineEnd : Token := token .lineEnd "" 30 30

def scope : Parser.Scope :=
  ⟨[], lineEnd⟩

def written : Parser.State :=
  ⟨[one, plus, sign, noun, power, opening, two, minus, three, closing, lineEnd].map .ok, 0⟩

def rest : Parser.State :=
  ⟨[.ok lineEnd], 1⟩

/-- The sign holds the power, and the parentheses hold what would be looser. -/
def tree : OperatorTree :=
  .binary .plus plus (.operand (.literal one))
    (.minus sign (.binary .power power (.operand (.noun ⟨0, none, noun⟩))
      (.operand (.binary .minus minus (.literal two) (.literal three)))))

theorem read_as_tree :
    Parser.ReadsTerms scope tree.reading written rest ∧ Parser.EndsTerms scope rest ∧
      Parser.complete Parser.expression scope written = .ok (tree.toExpression, rest) := by
  have reads : Parser.ReadsTerms scope tree.reading written rest :=
    .operand (.literal rfl) (.operator rfl (.minusSign rfl (.operand (.name rfl) (.operator rfl
      (.operand (.parenthesised rfl rfl rfl) .none)))))
  have ends : Parser.EndsTerms scope rest := ⟨lineEnd, rfl, rfl, by decide⟩
  have obeys : tree.Obeys none := by decide
  obtain ⟨_, _, _, unique, run⟩ := Parser.expression_precedence reads ends
  rw [← unique tree rfl obeys] at run
  exact ⟨reads, ends, run⟩

end Raised

end Satzbau

import Satzbau.Expression
import Satzbau.Operator

namespace Satzbau

namespace Operator

/-- The operators from those that bind loosest to those that bind tightest. -/
def ranks : List (List Operator) :=
  [[or], [and], [equal, notEqual, greater, less, greaterEqual, lessEqual], [plus, minus], [times, divide, modulo], [power]]

def rank (o : Operator) : Nat :=
  ranks.findIdx fun equals => equals.contains o

theorem level_eq (o : Operator) : o.level = o.rank + 1 := by
  cases o <;> decide

theorem rank_eq_power {o : Operator} : o.rank = power.rank ↔ o = power := by
  cases o <;> decide

/-- Whether an operator may stand on the left side of another one without parentheses. -/
def AllowsLeft (outer inner : Operator) : Prop :=
  outer.rank < inner.rank ∨ outer.rank = inner.rank ∧ outer ≠ power

/-- Whether an operator may stand on the right side of another one without parentheses. -/
def AllowsRight (outer inner : Operator) : Prop :=
  outer.rank < inner.rank ∨ outer.rank = inner.rank ∧ outer = power

instance (outer inner : Operator) : Decidable (outer.AllowsLeft inner) :=
  inferInstanceAs (Decidable (_ ∨ _))

instance (outer inner : Operator) : Decidable (outer.AllowsRight inner) :=
  inferInstanceAs (Decidable (_ ∨ _))

theorem AllowsLeft.rank_le {outer inner : Operator} (allowed : outer.AllowsLeft inner) : outer.rank ≤ inner.rank := by
  obtain tighter | ⟨same, _⟩ := allowed
  · exact Nat.le_of_lt tighter
  · exact Nat.le_of_eq same

theorem AllowsRight.rank_le {outer inner : Operator} (allowed : outer.AllowsRight inner) : outer.rank ≤ inner.rank := by
  obtain tighter | ⟨same, _⟩ := allowed
  · exact Nat.le_of_lt tighter
  · exact Nat.le_of_eq same

/-- What may stand on the left side of an operator may also stand there below a looser one. -/
theorem AllowsLeft.below {outer middle inner : Operator} (allowed : outer.AllowsLeft middle)
    (below : middle.rank ≤ inner.rank) : outer.AllowsLeft inner := by
  obtain tighter | ⟨same, leftAssociative⟩ := allowed
  · exact Or.inl (Nat.lt_of_lt_of_le tighter below)
  · obtain lt | eq := Nat.lt_or_eq_of_le below
    · exact Or.inl (same ▸ lt)
    · exact Or.inr ⟨same.trans eq, leftAssociative⟩

/-- Of two operators at most one may stand beneath the other, whichever of them comes first. -/
theorem AllowsRight.not_allowsLeft {first second : Operator} (right : first.AllowsRight second) :
    ¬second.AllowsLeft first := by
  rintro (looser | ⟨same, other⟩)
  · obtain tighter | ⟨same, _⟩ := right
    · omega
    · omega
  · obtain tighter | ⟨_, rfl⟩ := right
    · omega
    · exact other (rank_eq_power.mp same)

theorem rank_le_power (o : Operator) : o.rank ≤ power.rank := by
  cases o <;> decide

theorem allowsLeft_power {o : Operator} (other : o ≠ power) : o.AllowsLeft power := by
  obtain lt | eq := Nat.lt_or_eq_of_le o.rank_le_power
  · exact Or.inl lt
  · exact Or.inr ⟨eq, other⟩

theorem not_allowsLeft_power (o : Operator) : ¬power.AllowsLeft o := by
  rintro (tighter | ⟨_, other⟩)
  · exact absurd o.rank_le_power (Nat.not_le.mpr tighter)
  · exact other rfl

end Operator

/-- What an expression without parentheses is written with: operands, which are not looked into, minus
signs before them and operators between them. -/
inductive Symbol
  | operand (e : Expression)
  | minusSign (token : Token)
  | operator (o : Operator) (token : Token)

/-- How operators and minus signs hold the operands of an expression. -/
inductive OperatorTree
  | operand (e : Expression)
  | minus (token : Token) (below : OperatorTree)
  | binary (operator : Operator) (token : Token) (left right : OperatorTree)

namespace OperatorTree

def toExpression : OperatorTree → Expression
  | operand e => e
  | minus token below => .minus token below.toExpression
  | binary operator token left right => .binary operator token left.toExpression right.toExpression

/-- A tree as it is written. -/
def reading : OperatorTree → List Symbol
  | operand e => [.operand e]
  | minus token below => .minusSign token :: below.reading
  | binary operator token left right => left.reading ++ .operator operator token :: right.reading

/-- The operators of a tree, without those within an operand. -/
def operators : OperatorTree → List Operator
  | operand _ => []
  | minus _ below => below.operators
  | binary operator _ left right => left.operators ++ operator :: right.operators

/-- Whether a tree needs no parentheses where an operator or nothing follows it. Each side of an operator
binds as tightly as it has to, and a minus sign holds an operand together with all of the powers that
follow it, and no more. -/
def Obeys (next : Option Operator) : OperatorTree → Prop
  | operand _ => True
  | minus _ below => below.Obeys next ∧ (∀ o ∈ below.operators, o = .power) ∧ next ≠ some .power
  | binary operator _ left right =>
    left.Obeys (some operator) ∧ right.Obeys next ∧
      (∀ o ∈ left.operators, operator.AllowsLeft o) ∧ ∀ o ∈ right.operators, operator.AllowsRight o

instance decidableObeys : (tree : OperatorTree) → (next : Option Operator) → Decidable (tree.Obeys next)
  | operand _, _ => isTrue trivial
  | minus _ below, next =>
    have := decidableObeys below next
    inferInstanceAs (Decidable (_ ∧ _))
  | binary operator _ left right, next =>
    have := decidableObeys left (some operator)
    have := decidableObeys right next
    inferInstanceAs (Decidable (_ ∧ _))

theorem mem_operators {o : Operator} {tree : OperatorTree} :
    o ∈ tree.operators ↔ ∃ token, .operator o token ∈ tree.reading := by
  induction tree with
  | operand e => simp [operators, reading]
  | minus token below ih => simp [operators, reading, ih]
  | binary operator token left right ihLeft ihRight =>
    simp [operators, reading, ihLeft, ihRight, exists_or]

theorem operators_congr {s t : OperatorTree} (same : s.reading = t.reading) {o : Operator} (member : o ∈ s.operators) :
    o ∈ t.operators := by
  rw [mem_operators, same] at member
  exact mem_operators.mpr member

theorem reading_ne_nil (tree : OperatorTree) : tree.reading ≠ [] := by
  cases tree <;> simp [reading]

/-- What is written as a bare operand is one. -/
theorem eq_operand {tree : OperatorTree} {e : Expression} (same : tree.reading = [.operand e]) : tree = .operand e := by
  cases tree with
  | operand other =>
    cases same
    rfl
  | minus token below => cases same
  | binary operator token left right =>
    obtain ⟨first, later, begins⟩ := List.exists_cons_of_ne_nil left.reading_ne_nil
    simp [reading, begins] at same

/-- What begins with a minus sign and holds nothing but powers is beneath the sign as a whole. -/
theorem eq_minus {tree : OperatorTree} {next : Option Operator} (obeys : tree.Obeys next) {token : Token}
    {later : List Symbol} (begins : tree.reading = .minusSign token :: later) (powers : ∀ o ∈ tree.operators, o = .power) :
    ∃ below, tree = .minus token below := by
  cases tree with
  | operand e => cases begins
  | minus sign below =>
    cases begins
    exact ⟨below, rfl⟩
  | binary operator sign left right =>
    obtain ⟨leftObeys, _, allowed, _⟩ := obeys
    obtain rfl : operator = .power := powers operator (by simp [operators])
    -- Nothing binds tighter than a power, so its left side is an operand or begins with a sign of its own.
    cases left with
    | operand e => cases begins
    | minus sign below => exact absurd rfl leftObeys.2.2
    | binary inner sign left right => exact absurd (allowed inner (by simp [operators])) (Operator.not_allowsLeft_power inner)

/-- Two operators cannot both be the outermost one of what is written in one way. -/
theorem binary_not_shifted {o p : Operator} {token sign : Token} {left right left' right' : OperatorTree}
    {between : List Symbol} (atLeft : left'.reading = left.reading ++ .operator o token :: between)
    (atRight : right.reading = between ++ .operator p sign :: right'.reading)
    (allowsRight : ∀ q ∈ right.operators, o.AllowsRight q) (allowsLeft : ∀ q ∈ left'.operators, p.AllowsLeft q) : False := by
  have inRight : p ∈ right.operators := mem_operators.mpr ⟨sign, by simp [atRight]⟩
  have inLeft : o ∈ left'.operators := mem_operators.mpr ⟨token, by simp [atLeft]⟩
  exact (allowsRight p inRight).not_allowsLeft (allowsLeft o inLeft)

/-- What is written in one way is held in one way. -/
theorem eq_of_reading {s t : OperatorTree} {next : Option Operator} (same : s.reading = t.reading) (obeys : s.Obeys next)
    (obeys' : t.Obeys next) : s = t := by
  induction s generalizing t next with
  | operand e => exact (eq_operand same.symm).symm
  | minus token below ih =>
    have powers : ∀ o ∈ t.operators, o = .power := fun o member => obeys.2.1 o (operators_congr same.symm member)
    obtain ⟨below', rfl⟩ := eq_minus obeys' same.symm powers
    rw [ih (List.tail_eq_of_cons_eq same) obeys.1 obeys'.1]
  | binary operator token left right ihLeft ihRight =>
    cases t with
    | operand e => exact eq_operand same
    | minus sign below =>
      have powers : ∀ o ∈ (binary operator token left right).operators, o = .power :=
        fun o member => obeys'.2.1 o (operators_congr same member)
      obtain ⟨_, impossible⟩ := eq_minus obeys same powers
      contradiction
    | binary operator' token' left' right' =>
      obtain ⟨leftObeys, rightObeys, allowsLeft, allowsRight⟩ := obeys
      obtain ⟨leftObeys', rightObeys', allowsLeft', allowsRight'⟩ := obeys'
      obtain ⟨between, atLeft, atRight⟩ | ⟨between, atLeft, atRight⟩ := List.append_eq_append_iff.mp same
      · cases between with
        | nil =>
          obtain ⟨sameOperator, sameRight⟩ := List.cons.inj atRight
          cases sameOperator
          rw [List.append_nil] at atLeft
          rw [ihLeft atLeft.symm leftObeys leftObeys', ihRight sameRight rightObeys rightObeys']
        | cons symbol between =>
          obtain ⟨rfl, behind⟩ := List.cons.inj atRight
          exact (binary_not_shifted atLeft behind allowsRight allowsLeft').elim
      · cases between with
        | nil =>
          obtain ⟨sameOperator, sameRight⟩ := List.cons.inj atRight
          cases sameOperator
          rw [List.append_nil] at atLeft
          rw [ihLeft atLeft leftObeys leftObeys', ihRight sameRight.symm rightObeys rightObeys']
        | cons symbol between =>
          obtain ⟨rfl, behind⟩ := List.cons.inj atRight
          exact (binary_not_shifted atLeft behind allowsRight' allowsLeft).elim

end OperatorTree

end Satzbau

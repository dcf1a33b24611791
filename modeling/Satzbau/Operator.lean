import Satzbau.Case

namespace Satzbau

/-- The class of an operator decides the case of its operands. -/
inductive OperatorClass
  | arithmetic
  | comparison
  | logical
deriving DecidableEq, Repr, Inhabited

namespace OperatorClass

def name : OperatorClass → String
  | arithmetic => "Arithmetic"
  | comparison => "Comparison"
  | logical => "Logical"

/-- One adds to a thing (accusative) but is equal to it (dative). -/
def operandCase : OperatorClass → Case
  | arithmetic | logical => .accusative
  | comparison => .dative

end OperatorClass

/-- Binary operators, written as signs or as words. -/
inductive Operator
  | plus
  | minus
  | times
  | divide
  | modulo
  | power
  | equal
  | notEqual
  | greater
  | less
  | greaterEqual
  | lessEqual
  | and
  | or
deriving DecidableEq, Repr, Inhabited

namespace Operator

/-- The operators that are a single word. -/
def singleWords : List Operator :=
  [plus, minus, times, divide, modulo, power, equal, notEqual, greater, less, and, or]

def word : Operator → String
  | plus => "plus"
  | minus => "minus"
  | times => "mal"
  | divide => "durch"
  | modulo => "modulo"
  | power => "hoch"
  | equal => "gleich"
  | notEqual => "ungleich"
  | greater => "größer"
  | less => "kleiner"
  | greaterEqual => "größer gleich"
  | lessEqual => "kleiner gleich"
  | and => "und"
  | or => "oder"

def ofWord? (word : String) : Option Operator :=
  singleWords.find? fun operator => operator.word == word

/-- The operator that `größer` or `kleiner` becomes when `gleich` follows. -/
def orEqual? : Operator → Option Operator
  | greater => some greaterEqual
  | less => some lessEqual
  | _ => none

def operatorClass : Operator → OperatorClass
  | plus | minus | times | divide | modulo | power => .arithmetic
  | equal | notEqual | greater | less | greaterEqual | lessEqual => .comparison
  | and | or => .logical

def rightAssociative : Operator → Bool
  | power => true
  | _ => false

/-- Higher levels bind tighter. -/
def level : Operator → Nat
  | or => 1
  | and => 2
  | equal | notEqual | greater | less | greaterEqual | lessEqual => 3
  | plus | minus => 4
  | times | divide | modulo => 5
  | power => 6

/-- The powers with which an operator holds the operands on its two sides, in tenths of a level.
The side to which it associates is held a tenth less. -/
def leftPower (operator : Operator) : Nat :=
  if operator.rightAssociative then 10 * operator.level + 1 else 10 * operator.level

def rightPower (operator : Operator) : Nat :=
  if operator.rightAssociative then 10 * operator.level else 10 * operator.level + 1

/-- The power with which a minus sign holds the operand behind it: between `mal` and `hoch`. -/
def minusSignPower : Nat :=
  55

end Operator

end Satzbau

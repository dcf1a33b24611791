import Satzbau.Parser.Expression

namespace Satzbau.Parser

def block (inner : Inner) : Parser Block := do
  let _ ← expect .colon "':'"
  inner.statements .period "'.'"

/-- What becomes of an expression that stands alone: the subject of a method block, or a call. -/
def finishStatement (inner : Inner) (value : Expression) : Parser Statement := do
  if ← at? .colon then
    within .methodBlock do
      let _ ← expect .colon "':'"
      return .methodBlock value (← inner.statements .bang "'!'")
  else
    match value with
    | .call c => return .call c
    | other => throw (other.firstToken.unexpected "a statement")

def atAssignment : Parser Bool := do
  match (← peek).kind with
  | .keyword .is | .keyword .are => return true
  | _ => return false

/-- The verb and the value of an assignment. -/
def assignment (inner : Inner) (target : NounPhrase) (owner : Option Expression) : Parser Statement :=
  within .declaration do
    let verb ← advance
    return .declaration target owner verb (← expression inner)

/-- A statement that begins with a determiner: an assignment to a variable or to a property, or an
expression. -/
def nounStatement (inner : Inner) (kind : Determiner) : Parser Statement := do
  let determiner ← advance
  if kind = .quantifier then misplaced determiner "the header of a 'für' loop"
  let noun ← expectNoun
  if ← atAssignment then
    requireOwner determiner kind
    assignment inner (← nounPhrase (some determiner) noun) none
  else
    match ← nounExpression inner determiner kind noun with
    | .property target owner =>
      if ← atAssignment then assignment inner target (some owner)
      else finishStatement inner (.property target owner)
    | value => finishStatement inner value

def branch (inner : Inner) : Parser Branch := do
  let condition ← expression inner
  return ⟨condition, ← block inner⟩

/-- Whether `sonst` stands at the front or on the next line. -/
def atOtherwise : Parser Bool := do
  let token ← peek
  if token.isKeyword .otherwise then return true
  if token.kind = .lineEnd then return (← peekSecond).isKeyword .otherwise
  return false

/-- The branches behind the first one of a conditional. -/
def alternatives (inner : Inner) : Parser (List Branch × Option Block) := do
  if ← atOtherwise then
    skipLineEnds
    let _ ← expectKeyword .otherwise
    if ← eat (.keyword .when) then
      let next ← branch inner
      let (others, otherwise) ← inner.alternatives
      return (next :: others, otherwise)
    else return ([], some (← block inner))
  else return ([], none)

def conditional (inner : Inner) : Parser Statement := within .conditional do
  let token ← expectKeyword .when
  let first ← branch inner
  let (others, otherwise) ← alternatives inner
  return .conditional token (first :: others) otherwise

def whileLoop (inner : Inner) : Parser Statement := within .whileLoop do
  let token ← expectKeyword .whileTrue
  let condition ← expression inner
  return .whileLoop token condition (← block inner)

def loopSource (inner : Inner) : Parser (Option Expression) := do
  let token ← peek
  if token.kind = .word ∧ token.text = "in" then
    let _ ← advance
    return some (← inner.expression 0)
  else return none

def forEach (inner : Inner) : Parser Statement := within .forEach do
  let token ← expectKeyword .forEach
  let (determiner, kind) ← expectDeterminer
  if kind ≠ .quantifier then throw (determiner.unexpected "'jeder', 'jede', 'jedes' or 'alle'")
  let binder ← nounPhrase (some determiner) (← expectNoun)
  let source ← loopSource inner
  return .forEach token binder source (← block inner)

def give (inner : Inner) : Parser Statement := within .give do
  let token ← advance
  requireBody token
  if token.isKeyword .back then return .give token none
  let value ← expression inner
  let _ ← expectKeyword .back
  return .give token (some value)

def loopControl (control : LoopControl) : Parser Statement := do
  let token ← advance
  requireLoop token
  return .loopControl control token

def statement (inner : Inner) : Parser Statement := do
  match (← peek).kind with
  | .keyword .when => conditional inner
  | .keyword .whileTrue => whileLoop inner
  | .keyword .forEach => forEach inner
  | .keyword .give | .keyword .back => give inner
  | .keyword .proceed => loopControl .proceed
  | .keyword .leave => loopControl .leave
  | .keyword .builtin =>
    let token ← advance
    requireBody token
    return .builtin token
  | .keyword .verb | .keyword .noun | .keyword .implementation | .keyword .declension =>
    misplaced (← advance) "the top level of a program"
  | .keyword .conversion => misplaced (← advance) "an 'Implementiere' block"
  | .determiner kind => nounStatement inner kind
  | _ => finishStatement inner (← expression inner)

/-- The statements up to the sign that closes a block. -/
def statements (inner : Inner) (close : TokenKind) (expected : String) : Parser Block := do
  skipLineEnds
  if ← eat close then return []
  if ← at? .fileEnd then unexpected expected
  let first ← statement inner
  endStatement close
  return first :: (← inner.statements close expected)

end Satzbau.Parser

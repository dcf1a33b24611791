import Satzbau.Parser.Inner

namespace Satzbau.Parser

/-- The operators behind a first operand, as long as they hold it firmly enough. -/
def operators (inner : Inner) (least : Nat) (left : Expression) : Parser Expression := do
  match (← peek).operator? with
  | none => return left
  | some operator =>
    if operator.leftPower < least then return left
    let token ← advance
    let right ← inner.expression operator.rightPower
    inner.operators least (.binary operator token left right)

/-- The conversions behind a value. -/
def conversions (inner : Inner) (value : Expression) : Parser Expression := do
  if ← atKeyword .convert then
    let token ← advance
    let target ← nounPhrase none (← expectNoun)
    inner.conversions (.conversion token value target)
  else return value

def items (inner : Inner) (expression : Parser Expression) : Parser (List Expression) := do
  let first ← expression
  if ← eat .comma then return first :: (← inner.items)
  let _ ← expect .closeBracket "',' or ']'"
  return [first]

/-- What a phrase with a definite article stands for: an element, a property or a variable. -/
def definitePhrase (inner : Inner) (phrase : NounPhrase) : Parser Expression := do
  if ← eat .openBracket then
    let index ← inner.expression 0
    let _ ← expect .closeBracket "']'"
    return .element phrase index
  else if ← atOwner then
    let (determiner, kind) ← expectDeterminer
    let noun ← expectNoun
    return .property phrase (← inner.phrase determiner kind noun)
  else return .noun phrase

/-- What a phrase with an indefinite article makes: a list or an object. -/
def indefinitePhrase (inner : Inner) (phrase : NounPhrase) : Parser Expression := do
  if ← eat .openBracket then
    if ← eat .closeBracket then return .list phrase []
    return .list phrase (← inner.items)
  else if ← atKeyword .along then
    if (← peekSecond).determiner?.isSome then
      let _ ← advance
      return .instantiation phrase (← inner.arguments)
    return .instantiation phrase []
  else return .instantiation phrase []

/-- The expression that a determiner and a noun begin, without conversions and operators. -/
def phrase (inner : Inner) (determiner : Token) (kind : Determiner) (noun : Token) : Parser Expression := do
  match kind with
  | .definite => definitePhrase inner (← nounPhrase (some determiner) noun)
  | .indefinite => indefinitePhrase inner (← nounPhrase (some determiner) noun)
  | .quantifier => misplaced determiner "the header of a 'für' loop"
  | .firstPossessive =>
    requireSelf determiner
    return .ownProperty (← nounPhrase (some determiner) noun)
  | .secondPossessive =>
    requireMethodBlock determiner
    return .subjectProperty (← nounPhrase (some determiner) noun)

/-- The expression that a determiner and a noun begin. Outside of operators it takes the operators
behind it along. -/
def nounExpression (inner : Inner) (determiner : Token) (kind : Determiner) (noun : Token) :
    Parser Expression := do
  let value ← conversions inner (← phrase inner determiner kind noun)
  if (← read).around.head? = some .binary then return value
  if (← peek).operator?.isSome then within .binary (operators inner 0 value) else return value

/-- Whether a token can begin the value of an argument. -/
def beginsValue (kind : TokenKind) : Bool :=
  match kind with
  | .noun | .openParenthesis | .operator .minus | .keyword .self | .keyword .you => true
  | _ => kind.isLiteral

/-- An argument names a role by a phrase. If an owner follows, the phrase is the beginning of the
value. -/
def argument (inner : Inner) : Parser Argument := within .argument do
  let (determiner, kind) ← expectDeterminer
  if kind = .quantifier then throw (determiner.unexpected "an article")
  requireOwner determiner kind
  let noun ← expectNoun
  if kind = .definite then
    if ← atOwner then
      let value ← nounExpression inner determiner kind noun
      match value.firstOperand with
      | .property role _ => return ⟨role, some value⟩
      | _ => throw (.unlocated (.internal "genitive argument did not parse as a property"))
  let role ← nounPhrase (some determiner) noun
  if beginsValue (← peek).kind then return ⟨role, some (← inner.expression 0)⟩
  return ⟨role, none⟩

def arguments (inner : Inner) : Parser (List Argument) := do
  let first ← argument inner
  if ← eat .comma then return first :: (← inner.arguments) else return [first]

def groups (inner : Inner) : Parser (List (PrepositionGroup Argument)) := do
  if ← atPreposition then
    let preposition ← advance
    let items ← arguments inner
    return ⟨preposition, items⟩ :: (← inner.groups)
  else return []

def callObject (inner : Inner) : Parser (ObjectRole Argument) := do
  match (← peek).kind with
  | .determiner _ => return .thing (← argument inner)
  | .keyword .myself =>
    let token ← advance
    requireSelf token
    return .reflexive token
  | .keyword .yourself =>
    let token ← advance
    requireMethodBlock token
    return .reflexive token
  | _ => return .absent

def call (inner : Inner) : Parser Call := within .call do
  let id ← freshId
  let verb ← expectVerb
  let object ← callObject inner
  let groups ← groups inner
  let suffix ← optionalWord
  return ⟨id, verb, object, groups, suffix⟩

/-- An expression without operators, a sign before it and conversions behind it. -/
def primary (inner : Inner) : Parser Expression := do
  let token ← peek
  match token.kind with
  | .number _ | .string _ | .boolean _ => return .literal (← advance)
  | .openParenthesis =>
    let _ ← advance
    let value ← inner.expression 0
    let _ ← expect .closeParenthesis "')'"
    return value
  | .word => return .call (← call inner)
  | .noun => return .noun (← nounPhrase none (← advance))
  | .keyword .self =>
    requireSelf token
    return .self (← advance)
  | .keyword .you =>
    requireMethodBlock token
    return .you (← advance)
  | .determiner kind =>
    let determiner ← advance
    let noun ← expectNoun
    nounExpression inner determiner kind noun
  | _ => throw (token.unexpected "an expression")

/-- An operand. A minus sign holds what is behind it more firmly than any operator but `hoch`. -/
def operand (inner : Inner) : Parser Expression := do
  if (← peek).operator? = some .minus then
    let token ← advance
    return .minus token (← inner.expression Operator.minusSignPower)
  else conversions inner (← primary inner)

/-- An expression whose operators hold their left side with at least some power. -/
def binary (inner : Inner) (least : Nat) : Parser Expression := within .binary do
  let left ← operand inner
  operators inner least left

def expression (inner : Inner) : Parser Expression :=
  binary inner 0

end Satzbau.Parser

import Satzbau.Parser.Statement

namespace Satzbau.Parser

def parameter : Parser Parameter := do
  let phrase ← determinedNoun
  if ← at? .noun then return ⟨phrase, some (← advance)⟩ else return ⟨phrase, none⟩

def parameters (inner : Inner) : Parser (List Parameter) := do
  let first ← parameter
  if ← eat .comma then return first :: (← inner.parameters) else return [first]

def headerGroups (inner : Inner) : Parser (List (PrepositionGroup Parameter)) := do
  if ← atPreposition then
    let preposition ← advance
    let items ← parameters inner
    return ⟨preposition, items⟩ :: (← inner.headerGroups)
  else return []

def headerObject : Parser (ObjectRole Parameter) := do
  match (← peek).kind with
  | .determiner _ => return .thing (← parameter)
  | .keyword .myself | .keyword .yourself =>
    let token ← advance
    require token [.method] "a method definition"
    return .reflexive token
  | _ => return .absent

/-- The type between parentheses in front of a verb. -/
def resultType : Parser (Option NounPhrase) := do
  if ← eat .openParenthesis then
    let noun ← expectNoun
    let _ ← expect .closeParenthesis "')'"
    return some (← nounPhrase none noun)
  else return none

def header (inner : Inner) : Parser FunctionHeader := do
  let _ ← expectKeyword .verb
  let result ← resultType
  let verb ← expectVerb
  let object ← headerObject
  let groups ← headerGroups inner
  let suffix ← optionalWord
  return ⟨verb, result, object, groups, suffix⟩

def function (inner : Inner) : Parser FunctionDefinition := do
  let header ← header inner
  return ⟨header, ← block inner⟩

def classDefinition (inner : Inner) : Parser Definition := within .noun do
  let token ← expectKeyword .noun
  let name ← nounPhrase none (← expectNoun)
  let fields ← if ← eat (.keyword .along) then parameters inner else pure []
  return .noun ⟨token, name, fields, ← block inner⟩

def conversionDefinition (inner : Inner) : Parser ConversionDefinition := within .conversion do
  let token ← expectKeyword .conversion
  let target ← nounPhrase none (← expectNoun)
  return ⟨token, target, ← block inner⟩

/-- The methods and conversions up to the point that ends an implementation. -/
def members (inner : Inner) : Parser (List FunctionDefinition × List ConversionDefinition) := do
  skipLineEnds
  match (← peek).kind with
  | .period =>
    let _ ← advance
    return ([], [])
  | .keyword .verb =>
    let method ← within .method (function inner)
    endStatement .period
    let (methods, conversions) ← inner.members
    return (method :: methods, conversions)
  | .keyword .conversion =>
    let conversion ← conversionDefinition inner
    endStatement .period
    let (methods, conversions) ← inner.members
    return (methods, conversion :: conversions)
  | _ => unexpected "'Verb', 'Als' or '.'"

def implementation (inner : Inner) : Parser Definition := within .implementation do
  let token ← expectKeyword .implementation
  let owner ← determinedNoun
  let _ ← expect .colon "':'"
  let (methods, conversions) ← inner.members
  return .implementation ⟨token, owner, methods, conversions⟩

/-- The four forms of one number. -/
def forms : Parser Forms := do
  let _ ← expect .openParenthesis "'('"
  let nominative ← expectNoun
  let _ ← expect .comma "','"
  let genitive ← expectNoun
  let _ ← expect .comma "','"
  let dative ← expectNoun
  let _ ← expect .comma "','"
  let accusative ← expectNoun
  let _ ← expect .closeParenthesis "')'"
  return ⟨nominative.text, genitive.text, dative.text, accusative.text⟩

def gender : Parser Gender := do
  match (← peek).kind with
  | .keyword (.gender g) =>
    let _ ← advance
    return g
  | _ => unexpected "'Maskulinum', 'Femininum', 'Neutrum' or 'Duden'"

def declensionSource : Parser DeclensionSource := do
  if ← eat (.keyword .duden) then
    let _ ← expect .openParenthesis "'('"
    let word ← expectNoun
    let _ ← expect .closeParenthesis "')'"
    return .external word
  else
    let gender ← gender
    let _ ← expectKeyword .singular
    let singular ← forms
    let _ ← expectKeyword .plural
    let plural ← forms
    return .inline ⟨gender, singular, plural⟩

def declension : Parser Definition := within .declension do
  let token ← expectKeyword .declension
  return .declension ⟨token, ← declensionSource⟩

/-- A definition or statement in front of the rest of a program. -/
def program (inner : Inner) : Parser Program := do
  skipLineEnds
  let define (p : Parser Definition) : Parser Program := do
    let definition ← p
    endStatement .fileEnd
    let rest ← inner.program
    return { rest with definitions := definition :: rest.definitions }
  match (← peek).kind with
  | .fileEnd => return .empty
  | .keyword .verb => define (.function <$> within .function (function inner))
  | .keyword .noun => define (classDefinition inner)
  | .keyword .implementation => define (implementation inner)
  | .keyword .declension => define declension
  | _ =>
    let first ← statement inner
    endStatement .fileEnd
    let rest ← inner.program
    return { rest with statements := first :: rest.statements }

end Satzbau.Parser

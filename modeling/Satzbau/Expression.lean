import Satzbau.NounPhrase

namespace Satzbau

/-- What stands behind a verb: nothing, a thing, or the verb's own subject. -/
inductive ObjectRole (α : Type)
  | absent
  | thing (item : α)
  | reflexive (token : Token)

def ObjectRole.toList {α : Type} : ObjectRole α → List α
  | thing item => [item]
  | _ => []

def ObjectRole.map {α β : Type} (f : α → β) : ObjectRole α → ObjectRole β
  | absent => .absent
  | thing item => .thing (f item)
  | reflexive token => .reflexive token

@[simp] theorem ObjectRole.toList_map {α β : Type} (f : α → β) (o : ObjectRole α) :
    (o.map f).toList = o.toList.map f := by
  cases o <;> rfl

/-- A preposition and the things it governs. -/
structure PrepositionGroup (α : Type) where
  preposition : Token
  items : List α

def PrepositionGroup.map {α β : Type} (f : α → β) (g : PrepositionGroup α) : PrepositionGroup β :=
  ⟨g.preposition, g.items.map f⟩

mutual

inductive Expression
  | literal (token : Token)
  | noun (phrase : NounPhrase)
  | list (phrase : NounPhrase) (items : List Expression)
  | element (phrase : NounPhrase) (index : Expression)
  | call (call : Call)
  | binary (operator : Operator) (token : Token) (left right : Expression)
  | minus (token : Token) (operand : Expression)
  | conversion (token : Token) (value : Expression) (target : NounPhrase)
  | instantiation (phrase : NounPhrase) (fields : List Argument)
  | property (phrase : NounPhrase) (owner : Expression)
  /-- A property of the object whose method is running. -/
  | ownProperty (phrase : NounPhrase)
  /-- A property of the subject of a method block. -/
  | subjectProperty (phrase : NounPhrase)
  | self (token : Token)
  | you (token : Token)

/-- A role of a call. A role that is a bare phrase passes the variable of that name. -/
structure Argument where
  phrase : NounPhrase
  value : Option Expression

structure Call where
  id : NodeId
  verb : Token
  object : ObjectRole Argument
  groups : List (PrepositionGroup Argument)
  suffix : Option Token

end

instance : Inhabited Expression :=
  ⟨.literal default⟩

/-- All arguments of a call in the order of the text. -/
def Call.arguments (c : Call) : List Argument :=
  c.object.toList ++ c.groups.flatMap PrepositionGroup.items

namespace Expression

/-- The token with which an expression begins. -/
def firstToken : Expression → Token
  | literal token | minus token _ | self token | you token => token
  | noun phrase | list phrase _ | element phrase _ | instantiation phrase _
  | property phrase _ | ownProperty phrase | subjectProperty phrase => phrase.firstToken
  | call c => c.verb
  | binary _ _ left _ => left.firstToken
  | conversion _ value _ => value.firstToken

/-- The operand with which an expression begins, past operators and conversions. -/
def firstOperand : Expression → Expression
  | binary _ _ left _ => left.firstOperand
  | conversion _ value _ => value.firstOperand
  | other => other

end Expression

end Satzbau

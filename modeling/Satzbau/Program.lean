import Satzbau.Declension
import Satzbau.Expression

namespace Satzbau

inductive LoopControl
  | proceed
  | leave
deriving DecidableEq, Repr, Inhabited

mutual

inductive Statement
  | declaration (target : NounPhrase) (owner : Option Expression) (verb : Token) (value : Expression)
  | conditional (token : Token) (branches : List Branch) (otherwise : Option (List Statement))
  | whileLoop (token : Token) (condition : Expression) (body : List Statement)
  | forEach (token : Token) (binder : NounPhrase) (source : Option Expression) (body : List Statement)
  | give (token : Token) (value : Option Expression)
  | loopControl (control : LoopControl) (token : Token)
  /-- Statements addressed to a subject. -/
  | methodBlock (subject : Expression) (body : List Statement)
  | call (call : Call)
  | builtin (token : Token)

structure Branch where
  condition : Expression
  body : List Statement

end

abbrev Block := List Statement

structure Parameter where
  phrase : NounPhrase
  name : Option Token

/-- The name under which a body sees a parameter. -/
def Parameter.variableName (p : Parameter) : String :=
  p.name.elim p.phrase.word Token.text

/-- What is written before the body of a function or method. -/
structure FunctionHeader where
  verb : Token
  result : Option NounPhrase
  object : ObjectRole Parameter
  groups : List (PrepositionGroup Parameter)
  suffix : Option Token

def FunctionHeader.parameters (h : FunctionHeader) : List Parameter :=
  h.object.toList ++ h.groups.flatMap PrepositionGroup.items

structure FunctionDefinition where
  header : FunctionHeader
  body : Block

structure ClassDefinition where
  token : Token
  name : NounPhrase
  fields : List Parameter
  body : Block

structure ConversionDefinition where
  token : Token
  target : NounPhrase
  body : Block

structure ImplementationDefinition where
  token : Token
  owner : NounPhrase
  methods : List FunctionDefinition
  conversions : List ConversionDefinition

inductive DeclensionSource
  | inline (declension : Declension)
  | external (word : Token)

structure DeclensionDefinition where
  token : Token
  source : DeclensionSource

inductive Definition
  | function (definition : FunctionDefinition)
  | noun (definition : ClassDefinition)
  | implementation (definition : ImplementationDefinition)
  | declension (definition : DeclensionDefinition)

structure Program where
  definitions : List Definition
  statements : Block

def Program.empty : Program :=
  ⟨[], []⟩

end Satzbau

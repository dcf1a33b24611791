import Satzbau.Token

namespace Satzbau

/-- A number that tells apart the noun phrases and calls of a program. -/
abbrev NodeId := Nat

/-- A noun with the word that stands before it. Case, number and gender are not part of the phrase:
they follow from where it stands and are noted under its id. -/
structure NounPhrase where
  id : NodeId
  determiner : Option Token
  noun : Token
deriving DecidableEq, Repr, Inhabited

namespace NounPhrase

def word (p : NounPhrase) : String :=
  p.noun.text

def determinerKind (p : NounPhrase) : Option Determiner :=
  p.determiner.bind Token.determiner?

/-- A single letter is a name that is never declined. -/
def isSymbol (p : NounPhrase) : Bool :=
  p.word.length == 1

def isImmutable (p : NounPhrase) : Bool :=
  p.determinerKind.all Determiner.makesImmutable

def firstToken (p : NounPhrase) : Token :=
  p.determiner.getD p.noun

def span (p : NounPhrase) : Span :=
  p.firstToken.span.to p.noun.span

/-- A phrase is blamed at its noun. -/
def location (p : NounPhrase) : Location :=
  p.noun.location

end NounPhrase

end Satzbau

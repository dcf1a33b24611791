import Satzbau.Case

namespace Satzbau.Preposition

def accusative : List String :=
  ["für", "um", "gegen", "ohne", "bis"]

def dative : List String :=
  ["mit", "nach", "aus", "zu", "von", "bei", "seit", "außer", "gegenüber"]

/-- Prepositions of place (dative) and direction (accusative). -/
def twoWay : List String :=
  ["in", "an", "auf", "über", "unter", "vor", "hinter", "neben", "zwischen"]

def genitive : List String :=
  ["wegen", "während", "trotz", "statt"]

/-- The cases that a preposition governs, in the order in which they are tried. -/
def cases? (word : String) : Option (List Case) :=
  if accusative.contains word then some [.accusative]
  else if dative.contains word then some [.dative]
  else if twoWay.contains word then some [.dative, .accusative]
  else if genitive.contains word then some [.genitive]
  else none

end Satzbau.Preposition

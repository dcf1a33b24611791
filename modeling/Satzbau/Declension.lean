import Satzbau.Case
import Satzbau.Gender

namespace Satzbau

/-- The forms of a noun in one number. -/
structure Forms where
  nominative : String
  genitive : String
  dative : String
  accusative : String
deriving DecidableEq, Repr, Inhabited

namespace Forms

def get (f : Forms) : Case → String
  | .nominative => f.nominative
  | .genitive => f.genitive
  | .dative => f.dative
  | .accusative => f.accusative

def toList (f : Forms) : List String :=
  Case.all.map f.get

/-- The forms as a text writes them, with commas between them. -/
def text (f : Forms) : String :=
  ", ".intercalate f.toList

end Forms

/-- How a noun is declined. -/
structure Declension where
  gender : Gender
  singular : Forms
  plural : Forms
deriving DecidableEq, Repr, Inhabited

namespace Declension

def row (d : Declension) : Number → Forms
  | .singular => d.singular
  | .plural => d.plural

def form (d : Declension) (c : Case) (n : Number) : String :=
  (d.row n).get c

/-- The nominative singular, by which a noun is known. -/
def nominative (d : Declension) : String :=
  d.singular.nominative

/-- The eight forms, singular first. -/
def forms (d : Declension) : List String :=
  d.singular.toList ++ d.plural.toList

/-- The number of the form at an index of the eight. -/
def numberAt (index : Nat) : Number :=
  if index < 4 then .singular else .plural

def contains (d : Declension) (word : String) : Bool :=
  d.forms.contains word

def numbersOf (d : Declension) (word : String) : NumberSet :=
  .ofTest fun n => (d.row n).toList.contains word

def casesOf (d : Declension) (word : String) (n : Number) : CaseSet :=
  .ofTest fun c => d.form c n == word

/-- The declension as a program declares it. -/
def text (d : Declension) : String :=
  "Deklination " ++ d.gender.keyword ++ " Singular(" ++ d.singular.text ++ ") Plural(" ++ d.plural.text ++ ")"

end Declension

end Satzbau

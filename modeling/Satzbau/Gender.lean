import Satzbau.Number

namespace Satzbau

inductive Gender
  | masculine
  | feminine
  | neuter
deriving DecidableEq, Repr, Inhabited

namespace Gender

def all : List Gender :=
  [masculine, feminine, neuter]

/-- The word by which a text names a gender. -/
def keyword : Gender → String
  | masculine => "Maskulinum"
  | feminine => "Femininum"
  | neuter => "Neutrum"

def ofKeyword? (word : String) : Option Gender :=
  all.find? fun g => g.keyword == word

/-- Articles have one column for each gender and a fourth one for the plural, which knows no
gender. -/
def column (g : Gender) : Number → Fin 4
  | .plural => 3
  | .singular =>
    match g with
    | masculine => 0
    | feminine => 1
    | neuter => 2

end Gender

end Satzbau

import Satzbau.Case
import Satzbau.Gender

namespace Satzbau

/-- The kinds of words that stand before a noun. -/
inductive Determiner
  | definite
  | indefinite
  | firstPossessive
  | secondPossessive
  | quantifier
deriving DecidableEq, Repr, Inhabited

namespace Determiner

def all : List Determiner :=
  [definite, indefinite, firstPossessive, secondPossessive, quantifier]

theorem mem_all (d : Determiner) : d ∈ all := by
  cases d <;> decide

def name : Determiner → String
  | definite => "definite article"
  | indefinite => "indefinite article"
  | firstPossessive => "first-person possessive"
  | secondPossessive => "second-person possessive"
  | quantifier => "quantifier"

def ofName? (name : String) : Option Determiner :=
  all.find? fun d => d.name == name

/-- The spellings in one case: masculine, feminine, neuter, plural. -/
def row : Determiner → Case → Vector String 4
  | definite, .nominative => #v["der", "die", "das", "die"]
  | definite, .genitive => #v["des", "der", "des", "der"]
  | definite, .dative => #v["dem", "der", "dem", "den"]
  | definite, .accusative => #v["den", "die", "das", "die"]
  | indefinite, .nominative => #v["ein", "eine", "ein", "einige"]
  | indefinite, .genitive => #v["eines", "einer", "eines", "einiger"]
  | indefinite, .dative => #v["einem", "einer", "einem", "einigen"]
  | indefinite, .accusative => #v["einen", "eine", "ein", "einige"]
  | firstPossessive, .nominative => #v["mein", "meine", "mein", "meine"]
  | firstPossessive, .genitive => #v["meines", "meiner", "meines", "meiner"]
  | firstPossessive, .dative => #v["meinem", "meiner", "meinem", "meinen"]
  | firstPossessive, .accusative => #v["meinen", "meine", "mein", "meine"]
  | secondPossessive, .nominative => #v["dein", "deine", "dein", "deine"]
  | secondPossessive, .genitive => #v["deines", "deiner", "deines", "deiner"]
  | secondPossessive, .dative => #v["deinem", "deiner", "deinem", "deinen"]
  | secondPossessive, .accusative => #v["deinen", "deine", "dein", "deine"]
  | quantifier, .nominative => #v["jeder", "jede", "jedes", "alle"]
  | quantifier, .genitive => #v["jedes", "jeder", "jedes", "aller"]
  | quantifier, .dative => #v["jedem", "jeder", "jedem", "allen"]
  | quantifier, .accusative => #v["jeden", "jede", "jedes", "alle"]

/-- How a determiner is spelled before a noun of a case, gender and number. -/
def form (d : Determiner) (c : Case) (g : Gender) (n : Number) : String :=
  (d.row c)[g.column n]

/-- Every spelling of a determiner. -/
def spellings (d : Determiner) : List String :=
  Case.all.flatMap fun c => (d.row c).toList

/-- The kind of a word. No spelling belongs to two kinds. -/
def ofWord? (word : String) : Option Determiner :=
  all.find? fun d => d.spellings.contains word

/-- Whether a word can open the owner behind a noun, as `des` does in `der Name des Baumes`. -/
def opensOwner (word : String) : Bool :=
  [definite, indefinite, firstPossessive, secondPossessive].any fun d =>
    (d.row .genitive).toList.contains word

/-- A variable declared with a definite article never changes. -/
def makesImmutable : Determiner → Bool
  | definite => true
  | _ => false

end Determiner

end Satzbau

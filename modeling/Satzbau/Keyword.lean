import Satzbau.Gender

namespace Satzbau

/-- Reserved words. -/
inductive Keyword
  /-- `Verb` opens the definition of a function or method. -/
  | verb
  /-- `Nomen` opens the definition of a class. -/
  | noun
  /-- `Implementiere` opens the methods and conversions of a class. -/
  | implementation
  | declension
  /-- `Duden` leaves a declension to the external dictionary. -/
  | duden
  /-- `Als` opens the definition of a conversion. -/
  | conversion
  /-- `als` converts a value. -/
  | convert
  | gender (g : Gender)
  | singular
  | plural
  | when
  | otherwise
  | whileTrue
  | forEach
  | give
  | back
  | proceed
  | leave
  /-- `intern` stands for a body that is built in. -/
  | builtin
  | is
  | are
  | along
  | self
  | you
  | myself
  | yourself
  | load
deriving DecidableEq, Repr, Inhabited

namespace Keyword

def all : List Keyword :=
  [verb, noun, implementation, declension, duden, conversion, convert, singular, plural, when,
    otherwise, whileTrue, forEach, give, back, proceed, leave, builtin, is, are, along, self, you,
    myself, yourself, load] ++ Gender.all.map gender

def spelling : Keyword → String
  | verb => "Verb"
  | noun => "Nomen"
  | implementation => "Implementiere"
  | declension => "Deklination"
  | duden => "Duden"
  | conversion => "Als"
  | convert => "als"
  | gender g => g.keyword
  | singular => "Singular"
  | plural => "Plural"
  | when => "wenn"
  | otherwise => "sonst"
  | whileTrue => "solange"
  | forEach => "für"
  | give => "gebe"
  | back => "zurück"
  | proceed => "fortfahren"
  | leave => "abbrechen"
  | builtin => "intern"
  | is => "ist"
  | are => "sind"
  | along => "mit"
  | self => "ich"
  | you => "du"
  | myself => "mich"
  | yourself => "dich"
  | load => "importiere"

def ofWord? (word : String) : Option Keyword :=
  all.find? fun keyword => keyword.spelling == word

theorem mem_all (k : Keyword) : k ∈ all := by
  cases k with
  | gender g => cases g <;> decide
  | _ => decide

end Keyword

end Satzbau

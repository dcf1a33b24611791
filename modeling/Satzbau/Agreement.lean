import Satzbau.Annotation
import Satzbau.Dictionary

namespace Satzbau.Agreement

/-- The determiner of a phrase, if it is one that is declined. -/
def declinedDeterminer? (p : NounPhrase) : Option (Token × Determiner) :=
  p.determiner.bind fun token => token.determiner?.map fun kind => (token, kind)

/-- Reads a phrase in one number. Its noun has to stand in one of the accepted cases, and its
determiner has to be spelled as that case asks. -/
def agree (p : NounPhrase) (entry : Declension) (cases : CaseSet) (n : Number) :
    Except Diagnostic Annotation :=
  let first := cases.first?.getD .nominative
  let fitting := (entry.casesOf p.word n).inter cases
  if fitting.isEmpty then
    .error (p.noun.blame (.wrongNounForm p.word (entry.form first n) cases))
  else
    match declinedDeterminer? p with
    | none => .ok ⟨fitting, n, some entry.gender, some entry.nominative, none, p.isImmutable⟩
    | some (token, kind) =>
      let spelled (c : Case) : String := kind.form c entry.gender n
      let agreeing := fitting.filter fun c => spelled c == token.text
      match agreeing.first? with
      | none => .error (token.blame (.wrongDeterminer token.text (spelled first)))
      | some c =>
        .ok ⟨agreeing, n, some entry.gender, some entry.nominative, some (spelled c), p.isImmutable⟩

/-- The fault of a noun whose own numbers are not accepted, with the form that it should have. -/
def wrongNumber (p : NounPhrase) (entry : Declension) (cases : CaseSet) (numbers : NumberSet) :
    Diagnostic :=
  let own := ((entry.numbersOf p.word).toList.head?.map (entry.casesOf p.word)).getD .empty
  let c := ((own.inter cases).first?.or (own.first?.or cases.first?)).getD .nominative
  let n := numbers.toList.head?.getD .singular
  p.noun.blame (.wrongNumber p.word (entry.form c n))

/-- The first number in which a phrase agrees, else why it does not agree in the first of them. -/
def agreeInOne (p : NounPhrase) (entry : Declension) (cases : CaseSet) :
    List Number → Except Diagnostic Annotation
  | [] => .error (.unlocated (.internal "no number candidate was tried"))
  | n :: others =>
    match agree p entry cases n with
    | .ok reading => .ok reading
    | .error fault =>
      match others.findSome? fun m => (agree p entry cases m).toOption with
      | some reading => .ok reading
      | none => .error fault

/-- Finds case, number and gender of a phrase whose noun is declined. -/
def decline (dictionary : Dictionary) (p : NounPhrase) (cases : CaseSet) (numbers : NumberSet) :
    Except Diagnostic Annotation :=
  match dictionary.lookup p.word with
  | .error fault => .error (.located p.location fault)
  | .ok entry =>
    let candidates := (entry.numbersOf p.word).inter numbers
    if candidates.isEmpty then .error (wrongNumber p entry cases numbers)
    else agreeInOne p entry cases candidates.toList

/-- A symbol fits everywhere. -/
def symbol (p : NounPhrase) (cases : CaseSet) : Annotation :=
  ⟨cases, .singular, none, none, p.determiner.map Token.text, p.isImmutable⟩

/-- What a phrase is annotated with where some cases and numbers are accepted. -/
def annotate (dictionary : Dictionary) (p : NounPhrase) (cases : CaseSet) (numbers : NumberSet) :
    Except Diagnostic Annotation :=
  if p.isSymbol then .ok (symbol p cases) else decline dictionary p cases numbers

end Satzbau.Agreement

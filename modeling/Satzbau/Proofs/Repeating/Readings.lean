import Satzbau.Agreement
import Satzbau.Proofs.Repeating.Reading
import Satzbau.Proofs.Text

namespace Satzbau

theorem Token.Same.symm {t u : Token} (same : t.Same u) : u.Same t :=
  ⟨same.kind.symm, same.text.symm⟩

theorem NounPhrase.Same.symm {p q : NounPhrase} (same : p.Same q) : q.Same p := by
  have determiner := same.determiner
  refine ⟨same.noun.symm, ?_⟩
  generalize p.determiner = o at determiner
  generalize q.determiner = o' at determiner
  cases determiner with
  | none => exact .none
  | some sameDeterminer => exact .some sameDeterminer.symm

theorem NounPhrase.Same.word {p q : NounPhrase} (same : p.Same q) : p.word = q.word :=
  same.noun.text

theorem Token.Same.determiner? {t u : Token} (same : t.Same u) : t.determiner? = u.determiner? := by
  rw [Token.determiner?, Token.determiner?, same.kind]

theorem NounPhrase.Same.isSymbol {p q : NounPhrase} (same : p.Same q) : p.isSymbol = q.isSymbol := by
  rw [NounPhrase.isSymbol, NounPhrase.isSymbol, same.word]

theorem NounPhrase.Same.isImmutable {p q : NounPhrase} (same : p.Same q) : p.isImmutable = q.isImmutable := by
  have determiner := same.determiner
  rw [NounPhrase.isImmutable, NounPhrase.isImmutable, determinerKind, determinerKind]
  generalize p.determiner = o at determiner
  generalize q.determiner = o' at determiner
  cases determiner with
  | none => rfl
  | some sameDeterminer => rw [Option.bind_some, Option.bind_some, sameDeterminer.determiner?]

/-- What is written before a noun is the same word, if there is any. -/
theorem NounPhrase.Same.determinerText {p q : NounPhrase} (same : p.Same q) :
    p.determiner.map Token.text = q.determiner.map Token.text := by
  have determiner := same.determiner
  generalize p.determiner = o at determiner
  generalize q.determiner = o' at determiner
  cases determiner with
  | none => rfl
  | some sameDeterminer => exact congrArg some sameDeterminer.text

namespace Agreement

variable {p q : NounPhrase}

/-- A phrase is read in one number as the same phrase elsewhere. Only faults tell where it stands. -/
theorem agree_same (same : p.Same q) (entry : Declension) (cases : CaseSet) (n : Number) :
    (agree p entry cases n).toOption = (agree q entry cases n).toOption := by
  have immutable := same.isImmutable
  have word := same.word
  have determiner := same.determiner
  unfold agree
  rw [word, immutable, declinedDeterminer?, declinedDeterminer?]
  dsimp only
  split
  · rfl
  · generalize p.determiner = o at determiner
    generalize q.determiner = o' at determiner
    cases determiner with
    | none => rfl
    | @some d e sameDeterminer =>
      rw [Option.bind_some, Option.bind_some, sameDeterminer.determiner?]
      cases e.determiner? with
      | none => rfl
      | some kind =>
        dsimp only [Option.map_some]
        rw [sameDeterminer.text]
        split
        · rfl
        · rfl

theorem agreeInOne_same (same : p.Same q) (entry : Declension) (cases : CaseSet) (numbers : List Number) :
    (agreeInOne p entry cases numbers).toOption = (agreeInOne q entry cases numbers).toOption := by
  cases numbers with
  | nil => rfl
  | cons n others =>
    have others_same : (others.findSome? fun m => (agree p entry cases m).toOption) =
        others.findSome? fun m => (agree q entry cases m).toOption := by
      congr 1
      funext m
      exact agree_same same entry cases m
    have first := agree_same same entry cases n
    rw [agreeInOne, agreeInOne, others_same]
    cases agreed : agree p entry cases n with
    | ok reading =>
      cases agreed' : agree q entry cases n with
      | ok reading' =>
        rw [agreed, agreed'] at first
        exact first
      | error fault =>
        rw [agreed, agreed'] at first
        contradiction
    | error fault =>
      cases agreed' : agree q entry cases n with
      | ok reading' =>
        rw [agreed, agreed'] at first
        contradiction
      | error fault' =>
        dsimp only
        split
        · rfl
        · rfl

theorem annotate_same (same : p.Same q) (dictionary : Dictionary) (cases : CaseSet) (numbers : NumberSet) :
    (annotate dictionary p cases numbers).toOption = (annotate dictionary q cases numbers).toOption := by
  have word := same.word
  have isSymbol := same.isSymbol
  have symbols : symbol p cases = symbol q cases := by
    rw [symbol, symbol, same.isImmutable, same.determinerText]
  unfold annotate decline
  rw [isSymbol, symbols, word]
  split
  · rfl
  · split
    · rfl
    · dsimp only
      split
      · rfl
      · exact agreeInOne_same same _ _ _

theorem annotate_eq_ok_of_same (same : p.Same q) {dictionary : Dictionary} {cases : CaseSet} {numbers : NumberSet}
    {reading : Annotation} (read : annotate dictionary p cases numbers = .ok reading) :
    annotate dictionary q cases numbers = .ok reading := by
  have both := annotate_same same dictionary cases numbers
  rw [read] at both
  exact eq_ok_of_toOption both.symm

end Agreement

end Satzbau

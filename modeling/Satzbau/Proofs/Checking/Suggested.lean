import Mathlib.Data.List.Infix
import Satzbau.Proofs.Checking.Resolved

namespace Satzbau

/-- A phrase with another spelling of its determiner. -/
def NounPhrase.respelled (p : NounPhrase) (text : String) : NounPhrase :=
  { p with determiner := p.determiner.map fun token => { token with text := text } }

theorem NounPhrase.respelled_agreesIn {p : NounPhrase} {token : Token} {kind : Determiner} {entry : Declension}
    {text : String} {c : Case} {n : Number} (stands : p.determiner = some token) (isKind : token.determiner? = some kind) :
    (p.respelled text).AgreesIn entry c n ↔ entry.form c n = p.word ∧ kind.form c entry.gender n = text := by
  have determiner : (p.respelled text).determiner = some { token with text := text } := by
    rw [NounPhrase.respelled, stands, Option.map_some]
  constructor
  · intro agrees
    exact ⟨agrees.noun, agrees.determiner _ kind determiner isKind⟩
  · rintro ⟨noun, spelled⟩
    refine ⟨noun, fun other otherKind stands' isKind' => ?_⟩
    rw [determiner] at stands'
    cases stands'
    cases isKind.symm.trans isKind'
    exact spelled

namespace Agreement

variable {dictionary : Dictionary} {p : NounPhrase} {cases : CaseSet} {numbers : NumberSet} {diagnostic : Diagnostic}
  {found expected : String}

/-- Where a determiner is blamed, some accepted case has the noun in its first accepted number, and what is
suggested is the spelling in the first accepted case and that number. -/
theorem Refused.wrongDeterminer (refused : Refused dictionary p cases numbers diagnostic)
    (blamed : diagnostic.fault = .wrongDeterminer found expected) :
    ∃ entry token kind c n, dictionary.lookup p.word = .ok entry ∧ p.determiner = some token ∧ token.text = found ∧
      token.determiner? = some kind ∧ cases.first? = some c ∧
      numbers.First (fun m => ∃ d, entry.form d m = p.word) n ∧ (∃ d ∈ cases, entry.form d n = p.word) ∧
      kind.form c entry.gender n = expected := by
  cases refused with
  | unknown _ => cases blamed
  | number _ _ => cases blamed
  | @agreement entry n _ known first fails =>
    cases fails with
    | noun _ => cases blamed
    | @determiner token kind stands isKind fits _ =>
      obtain ⟨d, accepted, spelled⟩ := fits
      obtain ⟨c, earliest⟩ := Option.ne_none_iff_exists'.mp (CaseSet.first?_ne_none accepted)
      cases blamed
      refine ⟨entry, token, kind, c, n, known, stands, rfl, isKind, earliest, first, ⟨d, accepted, spelled⟩, ?_⟩
      rw [earliest, Option.getD_some]

end Agreement

namespace Checker

variable {dictionary : Dictionary} {p : NounPhrase} {cases : CaseSet} {numbers : NumberSet} {a : Annotations}
  {diagnostic : Diagnostic} {found expected : String}

/-- Only a phrase that is not annotated and whose noun is declined can fail. -/
theorem resolve_fails (failed : ((resolve dictionary p cases numbers).run a).1 = .error diagnostic) :
    a.get? p.id = none ∧ p.isSymbol = false ∧ Agreement.decline dictionary p cases numbers = .error diagnostic := by
  rw [resolve_run] at failed
  split at failed
  · contradiction
  · rename_i unknown
    rw [Agreement.annotate] at failed
    split at failed
    · contradiction
    · rename_i fault refused
      cases failed
      split at refused
      · contradiction
      · rename_i declined
        exact ⟨unknown, Bool.eq_false_iff.mpr declined, refused⟩

/-- The determiner that is suggested instead of a wrong one is the spelling of the same kind in the first
accepted case, for the gender of the noun and the first accepted number that has it. The phrase with this
determiner resolves exactly if some accepted number and case that have the noun spell the determiner so, and
then it is another one than was found. This is so if the first accepted case has the noun in that number,
and so it is wherever a single case is accepted. -/
theorem resolve_suggests (failed : ((resolve dictionary p cases numbers).run a).1 = .error diagnostic)
    (blamed : diagnostic.fault = .wrongDeterminer found expected) :
    ∃ entry token kind c n, dictionary.lookup p.word = .ok entry ∧ p.determiner = some token ∧ token.text = found ∧
      token.determiner? = some kind ∧ cases.first? = some c ∧
      numbers.First (fun m => ∃ d, entry.form d m = p.word) n ∧ kind.form c entry.gender n = expected ∧
      (((resolve dictionary (p.respelled expected) cases numbers).run a).1.isOk = true ↔
        ∃ m ∈ numbers, ∃ d ∈ cases, entry.form d m = p.word ∧ kind.form d entry.gender m = expected) ∧
      (((resolve dictionary (p.respelled expected) cases numbers).run a).1.isOk = true → expected ≠ found) ∧
      (entry.form c n = p.word → ((resolve dictionary (p.respelled expected) cases numbers).run a).1.isOk = true) ∧
      (cases = .single c → ((resolve dictionary (p.respelled expected) cases numbers).run a).1.isOk = true) := by
  obtain ⟨unknown, declined, refused⟩ := resolve_fails failed
  have unknown' : a.get? (p.respelled expected).id = none := unknown
  have declined' : (p.respelled expected).isSymbol = false := declined
  obtain ⟨entry, token, kind, c, n, known, stands, text, isKind, earliest, first, fits, suggested⟩ :=
    (Agreement.decline_refused refused).wrongDeterminer blamed
  have passes : ((resolve dictionary (p.respelled expected) cases numbers).run a).1.isOk = true ↔
      ∃ m ∈ numbers, ∃ d ∈ cases, entry.form d m = p.word ∧ kind.form d entry.gender m = expected := by
    rw [resolve_isOk unknown' declined', Agreement.decline_isOk_iff]
    constructor
    · rintro ⟨other, known', m, counted, d, inside, agrees⟩
      cases known.symm.trans known'
      exact ⟨m, counted, d, inside, (NounPhrase.respelled_agreesIn stands isKind).mp agrees⟩
    · rintro ⟨m, counted, d, inside, spelled⟩
      exact ⟨entry, known, m, counted, d, inside, (NounPhrase.respelled_agreesIn stands isKind).mpr spelled⟩
  have accepted := CaseSet.first?_mem earliest
  have inFirst (spelled : entry.form c n = p.word) :
      ((resolve dictionary (p.respelled expected) cases numbers).run a).1.isOk = true :=
    passes.mpr ⟨n, first.1, c, accepted, spelled, suggested⟩
  refine ⟨entry, token, kind, c, n, known, stands, text, isKind, earliest, first, suggested, passes, ?other, inFirst, ?single⟩
  case other =>
    rintro agrees rfl
    obtain ⟨m, counted, d, inside, spelled, same⟩ := passes.mp agrees
    have phrase : p.AgreesIn entry d m := by
      refine ⟨spelled, fun other otherKind stands' isKind' => ?_⟩
      cases stands.symm.trans stands'
      cases isKind.symm.trans isKind'
      exact same.trans text.symm
    have never : (Agreement.decline dictionary p cases numbers).isOk = true :=
      Agreement.decline_isOk_iff.mpr ⟨entry, known, m, counted, d, inside, phrase⟩
    rw [refused] at never
    contradiction
  case single =>
    intro only
    obtain ⟨d, inside, spelled⟩ := fits
    rw [only, CaseSet.mem_single] at inside
    exact inFirst (inside ▸ spelled)

/-- Where only the accusative is accepted, what is suggested resolves. -/
theorem derMenschen_accusative :
    ((resolve ⟨[mensch]⟩ (menschen "der") (.single .accusative) (.single .singular)).run .empty).1 =
      .error ((article "der").blame (.wrongDeterminer "der" "den")) ∧
    ((resolve ⟨[mensch]⟩ ((menschen "der").respelled "den") (.single .accusative) (.single .singular)).run .empty).1.isOk = true := by
  have failed : ((resolve ⟨[mensch]⟩ (menschen "der") (.single .accusative) (.single .singular)).run .empty).1 =
      .error ((article "der").blame (.wrongDeterminer "der" "den")) := by decide +kernel
  obtain ⟨_, _, _, c, _, _, _, _, _, earliest, _, _, _, _, _, single⟩ := resolve_suggests failed rfl
  cases earliest
  exact ⟨failed, single rfl⟩

/-- Where the nominative is accepted too, the determiner that is suggested is that of the nominative, which
is the one that stands there, although `den Menschen` would be an accusative. -/
theorem derMenschen_nominative :
    ((resolve ⟨[mensch]⟩ (menschen "der") (.ofList [.nominative, .accusative]) (.single .singular)).run .empty).1 =
      .error ((article "der").blame (.wrongDeterminer "der" "der")) ∧
    ((resolve ⟨[mensch]⟩ ((menschen "der").respelled "der") (.ofList [.nominative, .accusative])
      (.single .singular)).run .empty).1.isOk = false := by
  decide +kernel

end Checker

end Satzbau

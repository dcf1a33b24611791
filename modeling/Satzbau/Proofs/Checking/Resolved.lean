import Satzbau.Proofs.Checking.Annotated
import Satzbau.Proofs.Lookup.Reach

namespace Satzbau

/-- The first accepted number of some kind, the singular before the plural. -/
def NumberSet.First (s : NumberSet) (holds : Number → Prop) (n : Number) : Prop :=
  n ∈ s ∧ holds n ∧ (n = .plural → Number.singular ∈ s → ¬holds .singular)

theorem NumberSet.toList_pairwise (s : NumberSet) : s.toList.Pairwise fun m n => m = .singular ∧ n = .plural := by
  have ordered : Number.all.Pairwise fun m n => m = .singular ∧ n = .plural := by decide
  exact ordered.sublist List.filter_sublist

theorem NumberSet.first_of_toList {s : NumberSet} {holds : Number → Prop} {before after : List Number} {n : Number}
    (members : s.toList = before ++ n :: after) (earlier : ∀ m ∈ before, ¬holds m) (here : holds n) :
    s.First holds n := by
  have ordered := s.toList_pairwise
  rw [members, List.pairwise_append, List.pairwise_cons] at ordered
  refine ⟨NumberSet.mem_toList.mp (by simp [members]), here, fun isPlural accepted => ?_⟩
  have singular := NumberSet.mem_toList.mpr accepted
  rw [members, List.mem_append, List.mem_cons] at singular
  obtain inside | same | behind := singular
  · exact earlier _ inside
  · rw [isPlural] at same
    contradiction
  · have isSingular := (ordered.2.1.1 _ behind).1
    rw [isPlural] at isSingular
    contradiction

theorem NumberSet.First.of_inter {s t : NumberSet} {holds : Number → Prop} {n : Number}
    (first : (s.inter t).First holds n) (own : ∀ m, holds m → m ∈ s) : t.First holds n := by
  obtain ⟨member, here, earlier⟩ := first
  refine ⟨(NumberSet.mem_inter.mp member).2, here, fun isPlural accepted singular => ?_⟩
  exact earlier isPlural (NumberSet.mem_inter.mpr ⟨own _ singular, accepted⟩) singular

theorem Declension.mem_numbersOf {entry : Declension} {word : String} {n : Number} :
    n ∈ entry.numbersOf word ↔ ∃ c, entry.form c n = word := by
  show (entry.numbersOf word).contains n = true ↔ ∃ c, entry.form c n = word
  rw [Declension.numbersOf, NumberSet.contains_ofTest, List.contains_iff_mem, Forms.toList, List.mem_map]
  exact ⟨fun ⟨c, _, same⟩ => ⟨c, same⟩, fun ⟨c, same⟩ => ⟨c, c.mem_all, same⟩⟩

theorem CaseSet.first?_ne_none {s : CaseSet} {c : Case} (member : c ∈ s) : s.first? ≠ none := by
  intro nothing
  rw [CaseSet.first?, List.head?_eq_none_iff] at nothing
  exact List.ne_nil_of_mem (CaseSet.mem_toList.mpr member) nothing

/-- A phrase agrees in a case and a number if its noun is the form of the entry that they ask for and
its determiner, if there is one, is spelled as they and the gender ask. -/
structure NounPhrase.AgreesIn (p : NounPhrase) (entry : Declension) (c : Case) (n : Number) : Prop where
  noun : entry.form c n = p.word
  determiner : ∀ token kind, p.determiner = some token → token.determiner? = some kind →
    kind.form c entry.gender n = token.text

namespace Agreement

/-- Why a phrase fails in one number: no accepted case has its noun, or none of those that have it
spells the determiner so. What is suggested belongs to the first accepted case. -/
inductive FailsIn (p : NounPhrase) (entry : Declension) (cases : CaseSet) (n : Number) : Diagnostic → Prop
  | noun (misfits : ∀ c ∈ cases, entry.form c n ≠ p.word) :
      FailsIn p entry cases n
        (p.noun.blame (.wrongNounForm p.word (entry.form (cases.first?.getD .nominative) n) cases))
  | determiner {token : Token} {kind : Determiner} (stands : p.determiner = some token)
      (isKind : token.determiner? = some kind) (fits : ∃ c ∈ cases, entry.form c n = p.word)
      (misfits : ∀ c ∈ cases, entry.form c n = p.word → kind.form c entry.gender n ≠ token.text) :
      FailsIn p entry cases n (token.blame
        (.wrongDeterminer token.text (kind.form (cases.first?.getD .nominative) entry.gender n)))

/-- Why a phrase is not read where some cases and numbers are accepted. -/
inductive Refused (dictionary : Dictionary) (p : NounPhrase) (cases : CaseSet) (numbers : NumberSet) :
    Diagnostic → Prop
  | unknown (missing : ∀ entry, dictionary.lookup p.word ≠ .ok entry) :
      Refused dictionary p cases numbers (p.noun.blame (.unknownWord p.word))
  | number {entry : Declension} (found : dictionary.lookup p.word = .ok entry)
      (absent : ∀ n ∈ numbers, ∀ c, entry.form c n ≠ p.word) :
      Refused dictionary p cases numbers (wrongNumber p entry cases numbers)
  | agreement {entry : Declension} {n : Number} {fault : Diagnostic} (found : dictionary.lookup p.word = .ok entry)
      (first : numbers.First (fun m => ∃ c, entry.form c m = p.word) n) (fails : FailsIn p entry cases n fault) :
      Refused dictionary p cases numbers fault

/-- How a phrase is read: in the first accepted number in which it agrees, and in all the accepted cases
in which it agrees there. -/
structure Resolved (p : NounPhrase) (entry : Declension) (cases : CaseSet) (numbers : NumberSet)
    (reading : Annotation) : Prop where
  number : numbers.First (fun n => ∃ c ∈ cases, p.AgreesIn entry c n) reading.number
  cases : ∀ c, c ∈ reading.cases ↔ c ∈ cases ∧ p.AgreesIn entry c reading.number
  gender : reading.gender = some entry.gender
  nominative : reading.nominative = some entry.nominative

variable {dictionary : Dictionary} {p : NounPhrase} {entry : Declension} {cases : CaseSet} {n : Number}
  {numbers : NumberSet} {reading : Annotation} {fault : Diagnostic}

theorem declinedDeterminer?_eq_some {token : Token} {kind : Determiner} :
    declinedDeterminer? p = some (token, kind) ↔ p.determiner = some token ∧ token.determiner? = some kind := by
  constructor
  · intro declined
    obtain ⟨other, stands, mapped⟩ := Option.bind_eq_some_iff.mp declined
    obtain ⟨otherKind, isKind, same⟩ := Option.map_eq_some_iff.mp mapped
    cases same
    exact ⟨stands, isKind⟩
  · rintro ⟨stands, isKind⟩
    exact declinedDeterminer?_of_some stands isKind

/-- The cases that are noted are all the accepted ones in which the phrase agrees. -/
theorem mem_cases_of_agree (agreed : agree p entry cases n = .ok reading) {c : Case} :
    c ∈ reading.cases ↔ c ∈ cases ∧ p.AgreesIn entry c n := by
  have fits := agree_fits agreed
  constructor
  · intro inside
    refine ⟨fits.accepted c inside, fits.noun c inside, fun token kind stands isKind => ?_⟩
    exact fits.determiner token kind (declinedDeterminer?_of_some stands isKind) c inside
  · rintro ⟨accepted, agrees⟩
    have fitting : c ∈ (entry.casesOf p.word n).inter cases :=
      CaseSet.mem_inter.mpr ⟨mem_casesOf.mpr agrees.noun, accepted⟩
    unfold agree at agreed
    dsimp only at agreed
    split at agreed
    · contradiction
    split at agreed
    · cases agreed
      exact fitting
    · rename_i token kind declined
      obtain ⟨stands, isKind⟩ := declinedDeterminer?_eq_some.mp declined
      split at agreed
      · contradiction
      · cases agreed
        exact CaseSet.mem_filter.mpr ⟨fitting, beq_iff_eq.mpr (agrees.determiner token kind stands isKind)⟩

theorem agree_eq_error (failed : agree p entry cases n = .error fault) : FailsIn p entry cases n fault := by
  unfold agree at failed
  dsimp only at failed
  split at failed
  · rename_i nothing
    cases failed
    refine .noun fun c accepted spelled => ?_
    have fitting := CaseSet.mem_inter.mpr ⟨mem_casesOf.mpr spelled, accepted⟩
    rw [CaseSet.isEmpty_eq_false fitting] at nothing
    contradiction
  · rename_i nonempty
    split at failed
    · contradiction
    · rename_i token kind declined
      obtain ⟨stands, isKind⟩ := declinedDeterminer?_eq_some.mp declined
      split at failed
      · rename_i none
        cases failed
        obtain ⟨c, fitting⟩ := CaseSet.exists_mem (Bool.eq_false_iff.mpr nonempty)
        obtain ⟨spelled, accepted⟩ := CaseSet.mem_inter.mp fitting
        refine .determiner stands isKind ⟨c, accepted, mem_casesOf.mp spelled⟩ fun d accepted spelled same => ?_
        have fitting := CaseSet.mem_inter.mpr ⟨mem_casesOf.mpr spelled, accepted⟩
        have agreeing : d ∈ CaseSet.filter (fun c => kind.form c entry.gender n == token.text) _ :=
          CaseSet.mem_filter.mpr ⟨fitting, beq_iff_eq.mpr same⟩
        exact CaseSet.first?_ne_none agreeing none
      · contradiction

theorem FailsIn.not_agreesIn (fails : FailsIn p entry cases n fault) {c : Case} (accepted : c ∈ cases) :
    ¬p.AgreesIn entry c n := by
  intro agrees
  cases fails with
  | noun misfits => exact misfits c accepted agrees.noun
  | determiner stands isKind _ misfits =>
    exact misfits c accepted agrees.noun (agrees.determiner _ _ stands isKind)

theorem agree_isOk_iff : (agree p entry cases n).isOk = true ↔ ∃ c ∈ cases, p.AgreesIn entry c n := by
  constructor
  · intro passed
    cases agreed : agree p entry cases n with
    | error fault =>
      rw [agreed] at passed
      contradiction
    | ok reading =>
      obtain ⟨c, inside⟩ := CaseSet.exists_mem (agree_fits agreed).nonempty
      exact ⟨c, (mem_cases_of_agree agreed).mp inside⟩
  · rintro ⟨c, accepted, agrees⟩
    cases agreed : agree p entry cases n with
    | error fault => exact absurd agrees ((agree_eq_error agreed).not_agreesIn accepted)
    | ok reading => rfl

theorem toOption_eq_some {result : Except Diagnostic Annotation} :
    result.toOption = some reading ↔ result = .ok reading := by
  cases result with
  | ok other => simp [Except.toOption]
  | error fault => simp [Except.toOption]

theorem isOk_iff_toOption {result : Except Diagnostic Annotation} :
    result.isOk = true ↔ result.toOption.isSome = true := by
  cases result with
  | ok reading => exact Iff.rfl
  | error fault => exact Iff.rfl

theorem agreeInOne_toOption (p : NounPhrase) (entry : Declension) (cases : CaseSet) (candidates : List Number) :
    (agreeInOne p entry cases candidates).toOption = candidates.findSome? fun n => (agree p entry cases n).toOption := by
  cases candidates with
  | nil => rfl
  | cons n others =>
    rw [agreeInOne, List.findSome?_cons]
    cases agree p entry cases n with
    | ok reading => rfl
    | error fault =>
      cases others.findSome? fun m => (agree p entry cases m).toOption with
      | none => rfl
      | some reading => rfl

/-- Where no candidate agrees, the first of them is to blame. -/
theorem agreeInOne_eq_error {others : List Number} (failed : agreeInOne p entry cases (n :: others) = .error fault) :
    agree p entry cases n = .error fault := by
  rw [agreeInOne] at failed
  split at failed
  · contradiction
  · rename_i first
    split at failed
    · contradiction
    · rw [first, failed]

/-- A known noun is read in the first of its accepted numbers in which it agrees. -/
theorem decline_toOption (found : dictionary.lookup p.word = .ok entry) (cases : CaseSet) (numbers : NumberSet) :
    (decline dictionary p cases numbers).toOption =
      ((entry.numbersOf p.word).inter numbers).toList.findSome? fun n => (agree p entry cases n).toOption := by
  unfold decline
  rw [found]
  dsimp only
  split
  · rename_i empty
    rw [List.isEmpty_iff.mp empty]
    rfl
  · exact agreeInOne_toOption ..

theorem decline_isOk_iff : (decline dictionary p cases numbers).isOk = true ↔
    ∃ entry, dictionary.lookup p.word = .ok entry ∧ ∃ n ∈ numbers, ∃ c ∈ cases, p.AgreesIn entry c n := by
  have known {entry : Declension} (found : dictionary.lookup p.word = .ok entry) :
      (decline dictionary p cases numbers).isOk = true ↔ ∃ n ∈ numbers, ∃ c ∈ cases, p.AgreesIn entry c n := by
    rw [isOk_iff_toOption, decline_toOption found, List.findSome?_isSome_iff]
    constructor
    · rintro ⟨n, candidate, agreed⟩
      rw [NumberSet.mem_toList, NumberSet.mem_inter] at candidate
      exact ⟨n, candidate.2, agree_isOk_iff.mp (isOk_iff_toOption.mpr agreed)⟩
    · rintro ⟨n, accepted, c, fitting, agrees⟩
      refine ⟨n, ?_, isOk_iff_toOption.mp (agree_isOk_iff.mpr ⟨c, fitting, agrees⟩)⟩
      rw [NumberSet.mem_toList, NumberSet.mem_inter]
      exact ⟨Declension.mem_numbersOf.mpr ⟨c, agrees.noun⟩, accepted⟩
  constructor
  · intro passed
    cases found : dictionary.lookup p.word with
    | ok entry => exact ⟨entry, rfl, (known found).mp passed⟩
    | error fault =>
      rw [decline, found] at passed
      contradiction
  · rintro ⟨entry, found, agreement⟩
    exact (known found).mpr agreement

theorem decline_resolved (read : decline dictionary p cases numbers = .ok reading) :
    ∃ entry, dictionary.lookup p.word = .ok entry ∧ Resolved p entry cases numbers reading := by
  obtain ⟨entry, found, _⟩ := decline_isOk_iff.mp (by rw [read]; rfl)
  have picked := toOption_eq_some.mpr read
  rw [decline_toOption found] at picked
  obtain ⟨before, n, after, members, here, earlier⟩ := List.findSome?_eq_some_iff.mp picked
  have agreed := toOption_eq_some.mp here
  have fits := agree_fits agreed
  have first : ((entry.numbersOf p.word).inter numbers).First (fun m => ∃ c ∈ cases, p.AgreesIn entry c m) n := by
    refine NumberSet.first_of_toList members (fun m inside agrees => ?_) (agree_isOk_iff.mp (by rw [agreed]; rfl))
    have passes := isOk_iff_toOption.mp (agree_isOk_iff.mpr agrees)
    rw [earlier m inside] at passes
    contradiction
  refine ⟨entry, found, ?_⟩
  exact {
    number := by
      rw [fits.number]
      exact first.of_inter fun m ⟨c, _, agrees⟩ => Declension.mem_numbersOf.mpr ⟨c, agrees.noun⟩
    cases := fun c => by
      rw [fits.number]
      exact mem_cases_of_agree agreed
    gender := fits.gender
    nominative := fits.nominative }

theorem decline_refused (failed : decline dictionary p cases numbers = .error fault) :
    Refused dictionary p cases numbers fault := by
  unfold decline at failed
  split at failed
  · rename_i missed
    cases failed
    obtain ⟨missing, rfl⟩ := Dictionary.lookup_eq_error_iff.mp missed
    exact .unknown missing
  · rename_i entry found
    dsimp only at failed
    cases members : ((entry.numbersOf p.word).inter numbers).toList with
    | nil =>
      have empty : ((entry.numbersOf p.word).inter numbers).isEmpty = true := by rw [NumberSet.isEmpty, members]; rfl
      rw [if_pos empty] at failed
      cases failed
      refine .number found fun n accepted c spelled => ?_
      have candidate := NumberSet.mem_inter.mpr ⟨Declension.mem_numbersOf.mpr ⟨c, spelled⟩, accepted⟩
      rw [← NumberSet.mem_toList, members] at candidate
      contradiction
    | cons n others =>
      have nonempty : ¬((entry.numbersOf p.word).inter numbers).isEmpty = true := by rw [NumberSet.isEmpty, members]; nofun
      rw [if_neg nonempty, members] at failed
      have candidate : n ∈ (entry.numbersOf p.word).inter numbers := by
        rw [← NumberSet.mem_toList, members]
        exact List.mem_cons_self ..
      have first : ((entry.numbersOf p.word).inter numbers).First (fun m => ∃ c, entry.form c m = p.word) n :=
        NumberSet.first_of_toList (List.nil_append (n :: others) ▸ members) (fun _ inside => absurd inside List.not_mem_nil)
          (Declension.mem_numbersOf.mp (NumberSet.mem_inter.mp candidate).1)
      exact .agreement found (first.of_inter fun _ => Declension.mem_numbersOf.mpr) (agree_eq_error (agreeInOne_eq_error failed))

end Agreement

namespace Checker

variable {dictionary : Dictionary} {p : NounPhrase} {a : Annotations}

theorem resolve_declined (unknown : a.get? p.id = none) (declined : p.isSymbol = false) (cases : CaseSet)
    (numbers : NumberSet) : (resolve dictionary p cases numbers).run a =
      match Agreement.decline dictionary p cases numbers with
      | .ok reading => (.ok reading, a.record p.id reading)
      | .error fault => (.error fault, a) := by
  have run := resolve_run dictionary p cases numbers a
  rw [unknown, Agreement.annotate, if_neg (Bool.eq_false_iff.mp declined)] at run
  exact run

theorem resolve_isOk (unknown : a.get? p.id = none) (declined : p.isSymbol = false) (cases : CaseSet)
    (numbers : NumberSet) : ((resolve dictionary p cases numbers).run a).1.isOk =
      (Agreement.decline dictionary p cases numbers).isOk := by
  rw [resolve_declined unknown declined]
  cases Agreement.decline dictionary p cases numbers with
  | ok reading => rfl
  | error fault => rfl

/-- Resolving a phrase whose noun is declined is agreement. It succeeds exactly if the phrase agrees in
some accepted number and case; then it notes the first such number and all such cases, with gender and
nominative of the entry. If it fails, it notes nothing, and the fault is that of the unknown word, of the
number, or of the first accepted number that has the word. What it accepts, it accepts for a single case. -/
theorem resolve_is_agreement (unknown : a.get? p.id = none) (declined : p.isSymbol = false) (cases : CaseSet)
    (numbers : NumberSet) :
    (((resolve dictionary p cases numbers).run a).1.isOk = true ↔
      ∃ entry, dictionary.lookup p.word = .ok entry ∧ ∃ n ∈ numbers, ∃ c ∈ cases, p.AgreesIn entry c n) ∧
    (∀ reading, ((resolve dictionary p cases numbers).run a).1 = .ok reading →
      ((resolve dictionary p cases numbers).run a).2 = a.record p.id reading ∧
      (a.record p.id reading).get? p.id = some reading ∧
      ∃ entry, dictionary.lookup p.word = .ok entry ∧ Agreement.Resolved p entry cases numbers reading) ∧
    (∀ fault, ((resolve dictionary p cases numbers).run a).1 = .error fault →
      ((resolve dictionary p cases numbers).run a).2 = a ∧ Agreement.Refused dictionary p cases numbers fault) ∧
    (((resolve dictionary p cases numbers).run a).1.isOk = true ↔
      ∃ c ∈ cases, ((resolve dictionary p (.single c) numbers).run a).1.isOk = true) := by
  refine ⟨?agreement, ?success, ?failure, ?single⟩
  case agreement =>
    rw [resolve_isOk unknown declined]
    exact Agreement.decline_isOk_iff
  case success =>
    intro reading
    rw [resolve_declined unknown declined]
    cases read : Agreement.decline dictionary p cases numbers with
    | error fault => nofun
    | ok other =>
      intro same
      cases same
      exact ⟨rfl, Annotations.get?_record _ unknown, Agreement.decline_resolved read⟩
  case failure =>
    intro fault
    rw [resolve_declined unknown declined]
    cases read : Agreement.decline dictionary p cases numbers with
    | ok other => nofun
    | error found =>
      intro same
      cases same
      exact ⟨rfl, Agreement.decline_refused read⟩
  case single =>
    simp only [resolve_isOk unknown declined, Agreement.decline_isOk_iff]
    constructor
    · rintro ⟨entry, found, n, counted, c, accepted, agrees⟩
      exact ⟨c, accepted, entry, found, n, counted, c, CaseSet.mem_single.mpr rfl, agrees⟩
    · rintro ⟨c, accepted, entry, found, n, counted, d, same, agrees⟩
      rw [CaseSet.mem_single.mp same] at agrees
      exact ⟨entry, found, n, counted, c, accepted, agrees⟩

def article (text : String) : Token :=
  ⟨.determiner .definite, text, "satz", .onLine 1 1 4⟩

/-- `Menschen` behind some form of the definite article. -/
def menschen (text : String) : NounPhrase :=
  ⟨0, some (article text), ⟨.noun, "Menschen", "satz", .onLine 1 5 13⟩⟩

/-- In the singular no accepted case fits the article of `die Menschen`, in the plural both do. -/
theorem dieMenschen_agrees : Annotations.empty.get? (menschen "die").id = none ∧ (menschen "die").isSymbol = false ∧
    ∃ entry, Dictionary.lookup ⟨[mensch]⟩ "Menschen" = .ok entry ∧
      ∃ n ∈ NumberSet.all, ∃ c ∈ CaseSet.ofList [.nominative, .accusative], (menschen "die").AgreesIn entry c n := by
  have resolved := @resolve_is_agreement ⟨[mensch]⟩ (menschen "die") .empty rfl (by decide)
    (.ofList [.nominative, .accusative]) .all
  exact ⟨rfl, by decide, resolved.1.mp (by decide +kernel)⟩

end Checker

end Satzbau

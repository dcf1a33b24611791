import Satzbau.Proofs.Backtracking
import Satzbau.Proofs.Checking.Narrowed
import Satzbau.Proofs.Checking.Noted

namespace Satzbau

/-- What the annotation of a phrase says in one case where the noun is declined as an entry of the
dictionary: noun and determiner are spelled as case, gender and number ask. -/
structure NounPhrase.DeclinedAs (p : NounPhrase) (entry : Declension) (c : Case) (reading : Annotation) : Prop where
  noun : entry.form c reading.number = p.word
  gender : reading.gender = some entry.gender
  nominative : reading.nominative = some entry.nominative
  noted : reading.determiner = p.determiner.map Token.text
  spelled : ∀ token ∈ p.determiner, ∃ kind, token.determiner? = some kind ∧
    token.text = kind.form c entry.gender reading.number

/-- What the annotation of a phrase says where one case and some numbers are accepted. A single letter
is not declined. -/
structure NounPhrase.ReadAs (dictionary : Dictionary) (p : NounPhrase) (c : Case) (numbers : NumberSet)
    (reading : Annotation) : Prop where
  single : reading.cases = .single c
  declined : p.isSymbol = false → ∃ entry, dictionary.lookup p.word = .ok entry ∧ reading.number ∈ numbers ∧
    p.DeclinedAs entry c reading

namespace Judgement

/-- A phrase is read as it is annotated, in one accepted case and in an accepted number. -/
def exact (dictionary : Dictionary) (a : Annotations) : Judgement where
  reads p cases numbers reading := a.get? p.id = some reading ∧ ∃ c ∈ cases, p.ReadAs dictionary c numbers reading
  ofCall _ _ := True
  ofHeader _ _ := True

theorem noted_isSharp (dictionary : Dictionary) (a : Annotations) : (noted dictionary a).IsSharp :=
  fun _ _ _ _ reads => Agreement.annotate_single reads.1

end Judgement

/-- A determiner that stands before a noun is one that is declined. -/
def NounPhrase.HasDeterminer (p : NounPhrase) : Prop :=
  ∀ token ∈ p.determiner, token.determiner?.isSome

namespace Agreement

theorem declinedDeterminer?_of_some {p : NounPhrase} {token : Token} {kind : Determiner}
    (present : p.determiner = some token) (known : token.determiner? = some kind) :
    declinedDeterminer? p = some (token, kind) := by
  rw [declinedDeterminer?, present, Option.bind_some, known]
  rfl

theorem declinedDeterminer?_text {p : NounPhrase} (isDeterminer : p.HasDeterminer) :
    ((declinedDeterminer? p).map fun found => found.1.text) = p.determiner.map Token.text := by
  cases present : p.determiner with
  | none =>
    rw [declinedDeterminer?, present]
    rfl
  | some token =>
    obtain ⟨kind, known⟩ := Option.isSome_iff_exists.mp (isDeterminer token present)
    rw [declinedDeterminer?_of_some present known]
    rfl

theorem Fits.declinedAs {p : NounPhrase} {entry : Declension} {c : Case} {n : Number} {reading : Annotation}
    (fits : Fits p entry (.single c) n reading) (isDeterminer : p.HasDeterminer) : p.DeclinedAs entry c reading := by
  have inside : c ∈ reading.cases := by
    rw [fits.cases_single]
    exact CaseSet.mem_single.mpr rfl
  refine {
    noun := ?_
    gender := fits.gender
    nominative := fits.nominative
    noted := fits.spelling.trans (declinedDeterminer?_text isDeterminer)
    spelled := fun token present => ?_ }
  · rw [fits.number]
    exact fits.noun c inside
  · obtain ⟨kind, known⟩ := Option.isSome_iff_exists.mp (isDeterminer token present)
    refine ⟨kind, known, ?_⟩
    rw [fits.number]
    exact (fits.determiner token kind (declinedDeterminer?_of_some present known) c inside).symm

theorem annotate_readAs {dictionary : Dictionary} {p : NounPhrase} {c : Case} {numbers : NumberSet}
    {reading : Annotation} (isDeterminer : p.HasDeterminer)
    (read : annotate dictionary p (.single c) numbers = .ok reading) : p.ReadAs dictionary c numbers reading where
  single := annotate_single read
  declined notSymbol := by
    rw [annotate, if_neg (Bool.eq_false_iff.mp notSymbol)] at read
    obtain ⟨entry, n, found, accepted, fits⟩ := decline_eq_ok read
    exact ⟨entry, found, fits.number ▸ accepted, fits.declinedAs isDeterminer⟩

end Agreement

namespace Judgement

theorem narrowed_below_exact (dictionary : Dictionary) (a : Annotations) :
    ((noted dictionary a).narrowed NounPhrase.HasDeterminer).Below (exact dictionary a) where
  reads p cases numbers reading := by
    rintro ⟨⟨read, known⟩, isDeterminer, c, rfl⟩
    exact ⟨known, c, CaseSet.mem_single.mpr rfl, Agreement.annotate_readAs isDeterminer read⟩
  ofCall _ _ _ := trivial
  ofHeader _ _ _ := trivial

end Judgement

namespace Program

variable {p : Program} {dictionary : Dictionary} {a : Annotations}

/-- A check annotates no phrase but those of the program. -/
theorem mem_phraseIds_of_annotated (checked : p.annotations dictionary = .ok a) {id : NodeId} {reading : Annotation}
    (known : a.get? id = some reading) : id ∈ phraseIds p.occurrences := by
  have grew := (check_settles_phrases dictionary p).grows .empty
  rw [annotations_eq_ok.mp checked] at grew
  refine Decidable.byContradiction fun outside => ?_
  rw [grew.get?_of_not_mem outside] at known
  contradiction

/-- What is noted of a program agrees with the places of its phrases, one case for each. -/
theorem agrees_exact (distinct : (idsOf p.occurrences).Nodup)
    (determiners : PhrasesHave NounPhrase.HasDeterminer p.occurrences) (checked : p.annotations dictionary = .ok a) :
    p.Agrees (.exact dictionary a) := by
  have narrowed := (agrees_noted distinct checked).narrowed (Judgement.noted_isSharp dictionary a) determiners
  exact (check_settles dictionary p).mono _ _ () (Judgement.narrowed_below_exact dictionary a) narrowed

end Program

theorem TokenStream.phrasesHave_determiner {stream : TokenStream} {p : Program} (parsed : stream.program = .ok p) :
    PhrasesHave NounPhrase.HasDeterminer p.occurrences := by
  intro phrase member
  have written : Parser.AllWritten (fun _ => True) p.occurrences :=
    (stream.program_written parsed trivial fun _ _ => trivial).1
  exact fun token present => ((written _ member).2 token present).1

/-- The annotations of a program that passes the grammar check are those of its phrases, no more and no
less. Each of them has one case, and it says how the phrase is declined at the place where it stands. -/
theorem TokenStream.annotations_exact {stream : TokenStream} {p : Program} (parsed : stream.program = .ok p)
    {dictionary : Dictionary} {a : Annotations} (checked : p.annotations dictionary = .ok a) :
    (∀ id, (∃ reading, a.get? id = some reading) ↔ ∃ phrase, .phrase phrase ∈ p.occurrences ∧ phrase.id = id) ∧
      (∀ id reading, a.get? id = some reading → ∃ c, reading.cases = .single c) ∧
      p.Agrees (.exact dictionary a) := by
  have agrees := p.agrees_exact (stream.nodup_ids parsed) (phrasesHave_determiner parsed) checked
  -- Each phrase stands at some place, and what is noted of it there is its only annotation.
  have read : ∀ phrase, .phrase phrase ∈ p.occurrences →
      ∃ reading, a.get? phrase.id = some reading ∧ ∃ c, reading.cases = .single c := by
    intro phrase member
    obtain ⟨_, _, reading, known, c, _, readAs⟩ := agrees.occurrences _ member
    exact ⟨reading, known, c, readAs.single⟩
  refine ⟨fun id => ⟨?_, ?_⟩, fun id reading known => ?_, agrees⟩
  · rintro ⟨reading, known⟩
    exact mem_phraseIds.mp (Program.mem_phraseIds_of_annotated checked known)
  · rintro ⟨phrase, member, rfl⟩
    obtain ⟨reading, known, _⟩ := read phrase member
    exact ⟨reading, known⟩
  · obtain ⟨phrase, member, rfl⟩ := mem_phraseIds.mp (Program.mem_phraseIds_of_annotated checked known)
    obtain ⟨reading', known', single⟩ := read phrase member
    rw [known] at known'
    cases known'
    exact single

/-- Here `die Zahl` is an object and also the property with which the object's value begins: one phrase
at two places, with one annotation. -/
theorem laying_annotations_exact : ∃ p a,
    (TokenStream.ofText .none ⟨"satz"⟩ "lege die Zahl des Menschen auf einen Menschen\n").program = .ok p ∧
      p.annotations ⟨[mensch, zahl]⟩ = .ok a ∧ p.Agrees (.exact ⟨[mensch, zahl]⟩ a) := by
  have stream := TokenStream.ofText_eq .none ⟨"satz"⟩ "lege die Zahl des Menschen auf einen Menschen\n" (by decide +kernel)
  have passes : ((TokenStream.ofText .none ⟨"satz"⟩ "lege die Zahl des Menschen auf einen Menschen\n").program.bind
      fun p => p.annotations ⟨[mensch, zahl]⟩).isOk = true := by
    rw [stream]
    decide +kernel
  obtain ⟨p, a, parsed, checked⟩ := exists_ok_of_bind passes
  exact ⟨p, a, parsed, checked, (TokenStream.annotations_exact parsed checked).2.2⟩

end Satzbau

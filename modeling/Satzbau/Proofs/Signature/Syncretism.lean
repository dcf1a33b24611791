import Mathlib.Data.List.Forall2
import Satzbau.Proofs.Backtracking
import Satzbau.Proofs.Signature.Canonical

namespace Satzbau

namespace Determiner

/-- The cases that an object or a preposition allows. -/
def governments : List (List Case) :=
  [[.accusative], [.dative], [.dative, .accusative], [.genitive]]

/-- The definite articles that stand for two cases or numbers which one place allows: `die` for
feminines in the accusative and `der` in the genitive, both in singular and plural, and `den` for
masculines in the accusative singular and the dative plural. -/
def syncretisms : List (Gender × (Case × Number) × (Case × Number)) :=
  [(.feminine, (.accusative, .singular), (.accusative, .plural)),
    (.feminine, (.accusative, .plural), (.accusative, .singular)),
    (.feminine, (.genitive, .singular), (.genitive, .plural)),
    (.feminine, (.genitive, .plural), (.genitive, .singular)),
    (.masculine, (.accusative, .singular), (.dative, .plural)),
    (.masculine, (.dative, .plural), (.accusative, .singular))]

theorem form_eq_form_iff {cases : List Case} (governed : cases ∈ governments) {c c' : Case} (member : c ∈ cases)
    (member' : c' ∈ cases) (g : Gender) (n n' : Number) :
    definite.form c g n = definite.form c' g n' ↔
      (c, n) = (c', n') ∨ (g, (c, n), (c', n')) ∈ syncretisms := by
  have all : ∀ cases ∈ governments, ∀ c ∈ cases, ∀ c' ∈ cases, (definite.form c g n = definite.form c' g n' ↔
      (c, n) = (c', n') ∨ (g, (c, n), (c', n')) ∈ syncretisms) := by
    cases g <;> cases n <;> cases n' <;> decide +kernel
  exact all cases governed c member c' member'

end Determiner

theorem Preposition.cases?_mem {word : String} {cases : List Case} (known : cases? word = some cases) :
    cases ∈ Determiner.governments := by
  unfold cases? at known
  split at known
  · cases known
    decide
  · split at known
    · cases known
      decide
    · split at known
      · cases known
        decide
      · split at known
        · cases known
          decide
        · contradiction

/-- Two phrases that no signature tells apart: they have the same noun, and they were read in the same
case and number or in two for which the article of their gender is the same. -/
def NounPhrase.Indistinct (a a' : Annotations) (p q : NounPhrase) : Prop :=
  p.word = q.word ∧ ∃ reading reading' g c c', a.get? p.id = some reading ∧ a'.get? q.id = some reading' ∧
    reading.gender = some g ∧ reading.grammaticalCase = some c ∧ reading'.grammaticalCase = some c' ∧
    ((c, reading.number) = (c', reading'.number) ∨
      (g, (c, reading.number), (c', reading'.number)) ∈ Determiner.syncretisms)

namespace Signature

variable {dictionary : Dictionary} {a a' : Annotations} {p q : NounPhrase} {c c' : Case}

/-- What is known of a role whose noun is declined. -/
structure Declined (dictionary : Dictionary) (a : Annotations) (c : Case) (p : NounPhrase) (entry : Declension)
    (reading : Annotation) : Prop where
  known : dictionary.lookup p.word = .ok entry
  noted : a.get? p.id = some reading
  gender : reading.gender = some entry.gender
  grammaticalCase : reading.grammaticalCase = some c
  text : canonicalText a p = Determiner.definite.form c entry.gender reading.number ++ " " ++ p.word

theorem declined_of_noted (noted : p.NotedIn dictionary a c) (declined : p.isSymbol = false) :
    ∃ entry reading, Declined dictionary a c p entry reading := by
  obtain ⟨reading, read, annotated⟩ := noted
  obtain ⟨isSymbol, _⟩ | ⟨_, entry, n, known, fits⟩ := Agreement.annotate_eq_ok read
  · rw [declined] at isSymbol
    contradiction
  · have text : canonicalText a p = Determiner.definite.form c entry.gender n ++ " " ++ p.word := by
      rw [canonicalText, canonicalPhrase_declined fits annotated]
      rfl
    exact ⟨entry, reading, known, annotated, fits.gender, fits.grammaticalCase, by rw [fits.number]; exact text⟩

theorem phrase_inj {determiner determiner' noun noun' : String} (isWord : IsWord determiner)
    (isWord' : IsWord determiner') (nounIsWord : IsWord noun) (nounIsWord' : IsWord noun') :
    determiner ++ " " ++ noun = determiner' ++ " " ++ noun' ↔ determiner = determiner' ∧ noun = noun' := by
  constructor
  · intro same
    have sameWords := congrArg words same
    rw [words_phrase isWord nounIsWord, words_phrase isWord' nounIsWord'] at sameWords
    simpa using sameWords
  · rintro ⟨rfl, rfl⟩
    rfl

/-- Two roles of which the same cases are asked have the same canonical text exactly if they are
indistinct. -/
theorem canonicalText_eq_iff {cases : List Case} (governed : cases ∈ Determiner.governments) (member : c ∈ cases)
    (member' : c' ∈ cases) (noted : p.NotedIn dictionary a c) (noted' : q.NotedIn dictionary a' c')
    (declined : p.isSymbol = false) (declined' : q.isSymbol = false) (isWord : IsWord p.word) (isWord' : IsWord q.word) :
    canonicalText a p = canonicalText a' q ↔ p.Indistinct a a' q := by
  obtain ⟨entry, reading, atP⟩ := declined_of_noted noted declined
  obtain ⟨entry', reading', atQ⟩ := declined_of_noted noted' declined'
  rw [atP.text, atQ.text, phrase_inj (isWord_form c _ _).1 (isWord_form c' _ _).1 isWord isWord']
  have sameEntry (sameWord : p.word = q.word) : entry = entry' := by
    have known := atP.known
    rw [sameWord, atQ.known] at known
    exact (Except.ok.inj known).symm
  constructor
  · rintro ⟨sameForm, sameWord⟩
    rw [← sameEntry sameWord] at sameForm
    exact ⟨sameWord, reading, reading', entry.gender, c, c', atP.noted, atQ.noted, atP.gender, atP.grammaticalCase,
      atQ.grammaticalCase, (Determiner.form_eq_form_iff governed member member' _ _ _).mp sameForm⟩
  · rintro ⟨sameWord, found, found', g, d, d', noted, noted', gender, inCase, inCase', alike⟩
    rw [atP.noted] at noted
    rw [atQ.noted] at noted'
    cases noted
    cases noted'
    rw [atP.gender] at gender
    rw [atP.grammaticalCase] at inCase
    rw [atQ.grammaticalCase] at inCase'
    cases gender
    cases inCase
    cases inCase'
    refine ⟨?_, sameWord⟩
    rw [← sameEntry sameWord]
    exact (Determiner.form_eq_form_iff governed member member' _ _ _).mpr alike

end Signature

/-- Roles that no signature tells apart, object by object and group by group. -/
structure Roles.Indistinct (a a' : Annotations) (r r' : Roles) : Prop where
  object : r.object.Related (NounPhrase.Indistinct a a') r'.object
  groups : List.Forall₂ (fun g g' => List.Forall₂ (NounPhrase.Indistinct a a') g.items g'.items) r.groups r'.groups

theorem ObjectRole.related_map_iff {α β γ : Type} {f : α → γ} {g : β → γ} {o : ObjectRole α} {o' : ObjectRole β} :
    (o.map f).Related Eq (o'.map g) ↔ o.Related (fun x y => f x = g y) o' := by
  cases o <;> cases o' <;> constructor <;> intro related <;> cases related
  case absent.absent.mp => exact .absent
  case absent.absent.mpr => exact .absent
  case thing.thing.mp same => exact .thing same
  case thing.thing.mpr same => exact .thing same
  case reflexive.reflexive.mp => exact .reflexive _ _
  case reflexive.reflexive.mpr => exact .reflexive _ _

theorem ObjectRole.related_congr {α β : Type} {R S : α → β → Prop} {o : ObjectRole α} {o' : ObjectRole β}
    (same : ∀ x ∈ o.toList, ∀ y ∈ o'.toList, (R x y ↔ S x y)) : o.Related R o' ↔ o.Related S o' := by
  constructor
  · rintro (_ | ⟨related⟩ | _)
    · exact .absent
    · exact .thing ((same _ (List.mem_cons_self ..) _ (List.mem_cons_self ..)).mp related)
    · exact .reflexive _ _
  · rintro (_ | ⟨related⟩ | _)
    · exact .absent
    · exact .thing ((same _ (List.mem_cons_self ..) _ (List.mem_cons_self ..)).mpr related)
    · exact .reflexive _ _

theorem map_eq_map_iff {α β γ : Type} {f : α → γ} {g : β → γ} {xs : List α} {ys : List β} :
    xs.map f = ys.map g ↔ List.Forall₂ (fun x y => f x = g y) xs ys := by
  rw [← List.forall₂_eq_eq_eq, List.forall₂_map_left_iff, List.forall₂_map_right_iff]

theorem forall₂_congr {α β : Type} {R S : α → β → Prop} {xs : List α} {ys : List β}
    (same : ∀ x ∈ xs, ∀ y ∈ ys, (R x y ↔ S x y)) : List.Forall₂ R xs ys ↔ List.Forall₂ S xs ys := by
  rw [List.forall₂_iff_zip, List.forall₂_iff_zip]
  refine and_congr_right fun _ => ⟨fun all x y inside => ?_, fun all x y inside => ?_⟩
  · obtain ⟨inLeft, inRight⟩ := List.of_mem_zip inside
    exact (same x inLeft y inRight).mp (all inside)
  · obtain ⟨inLeft, inRight⟩ := List.of_mem_zip inside
    exact (same x inLeft y inRight).mpr (all inside)

namespace Roles

variable {dictionary : Dictionary} {a a' : Annotations} {r r' : Roles}

theorem isWord_word {p : NounPhrase} (role : p.IsRole Token.Lexed) : Signature.IsWord p.word := by
  obtain ⟨_, ⟨isNoun, lexed⟩, _⟩ := role
  exact Signature.isWord_of_lexed lexed (by rw [isNoun]; rfl)

theorem object_alike_iff (written : r.Written Token.Lexed) (written' : r'.Written Token.Lexed)
    (noted : r.Noted dictionary a) (noted' : r'.Noted dictionary a') (declined : ∀ p ∈ r.phrases, p.isSymbol = false)
    (declined' : ∀ p ∈ r'.phrases, p.isSymbol = false) :
    (r.canonical a).object.Related Eq (r'.canonical a').object ↔
      r.object.Related (NounPhrase.Indistinct a a') r'.object := by
  rw [canonical, canonical, ObjectRole.related_map_iff]
  refine ObjectRole.related_congr fun p inside q inside' => ?_
  have accusative : [Case.accusative] ∈ Determiner.governments := by decide
  exact Signature.canonicalText_eq_iff accusative (List.mem_cons_self ..) (List.mem_cons_self ..)
    (noted.object p inside) (noted'.object q inside') (declined p (List.mem_append_left _ inside))
    (declined' q (List.mem_append_left _ inside')) (isWord_word (written.object p inside))
    (isWord_word (written'.object q inside'))

theorem items_alike_iff {g g' : PrepositionGroup NounPhrase} (written : r.Written Token.Lexed)
    (written' : r'.Written Token.Lexed) (noted : r.Noted dictionary a) (noted' : r'.Noted dictionary a')
    (declined : ∀ p ∈ r.phrases, p.isSymbol = false) (declined' : ∀ p ∈ r'.phrases, p.isSymbol = false)
    (member : g ∈ r.groups) (member' : g' ∈ r'.groups) (same : g.preposition.text = g'.preposition.text) :
    g.items.map (Signature.canonicalText a) = g'.items.map (Signature.canonicalText a') ↔
      List.Forall₂ (NounPhrase.Indistinct a a') g.items g'.items := by
  obtain ⟨cases, known, c, governed, inCase⟩ := noted.groups g member
  obtain ⟨cases', known', c', governed', inCase'⟩ := noted'.groups g' member'
  rw [← same, known] at known'
  cases known'
  rw [map_eq_map_iff]
  refine forall₂_congr fun p inside q inside' => ?_
  have among := List.mem_append_right r.object.toList (List.mem_flatMap.mpr ⟨g, member, inside⟩)
  have among' := List.mem_append_right r'.object.toList (List.mem_flatMap.mpr ⟨g', member', inside'⟩)
  exact Signature.canonicalText_eq_iff (Preposition.cases?_mem known) governed governed' (inCase p inside)
    (inCase' q inside') (declined p among) (declined' q among') (isWord_word ((written.groups g member).2.2 p inside))
    (isWord_word ((written'.groups g' member').2.2 q inside'))

theorem groups_alike_iff (written : r.Written Token.Lexed) (written' : r'.Written Token.Lexed)
    (noted : r.Noted dictionary a) (noted' : r'.Noted dictionary a') (declined : ∀ p ∈ r.phrases, p.isSymbol = false)
    (declined' : ∀ p ∈ r'.phrases, p.isSymbol = false)
    (prepositions : r.groups.map (fun g => g.preposition.text) = r'.groups.map fun g => g.preposition.text) :
    (r.canonical a).groups.map Signature.spelling = (r'.canonical a').groups.map Signature.spelling ↔
      List.Forall₂ (fun g g' => List.Forall₂ (NounPhrase.Indistinct a a') g.items g'.items) r.groups r'.groups := by
  rw [canonical, canonical, List.map_map, List.map_map, map_eq_map_iff, List.forall₂_iff_zip, List.forall₂_iff_zip]
  have zipped {g g' : PrepositionGroup NounPhrase} (inside : (g, g') ∈ r.groups.zip r'.groups) :
      g.preposition.text = g'.preposition.text :=
    List.forall₂_zip (map_eq_map_iff.mp prepositions) inside
  refine and_congr_right fun _ => ⟨fun all g g' inside => ?_, fun all g g' inside => ?_⟩
  · obtain ⟨member, member'⟩ := List.of_mem_zip inside
    have same := all inside
    exact (items_alike_iff written written' noted noted' declined declined' member member' (zipped inside)).mp
      (Prod.mk.inj same).2
  · obtain ⟨member, member'⟩ := List.of_mem_zip inside
    have items := (items_alike_iff written written' noted noted' declined declined' member member'
      (zipped inside)).mpr (all inside)
    exact Prod.ext (zipped inside) items

end Roles

/-- Two functions, methods or calls of one verb, with the same prepositions, the same suffix and
declined nouns, have the same signature exactly if their roles are indistinct: case and number of a
role are lost where the article of its gender and the form of its noun are the same in another case or
number which its place allows. -/
theorem Program.IsChecked.signature_text_eq_iff_indistinct {p p' : Program} {dictionary : Dictionary}
    {a a' : Annotations} (known : p.IsChecked dictionary a) (known' : p'.IsChecked dictionary a') {r r' : Roles}
    (member : r ∈ p.roles) (member' : r' ∈ p'.roles) (verb : r.verb.text = r'.verb.text)
    (prepositions : r.groups.map (fun g => g.preposition.text) = r'.groups.map fun g => g.preposition.text)
    (suffix : r.suffix.map Token.text = r'.suffix.map Token.text) (declined : ∀ q ∈ r.phrases, q.isSymbol = false)
    (declined' : ∀ q ∈ r'.phrases, q.isSymbol = false) :
    ∃ s t, r.signature a = .ok s ∧ r'.signature a' = .ok t ∧ (s.text = t.text ↔ r.Indistinct a a' r') := by
  have written := known.written r member
  have written' := known'.written r' member'
  have noted := known.noted r member
  have noted' := known'.noted r' member'
  have objects := Roles.object_alike_iff written written' noted noted' declined declined'
  have groups := Roles.groups_alike_iff written written' noted noted' declined declined' prepositions
  refine ⟨r.canonical a, r'.canonical a', Roles.signature_eq_canonical written noted,
    Roles.signature_eq_canonical written' noted', ?_⟩
  rw [Signature.text_eq_text_iff (Roles.canonical_wellFormed written noted) (Roles.canonical_wellFormed written' noted')]
  constructor
  · rintro (alike | confused | confused)
    · exact ⟨objects.mp alike.object, groups.mp alike.groups⟩
    · have without : (r.canonical a).suffix = none := confused.alone.2
      have sich : (r'.canonical a').suffix = _ := confused.suffix.2
      rw [Roles.canonical, suffix] at without
      rw [Roles.canonical, without] at sich
      contradiction
    · have without : (r'.canonical a').suffix = none := confused.alone.2
      have sich : (r.canonical a).suffix = _ := confused.suffix.2
      rw [Roles.canonical, ← suffix] at without
      rw [Roles.canonical, without] at sich
      contradiction
  · intro indistinct
    exact Or.inl ⟨verb, objects.mpr indistinct.object, groups.mpr indistinct.groups, suffix⟩

/-- A function of which one role is an accusative singular, and a call with a dative plural there. -/
def laying : String :=
  "Verb lege die Zahl auf einen Menschen:\n  intern\n.\nlege die Zahl auf einigen Menschen\n"

/-- In which case and number a phrase was read. -/
def Annotations.place? (a : Annotations) (p : NounPhrase) : Option (Option Case × Number) :=
  (a.get? p.id).map fun reading => (reading.grammaticalCase, reading.number)

/-- What a signature is made of, without the places of its tokens. -/
structure Roles.View where
  signature : Option String
  verb : String
  prepositions : List String
  suffix : Option String
  symbols : List Bool
  places : List (Option (Option Case × Number))
deriving DecidableEq

def Roles.view (a : Annotations) (r : Roles) : View :=
  ⟨(r.signature a).toOption.map Signature.text, r.verb.text, r.groups.map fun g => g.preposition.text,
    r.suffix.map Token.text, r.phrases.map NounPhrase.isSymbol, r.phrases.map a.place?⟩

/-- The function and the call have the same signature, although their last roles were read in different
cases and numbers. -/
theorem laying_indistinct :
    ∃ (p : Program) (a : Annotations), p.IsChecked ⟨[mensch, zahl]⟩ a ∧ ∃ r ∈ p.roles, ∃ r' ∈ p.roles, ∃ s t,
      r.signature a = .ok s ∧ r'.signature a = .ok t ∧ s.text = t.text ∧ r.Indistinct a a r' ∧
      r.phrases.map a.place? = [some (some .accusative, .singular), some (some .accusative, .singular)] ∧
      r'.phrases.map a.place? = [some (some .accusative, .singular), some (some .dative, .plural)] := by
  have stream := TokenStream.ofText_eq .none ⟨"satz"⟩ laying (by decide +kernel)
  have computed : ((TokenStream.ofText .none ⟨"satz"⟩ laying).program.bind fun p =>
      (p.annotations ⟨[mensch, zahl]⟩).map fun a => p.roles.map (Roles.view a)).toOption =
      some [⟨some "lege die Zahl auf den Menschen", "lege", ["auf"], none, [false, false],
          [some (some .accusative, .singular), some (some .accusative, .singular)]⟩,
        ⟨some "lege die Zahl auf den Menschen", "lege", ["auf"], none, [false, false],
          [some (some .accusative, .singular), some (some .dative, .plural)]⟩] := by
    rw [stream]
    decide +kernel
  obtain ⟨p, a, parsed, checked, viewed⟩ := exists_ok_of_map computed
  have known : p.IsChecked ⟨[mensch, zahl]⟩ a := ⟨⟨_, .ofText .none ⟨"satz"⟩ laying, parsed⟩, checked⟩
  obtain ⟨r, others, roles, ofFirst, rest⟩ := List.map_eq_cons_iff.mp viewed
  obtain ⟨r', _, rfl, ofSecond, _⟩ := List.map_eq_cons_iff.mp rest
  simp only [Roles.view, Roles.View.mk.injEq] at ofFirst ofSecond
  obtain ⟨text, verb, prepositions, suffix, symbols, places⟩ := ofFirst
  obtain ⟨text', verb', prepositions', suffix', symbols', places'⟩ := ofSecond
  have member : r ∈ p.roles := by simp [roles]
  have member' : r' ∈ p.roles := by simp [roles]
  have declined {r : Roles} (symbols : r.phrases.map NounPhrase.isSymbol = [false, false]) :
      ∀ q ∈ r.phrases, q.isSymbol = false := by
    intro q inside
    have found : q.isSymbol ∈ r.phrases.map NounPhrase.isSymbol := List.mem_map_of_mem inside
    rw [symbols] at found
    simpa using found
  obtain ⟨s, t, signed, signed', sameText⟩ := known.signature_text_eq_iff_indistinct known member member'
    (verb.trans verb'.symm) (prepositions.trans prepositions'.symm) (suffix.trans suffix'.symm) (declined symbols)
    (declined symbols')
  rw [signed] at text
  rw [signed'] at text'
  have same : s.text = t.text := (Option.some.inj text).trans (Option.some.inj text').symm
  exact ⟨p, a, known, r, member, r', member', s, t, signed, signed', same, sameText.mp same, places, places'⟩

end Satzbau

import Satzbau.Proofs.Checking.Noted
import Satzbau.Proofs.Signature.Shape

namespace Satzbau

namespace Signature

variable {dictionary : Dictionary} {a : Annotations} {p : NounPhrase} {c : Case}

/-- The canonical text of a phrase that is annotated. -/
def canonicalText (a : Annotations) (p : NounPhrase) : String :=
  (canonicalPhrase a p).toOption.getD ""

/-- A phrase whose noun is declined has the definite article of the case in which it was read. -/
theorem canonicalPhrase_declined {entry : Declension} {n : Number} {reading : Annotation}
    (fits : Agreement.Fits p entry (.single c) n reading) (noted : a.get? p.id = some reading) :
    canonicalPhrase a p = .ok (Determiner.definite.form c entry.gender n ++ " " ++ p.word) := by
  have known : a.phrase p = .ok reading := by
    rw [Annotations.phrase, noted]
  simp only [canonicalPhrase, known, bind, Except.bind, fits.gender, fits.grammaticalCase, fits.number]
  rfl

/-- A symbol keeps the determiner with which it was written. -/
theorem canonicalPhrase_symbol {determiner : Token} (noted : a.get? p.id = some (Agreement.symbol p (.single c)))
    (written : p.determiner = some determiner) :
    canonicalPhrase a p = .ok (determiner.text ++ " " ++ p.word) := by
  have known : a.phrase p = .ok (Agreement.symbol p (.single c)) := by
    rw [Annotations.phrase, noted]
  unfold canonicalPhrase
  rw [known, written]
  rfl

theorem isWord_of_characters {x : String} (characters : ∀ d ∈ x.toList, Lexer.isWordCharacter d = true) : IsWord x where
  noBlank inside := absurd (characters ' ' inside) (by decide +kernel)
  noComma inside := absurd (characters ',' inside) (by decide +kernel)

theorem isWord_of_lexed {t : Token} (lexed : t.Lexed) (plain : t.kind.isPlainWord = true) : IsWord t.text :=
  isWord_of_characters (lexed.characters plain)

theorem plainWordKind_determiner {word : String} {d : Determiner} (kind : Lexer.plainWordKind word = .determiner d) :
    Determiner.ofWord? word = some d := by
  unfold Lexer.plainWordKind at kind
  split at kind
  · contradiction
  · split at kind
    · contradiction
    · split at kind
      · contradiction
      · rename_i found
        cases kind
        exact found
      · split at kind
        · contradiction
        · contradiction

theorem plainWordKind_word {word : String} (kind : Lexer.plainWordKind word = .word) :
    Determiner.ofWord? word = none := by
  unfold Lexer.plainWordKind at kind
  split at kind
  · contradiction
  · split at kind
    · contradiction
    · split at kind
      · contradiction
      · contradiction
      · rename_i noDeterminer
        exact noDeterminer

theorem isWord_form (c : Case) (g : Gender) (n : Number) :
    IsWord (Determiner.definite.form c g n) ∧ (Determiner.ofWord? (Determiner.definite.form c g n)).isSome := by
  have all : ∀ c ∈ Case.all, ∀ g ∈ Gender.all, ∀ n ∈ Number.all,
      (' ' ∉ (Determiner.definite.form c g n).toList ∧ ',' ∉ (Determiner.definite.form c g n).toList) ∧
        (Determiner.ofWord? (Determiner.definite.form c g n)).isSome := by
    decide +kernel
  obtain ⟨⟨noBlank, noComma⟩, isDeterminer⟩ := all c c.mem_all g (by cases g <;> decide) n n.mem_all
  exact ⟨⟨noBlank, noComma⟩, isDeterminer⟩

/-- The canonical text of a role is a phrase. -/
theorem canonicalPhrase_role (role : p.IsRole Token.Lexed) (noted : p.NotedIn dictionary a c) :
    canonicalPhrase a p = .ok (canonicalText a p) ∧ IsPhrase (canonicalText a p) := by
  obtain ⟨determined, ⟨isNoun, nounLexed⟩, determinerLexed⟩ := role
  obtain ⟨determiner, written⟩ := Option.isSome_iff_exists.mp determined
  obtain ⟨isDeterminer, lexed⟩ := determinerLexed determiner written
  obtain ⟨reading, read, annotated⟩ := noted
  have nounIsWord : IsWord p.word := isWord_of_lexed nounLexed (by rw [isNoun]; rfl)
  have given {x : String} (canonical : canonicalPhrase a p = .ok x) (isPhrase : IsPhrase x) :
      canonicalPhrase a p = .ok (canonicalText a p) ∧ IsPhrase (canonicalText a p) := by
    have same : canonicalText a p = x := by
      rw [canonicalText, canonical]
      rfl
    rw [same]
    exact ⟨canonical, isPhrase⟩
  obtain ⟨_, rfl⟩ | ⟨_, entry, n, _, fits⟩ := Agreement.annotate_eq_ok read
  · refine given (canonicalPhrase_symbol annotated written) ?_
    obtain ⟨d, kind⟩ := Option.isSome_iff_exists.mp isDeterminer
    have isKind : determiner.kind = .determiner d := by
      unfold Token.determiner? TokenKind.determiner? at kind
      split at kind
      · rename_i e found
        cases kind
        exact found
      · contradiction
    have plain : determiner.kind.isPlainWord = true := by
      rw [isKind]
      rfl
    refine .intro (isWord_of_lexed lexed plain) ?_ nounIsWord
    rw [plainWordKind_determiner ((lexed.kind plain).trans isKind)]
    rfl
  · obtain ⟨isWord, isDeterminer⟩ := isWord_form c entry.gender n
    exact given (canonicalPhrase_declined fits annotated) (.intro isWord isDeterminer nounIsWord)

end Signature

namespace Roles

variable {dictionary : Dictionary} {a : Annotations} {r : Roles}

/-- The signature of roles whose phrases are annotated. -/
def canonical (a : Annotations) (r : Roles) : Signature :=
  ⟨r.verb.text, r.object.map (Signature.canonicalText a), r.groups.map (.map (Signature.canonicalText a)),
    r.suffix.map Token.text⟩

theorem mapM_eq_ok {α β ε : Type} {f : α → Except ε β} {g : α → β} {xs : List α} (each : ∀ x ∈ xs, f x = .ok (g x)) :
    xs.mapM f = .ok (xs.map g) := by
  induction xs with
  | nil => rfl
  | cons x later ih =>
    rw [List.mapM_cons, each x (List.mem_cons_self ..), ih fun y inside => each y (List.mem_cons_of_mem _ inside)]
    rfl

theorem signature_eq (canonical : ∀ p ∈ r.phrases, Signature.canonicalPhrase a p = .ok (Signature.canonicalText a p)) :
    r.signature a = .ok (r.canonical a) := by
  have object : Signature.canonicalObject a r.object = .ok (r.object.map (Signature.canonicalText a)) := by
    have inObject (p : NounPhrase) (inside : p ∈ r.object.toList) := canonical p (List.mem_append_left _ inside)
    cases object : r.object with
    | absent => rfl
    | reflexive token => rfl
    | thing p =>
      rw [Signature.canonicalObject, inObject p (by rw [object]; exact List.mem_cons_self ..)]
      rfl
  have groups : r.groups.mapM (Signature.canonicalGroup a) = .ok (r.groups.map (.map (Signature.canonicalText a))) := by
    refine mapM_eq_ok fun g member => ?_
    have items := mapM_eq_ok fun p inside =>
      canonical p (List.mem_append_right _ (List.mem_flatMap.mpr ⟨g, member, inside⟩))
    rw [Signature.canonicalGroup, items]
    rfl
  rw [signature, Signature.ofRoles, object]
  show (r.groups.mapM (Signature.canonicalGroup a) >>= _) = _
  rw [groups]
  rfl

theorem canonicalPhrase_phrases (written : r.Written Token.Lexed) (noted : r.Noted dictionary a) :
    ∀ p ∈ r.phrases, Signature.canonicalPhrase a p = .ok (Signature.canonicalText a p) ∧
      Signature.IsPhrase (Signature.canonicalText a p) := by
  intro p member
  obtain inObject | inGroups := List.mem_append.mp member
  · exact Signature.canonicalPhrase_role (written.object p inObject) (noted.object p inObject)
  · obtain ⟨g, inside, inItems⟩ := List.mem_flatMap.mp inGroups
    obtain ⟨_, _, c, _, atItems⟩ := noted.groups g inside
    exact Signature.canonicalPhrase_role ((written.groups g inside).2.2 p inItems) (atItems p inItems)

theorem canonical_wellFormed (written : r.Written Token.Lexed) (noted : r.Noted dictionary a) :
    (r.canonical a).WellFormed := by
  have phrases := canonicalPhrase_phrases written noted
  obtain ⟨verbKind, verbLexed⟩ := written.verb
  refine ⟨?verb, ?object, ?groups, ?suffix⟩
  case verb => exact Signature.isWord_of_lexed verbLexed (by rw [verbKind]; rfl)
  case object =>
    intro phrase member
    rw [canonical, ObjectRole.toList_map] at member
    obtain ⟨p, inside, rfl⟩ := List.mem_map.mp member
    exact (phrases p (List.mem_append_left _ inside)).2
  case groups =>
    intro group member
    obtain ⟨g, inside, rfl⟩ := List.mem_map.mp member
    obtain ⟨⟨introduces, lexed⟩, nonempty, _⟩ := written.groups g inside
    obtain ⟨cases, known, _⟩ := noted.groups g inside
    refine ⟨Signature.isWord_of_lexed lexed (TokenKind.introducesGroup.isPlainWord introduces), ?_, ?_, ?_⟩
    · exact Option.isSome_iff_exists.mpr ⟨cases, known⟩
    · simpa [PrepositionGroup.map] using nonempty
    · intro item inItems
      obtain ⟨p, among, rfl⟩ := List.mem_map.mp inItems
      exact (phrases p (List.mem_append_right _ (List.mem_flatMap.mpr ⟨g, inside, among⟩))).2
  case suffix =>
    intro w present
    obtain ⟨token, there, rfl⟩ := Option.map_eq_some_iff.mp present
    obtain ⟨kind, lexed⟩ := written.suffix token there
    have plain : token.kind.isPlainWord = true := by
      rw [kind]
      rfl
    exact ⟨Signature.isWord_of_lexed lexed plain, Signature.plainWordKind_word ((lexed.kind plain).trans kind)⟩

/-- Roles that were read and checked have a signature. -/
theorem signature_eq_canonical (written : r.Written Token.Lexed) (noted : r.Noted dictionary a) :
    r.signature a = .ok (r.canonical a) :=
  signature_eq fun p member => (canonicalPhrase_phrases written noted p member).1

end Roles

end Satzbau

import Satzbau.Proofs.Signature.Words

namespace Satzbau

/-- Two objects of the same kind, with a relation that holds between them where they are things. -/
inductive ObjectRole.Related {α β : Type} (R : α → β → Prop) : ObjectRole α → ObjectRole β → Prop
  | absent : Related R .absent .absent
  | thing {x : α} {y : β} (related : R x y) : Related R (.thing x) (.thing y)
  | reflexive (token other : Token) : Related R (.reflexive token) (.reflexive other)

namespace Signature

/-- Two signatures of the same structure: the same verb, the same object, the same prepositions with
the same roles, and the same suffix. -/
structure Alike (s t : Signature) : Prop where
  verb : s.verb = t.verb
  object : s.object.Related Eq t.object
  groups : s.groups.map spelling = t.groups.map spelling
  suffix : s.suffix = t.suffix

/-- A verb with nothing but a reflexive object, and the same verb with nothing but the suffix that is
the word for such an object. -/
structure Confused (s t : Signature) : Prop where
  verb : s.verb = t.verb
  object : ∃ token, s.object = .reflexive token
  alone : s.groups = [] ∧ s.suffix = none
  noObject : t.object = .absent
  suffix : t.groups = [] ∧ t.suffix = some reflexive

theorem words_text {s : Signature} (formed : s.WellFormed) :
    words s.text = s.verb :: ((objectText s.object).flatMap words ++ s.tailWords) := by
  have ofSuffix : s.suffix.toList.flatMap words = s.suffix.toList := by
    cases suffix : s.suffix with
    | none => rfl
    | some w =>
      have noBlank := (formed.suffix w (by rw [suffix]; rfl)).1.noBlank
      simp [words_of_not_mem noBlank]
  rw [text, words_intercalate (by simp), List.cons_append, List.cons_append, List.flatMap_cons, List.flatMap_append,
    List.flatMap_append, List.flatMap_map, ofSuffix, words_of_not_mem formed.verb.noBlank, List.append_assoc]
  rfl

theorem words_absent : (objectText .absent).flatMap words = [] := rfl

theorem words_reflexive (token : Token) : (objectText (.reflexive token)).flatMap words = [reflexive] := by
  have noBlank : ' ' ∉ reflexive.toList := by decide
  rw [objectText, List.flatMap_singleton, words_of_not_mem noBlank]

theorem words_thing {phrase : String} (isPhrase : IsPhrase phrase) :
    ∃ determiner noun, (Determiner.ofWord? determiner).isSome ∧ phrase = determiner ++ " " ++ noun ∧
      (objectText (.thing phrase)).flatMap words = [determiner, noun] := by
  obtain ⟨isWord, isDeterminer, nounIsWord⟩ := isPhrase
  refine ⟨_, _, isDeterminer, rfl, ?_⟩
  rw [objectText, List.flatMap_singleton, words_phrase isWord nounIsWord]

theorem reflexive_not_determiner : ¬(Determiner.ofWord? reflexive).isSome := by
  decide +kernel

theorem preposition_not_determiner {word : String} (known : (Preposition.cases? word).isSome) :
    Determiner.ofWord? word = none ∧ word ≠ reflexive := by
  have all : ∀ w ∈ Preposition.accusative ++ (Preposition.dative ++ (Preposition.twoWay ++ Preposition.genitive)),
      Determiner.ofWord? w = none ∧ w ≠ reflexive := by
    decide +kernel
  refine all word (Decidable.byContradiction fun outside => ?_)
  simp only [List.mem_append, not_or] at outside
  obtain ⟨notAccusative, notDative, notTwoWay, notGenitive⟩ := outside
  unfold Preposition.cases? at known
  rw [if_neg (mt List.contains_iff_mem.mp notAccusative), if_neg (mt List.contains_iff_mem.mp notDative),
    if_neg (mt List.contains_iff_mem.mp notTwoWay), if_neg (mt List.contains_iff_mem.mp notGenitive)] at known
  contradiction

/-- What stands behind the object begins, if it is not a suffix, with a preposition. -/
theorem tailWords_cases {s : Signature} (formed : s.WellFormed) :
    (s.groups = [] ∧ s.tailWords = s.suffix.toList) ∨
      ∃ preposition rest, Determiner.ofWord? preposition = none ∧ preposition ≠ reflexive ∧
        s.tailWords = preposition :: rest := by
  cases groups : s.groups with
  | nil => exact Or.inl ⟨rfl, by rw [tailWords, groups]; rfl⟩
  | cons g later =>
    have atFirst := formed.groups g (by rw [groups]; exact List.mem_cons_self ..)
    obtain ⟨noDeterminer, notReflexive⟩ := preposition_not_determiner atFirst.known
    have tail : ∃ rest, s.tailWords = g.preposition.text :: rest := by
      rw [tailWords, groups, List.flatMap_cons, words_group atFirst]
      exact ⟨_, rfl⟩
    obtain ⟨rest, tail⟩ := tail
    exact Or.inr ⟨g.preposition.text, rest, noDeterminer, notReflexive, tail⟩

/-- The words behind a verb never begin with a determiner unless the object is a thing. -/
theorem tailWords_ne_determiner {s : Signature} (formed : s.WellFormed) {determiner : String} {rest : List String}
    (isDeterminer : (Determiner.ofWord? determiner).isSome) : s.tailWords ≠ determiner :: rest := by
  intro same
  obtain ⟨_, suffix⟩ | ⟨preposition, others, noDeterminer, _, tail⟩ := tailWords_cases formed
  · rw [suffix] at same
    cases known : s.suffix with
    | none =>
      rw [known] at same
      contradiction
    | some w =>
      rw [known] at same
      have noDeterminer := (formed.suffix w known).2
      rw [(List.cons.inj same).1, Option.eq_none_iff_forall_ne_some] at noDeterminer
      obtain ⟨kind, found⟩ := Option.isSome_iff_exists.mp isDeterminer
      exact noDeterminer kind found
  · rw [tail] at same
    rw [(List.cons.inj same).1] at noDeterminer
    rw [noDeterminer] at isDeterminer
    contradiction

theorem tailWords_unique {s t : Signature} (formed : s.WellFormed) (formed' : t.WellFormed)
    (same : s.tailWords = t.tailWords) : s.groups.map spelling = t.groups.map spelling ∧ s.suffix = t.suffix :=
  groups_unique formed.groups formed'.groups same

/-- If one signature goes on behind its verb as another one does behind its reflexive object, then the
first has nothing but a suffix. -/
theorem confused_of_tailWords {s t : Signature} (formed : s.WellFormed) (formed' : t.WellFormed)
    (verb : s.verb = t.verb) {token : Token} (object : s.object = .reflexive token) (noObject : t.object = .absent)
    (same : reflexive :: s.tailWords = t.tailWords) : s.Confused t := by
  obtain ⟨noGroups, suffix⟩ | ⟨preposition, rest, _, notReflexive, tail⟩ := tailWords_cases formed'
  · rw [suffix] at same
    cases known : t.suffix with
    | none =>
      rw [known] at same
      contradiction
    | some w =>
      rw [known] at same
      obtain ⟨rfl, nothing⟩ := List.cons.inj same
      obtain ⟨alone, _⟩ | ⟨preposition, rest, _, _, tail⟩ := tailWords_cases formed
      · refine ⟨verb, ⟨token, object⟩, ⟨alone, ?_⟩, noObject, noGroups, known⟩
        rw [tailWords, alone] at nothing
        cases suffix : s.suffix with
        | none => rfl
        | some w =>
          rw [suffix] at nothing
          contradiction
      · rw [tail] at nothing
        contradiction
  · rw [tail] at same
    exact absurd (List.cons.inj same).1.symm notReflexive

theorem text_of_alike {s t : Signature} (alike : s.Alike t) : s.text = t.text := by
  have objects : objectText s.object = objectText t.object := by
    have object := alike.object
    revert object
    generalize s.object = o
    generalize t.object = o'
    rintro (_ | ⟨rfl⟩ | _)
    · rfl
    · rfl
    · rfl
  have groups : s.groups.map groupText = t.groups.map groupText := by
    have spelled (groups : List (PrepositionGroup String)) : groups.map groupText =
        (groups.map spelling).map fun entry => entry.1 ++ " " ++ ", ".intercalate entry.2 := by
      rw [List.map_map]
      rfl
    rw [spelled, spelled, alike.groups]
  rw [text, text, alike.verb, objects, groups, alike.suffix]

theorem text_of_confused {s t : Signature} (confused : s.Confused t) : s.text = t.text := by
  obtain ⟨verb, ⟨token, object⟩, ⟨noGroups, noSuffix⟩, noObject, noGroups', suffix⟩ := confused
  rw [text, text, verb, object, noGroups, noSuffix, noObject, noGroups', suffix]
  rfl

/-- The text of a signature tells all of its structure but one thing: whether the word for a reflexive
object is that object or a suffix. -/
theorem text_eq_text_iff {s t : Signature} (formed : s.WellFormed) (formed' : t.WellFormed) :
    s.text = t.text ↔ s.Alike t ∨ s.Confused t ∨ t.Confused s := by
  constructor
  · intro same
    have sameWords := congrArg words same
    rw [words_text formed, words_text formed'] at sameWords
    obtain ⟨verb, rest⟩ := List.cons.inj sameWords
    cases object : s.object with
    | absent =>
      rw [object, words_absent] at rest
      cases object' : t.object with
      | absent =>
        rw [object', words_absent] at rest
        obtain ⟨groups, suffix⟩ := tailWords_unique formed formed' rest
        exact Or.inl ⟨verb, by rw [object, object']; exact .absent, groups, suffix⟩
      | thing phrase =>
        obtain ⟨determiner, noun, isDeterminer, _, atThing⟩ := words_thing (formed'.object phrase (by simp [object', ObjectRole.toList]))
        rw [object', atThing] at rest
        exact absurd rest (tailWords_ne_determiner formed isDeterminer)
      | reflexive token =>
        rw [object', words_reflexive] at rest
        exact Or.inr (Or.inr (confused_of_tailWords formed' formed verb.symm object' object rest.symm))
    | thing phrase =>
      obtain ⟨determiner, noun, isDeterminer, spelled, atThing⟩ := words_thing (formed.object phrase (by simp [object, ObjectRole.toList]))
      rw [object, atThing] at rest
      cases object' : t.object with
      | absent =>
        rw [object', words_absent] at rest
        exact absurd rest.symm (tailWords_ne_determiner formed' isDeterminer)
      | thing phrase' =>
        obtain ⟨determiner', noun', _, spelled', atThing'⟩ := words_thing (formed'.object phrase' (by simp [object', ObjectRole.toList]))
        rw [object', atThing'] at rest
        simp only [List.cons_append, List.nil_append, List.cons.injEq] at rest
        obtain ⟨rfl, rfl, tails⟩ := rest
        obtain ⟨groups, suffix⟩ := tailWords_unique formed formed' tails
        exact Or.inl ⟨verb, by rw [object, object', spelled, spelled']; exact .thing rfl, groups, suffix⟩
      | reflexive token =>
        rw [object', words_reflexive] at rest
        rw [(List.cons.inj rest).1] at isDeterminer
        exact absurd isDeterminer reflexive_not_determiner
    | reflexive token =>
      rw [object, words_reflexive] at rest
      cases object' : t.object with
      | absent =>
        rw [object', words_absent] at rest
        exact Or.inr (Or.inl (confused_of_tailWords formed formed' verb object object' rest))
      | thing phrase =>
        obtain ⟨determiner, noun, isDeterminer, _, atThing⟩ := words_thing (formed'.object phrase (by simp [object', ObjectRole.toList]))
        rw [object', atThing] at rest
        rw [← (List.cons.inj rest).1] at isDeterminer
        exact absurd isDeterminer reflexive_not_determiner
      | reflexive token' =>
        rw [object', words_reflexive] at rest
        obtain ⟨groups, suffix⟩ := tailWords_unique formed formed' (List.cons.inj rest).2
        exact Or.inl ⟨verb, by rw [object, object']; exact .reflexive token token', groups, suffix⟩
  · rintro (alike | confused | confused)
    · exact text_of_alike alike
    · exact text_of_confused confused
    · exact (text_of_confused confused).symm

end Signature

end Satzbau

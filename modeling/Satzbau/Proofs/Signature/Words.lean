import Satzbau.Preposition
import Satzbau.Signature

namespace Satzbau.Signature

/-- What stands between the blanks of a text. -/
def words (text : String) : List String :=
  (text.toList.splitOn ' ').map String.ofList

theorem words_append (x y : String) : words (x ++ " " ++ y) = words x ++ words y := by
  have blank : " ".toList = [' '] := rfl
  rw [words, String.toList_append, String.toList_append, blank, List.append_assoc, List.singleton_append,
    List.splitOn_append_cons_self, List.map_append]
  rfl

theorem words_of_not_mem {x : String} (noBlank : ' ' ∉ x.toList) : words x = [x] := by
  rw [words, List.splitOn_eq_singleton noBlank]
  simp

theorem words_intercalate {parts : List String} (nonempty : parts ≠ []) :
    words (" ".intercalate parts) = parts.flatMap words := by
  induction parts with
  | nil => contradiction
  | cons part later ih =>
    cases later with
    | nil => simp
    | cons next others =>
      rw [String.intercalate_cons_cons, words_append, ih (by simp)]
      rfl

/-- A word of a signature: neither the blank that separates words nor the comma that separates roles
occurs in it. -/
structure IsWord (x : String) : Prop where
  noBlank : ' ' ∉ x.toList
  noComma : ',' ∉ x.toList

/-- A role of a signature: a determiner and a noun. -/
inductive IsPhrase : String → Prop
  | intro {determiner noun : String} (isWord : IsWord determiner) (isDeterminer : (Determiner.ofWord? determiner).isSome)
    (nounIsWord : IsWord noun) : IsPhrase (determiner ++ " " ++ noun)

theorem words_phrase {determiner noun : String} (isWord : IsWord determiner) (nounIsWord : IsWord noun) :
    words (determiner ++ " " ++ noun) = [determiner, noun] := by
  rw [words_append, words_of_not_mem isWord.noBlank, words_of_not_mem nounIsWord.noBlank]
  rfl

theorem words_item {determiner noun : String} (isWord : IsWord determiner) (nounIsWord : IsWord noun)
    (next : String) (others : List String) :
    words (", ".intercalate ((determiner ++ " " ++ noun) :: next :: others)) =
      determiner :: (noun ++ ",") :: words (", ".intercalate (next :: others)) := by
  have separator : determiner ++ " " ++ noun ++ ", " = determiner ++ " " ++ (noun ++ ",") ++ " " := by
    simp [String.append_assoc]
  have noBlank : ' ' ∉ (noun ++ ",").toList := by
    simp [nounIsWord.noBlank]
  rw [String.intercalate_cons_cons, separator, words_append, words_append, words_of_not_mem isWord.noBlank,
    words_of_not_mem noBlank]
  rfl

theorem noun_ne_with_comma {noun other : String} (isWord : IsWord noun) : noun ≠ other ++ "," := by
  rintro rfl
  exact isWord.noComma (by simp)

/-- The roles behind a preposition are told by their words: the comma says whether another one
follows. -/
theorem items_unique {items items' : List String} {rest rest' : List String}
    (phrases : ∀ i ∈ items, IsPhrase i) (phrases' : ∀ i ∈ items', IsPhrase i) (nonempty : items ≠ [])
    (nonempty' : items' ≠ [])
    (same : words (", ".intercalate items) ++ rest = words (", ".intercalate items') ++ rest') :
    items = items' ∧ rest = rest' := by
  induction items generalizing items' with
  | nil => contradiction
  | cons item later ih =>
    cases items' with
    | nil => contradiction
    | cons item' later' =>
      obtain ⟨isWord, _, nounIsWord⟩ := phrases item (List.mem_cons_self ..)
      obtain ⟨isWord', _, nounIsWord'⟩ := phrases' item' (List.mem_cons_self ..)
      cases later with
      | nil =>
        rw [String.intercalate_singleton, words_phrase isWord nounIsWord] at same
        cases later' with
        | nil =>
          rw [String.intercalate_singleton, words_phrase isWord' nounIsWord'] at same
          simp only [List.cons_append, List.nil_append, List.cons.injEq] at same
          obtain ⟨rfl, rfl, rfl⟩ := same
          exact ⟨rfl, rfl⟩
        | cons next' others' =>
          rw [words_item isWord' nounIsWord'] at same
          simp only [List.cons_append, List.nil_append, List.cons.injEq] at same
          exact absurd same.2.1 (noun_ne_with_comma nounIsWord)
      | cons next others =>
        rw [words_item isWord nounIsWord] at same
        cases later' with
        | nil =>
          rw [String.intercalate_singleton, words_phrase isWord' nounIsWord'] at same
          simp only [List.cons_append, List.nil_append, List.cons.injEq] at same
          exact absurd same.2.1.symm (noun_ne_with_comma nounIsWord')
        | cons next' others' =>
          rw [words_item isWord' nounIsWord'] at same
          simp only [List.cons_append, List.cons.injEq] at same
          obtain ⟨rfl, sameNoun, sameLater⟩ := same
          have tails := ih (fun i inside => phrases i (List.mem_cons_of_mem _ inside))
            (fun i inside => phrases' i (List.mem_cons_of_mem _ inside)) (by simp) (by simp) sameLater
          obtain ⟨equal, rfl⟩ := tails
          rw [(String.append_left_inj ",").mp sameNoun, equal]
          exact ⟨rfl, rfl⟩

/-- The words of roles begin with a determiner and its noun. -/
theorem words_items_eq {items : List String} (phrases : ∀ i ∈ items, IsPhrase i) (nonempty : items ≠ []) :
    ∃ determiner noun rest, (Determiner.ofWord? determiner).isSome ∧
      words (", ".intercalate items) = determiner :: noun :: rest := by
  cases items with
  | nil => contradiction
  | cons item later =>
    obtain ⟨isWord, isDeterminer, nounIsWord⟩ := phrases item (List.mem_cons_self ..)
    cases later with
    | nil =>
      rw [String.intercalate_singleton, words_phrase isWord nounIsWord]
      exact ⟨_, _, _, isDeterminer, rfl⟩
    | cons next others =>
      rw [words_item isWord nounIsWord]
      exact ⟨_, _, _, isDeterminer, rfl⟩

/-- A group whose preposition is known and whose roles are phrases. -/
structure GroupFormed (g : PrepositionGroup String) : Prop where
  isWord : IsWord g.preposition.text
  known : (Preposition.cases? g.preposition.text).isSome
  nonempty : g.items ≠ []
  phrases : ∀ i ∈ g.items, IsPhrase i

/-- A signature whose parts are words and phrases. -/
structure WellFormed (s : Signature) : Prop where
  verb : IsWord s.verb
  object : ∀ phrase ∈ s.object.toList, IsPhrase phrase
  groups : ∀ g ∈ s.groups, GroupFormed g
  suffix : ∀ w ∈ s.suffix, IsWord w ∧ Determiner.ofWord? w = none

theorem words_group {g : PrepositionGroup String} (formed : GroupFormed g) :
    words (groupText g) = g.preposition.text :: words (", ".intercalate g.items) := by
  rw [groupText, words_append, words_of_not_mem formed.isWord.noBlank]
  rfl

/-- The words behind the object of a signature. -/
def tailWords (s : Signature) : List String :=
  s.groups.flatMap (fun g => words (groupText g)) ++ s.suffix.toList

/-- A group as it is spelled, whatever its token is otherwise. -/
def spelling (g : PrepositionGroup String) : String × List String :=
  (g.preposition.text, g.items)

theorem groups_unique {groups groups' : List (PrepositionGroup String)} {suffix suffix' : Option String}
    (formed : ∀ g ∈ groups, GroupFormed g) (formed' : ∀ g ∈ groups', GroupFormed g)
    (same : groups.flatMap (fun g => words (groupText g)) ++ suffix.toList =
      groups'.flatMap (fun g => words (groupText g)) ++ suffix'.toList) :
    groups.map spelling = groups'.map spelling ∧ suffix = suffix' := by
  -- a suffix is one word, and a preposition is never the last one
  have noGroup {g : PrepositionGroup String} (formed : GroupFormed g) (later : List String) (suffix : Option String) :
      suffix.toList ≠ words (groupText g) ++ later := by
    obtain ⟨determiner, noun, rest, _, atItems⟩ := words_items_eq formed.phrases formed.nonempty
    rw [words_group formed, atItems]
    cases suffix <;> simp
  induction groups generalizing groups' with
  | nil =>
    cases groups' with
    | nil =>
      cases suffix with
      | none =>
        cases suffix' with
        | none => exact ⟨rfl, rfl⟩
        | some w' => contradiction
      | some w =>
        cases suffix' with
        | none => contradiction
        | some w' =>
          rw [(List.cons.inj same).1]
          exact ⟨rfl, rfl⟩
    | cons g' later' =>
      rw [List.flatMap_cons, List.append_assoc] at same
      exact absurd same (noGroup (formed' g' (List.mem_cons_self ..)) _ suffix)
  | cons g later ih =>
    have atFirst := formed g (List.mem_cons_self ..)
    rw [List.flatMap_cons, List.append_assoc] at same
    cases groups' with
    | nil => exact absurd same.symm (noGroup atFirst _ suffix')
    | cons g' later' =>
      have atFirst' := formed' g' (List.mem_cons_self ..)
      rw [List.flatMap_cons, List.append_assoc, words_group atFirst, words_group atFirst', List.cons_append,
        List.cons_append, List.cons.injEq] at same
      obtain ⟨samePreposition, sameRest⟩ := same
      obtain ⟨sameItems, sameLater⟩ := items_unique atFirst.phrases atFirst'.phrases atFirst.nonempty
        atFirst'.nonempty sameRest
      obtain ⟨sameGroups, sameSuffix⟩ := ih (fun h inside => formed h (List.mem_cons_of_mem _ inside))
        (fun h inside => formed' h (List.mem_cons_of_mem _ inside)) sameLater
      refine ⟨?_, sameSuffix⟩
      rw [List.map_cons, List.map_cons, sameGroups, spelling, spelling, samePreposition, sameItems]

end Satzbau.Signature

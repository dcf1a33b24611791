import Mathlib.Data.List.Nodup
import Mathlib.Data.List.Perm.Basic
import Satzbau.Proofs.Partition.Locality
import Satzbau.Proofs.Respelling.Lines

namespace Satzbau

/-- A text that can take the place of the content of any line. -/
structure IsReplacement (content : List Char) : Prop where
  something : content ≠ []
  noSign : ∀ c ∈ content, isLineSign c = false

/-- The three parts of a line: the blanks with which it begins, what stands behind them, and the signs that end it. -/
structure IsDivided (indentation body ending : List Char) : Prop where
  blank : ∀ c ∈ indentation, isBlank c = true
  begins : ∀ c ∈ body.head?, isBlank c = false
  signs : ∀ c ∈ ending, isLineSign c = true
  ends : ∀ c ∈ (indentation ++ body).getLast?, isLineSign c = false

/-- A text of which only one line is another one, and of that line only what stands between the blanks before it and
its end. -/
structure IsReplaced (text : List Char) (number : Nat) (content changed : List Char) : Prop where
  count : (textLines changed).length = (textLines text).length
  others : ∀ index, index + 1 ≠ number → (linesWithEnds changed)[index]? = (linesWithEnds text)[index]?
  line : ∃ indentation body ending, IsDivided indentation body ending ∧
    (linesWithEnds text)[number - 1]? = some (indentation ++ body ++ ending) ∧
    (linesWithEnds changed)[number - 1]? = some (indentation ++ content ++ ending)

/-- Replaces the contents of lines, one after the other. -/
def replaceLines (text : List Char) (edits : List (Nat × List Char)) : Option (List Char) :=
  edits.foldl (fun text edit => text.bind (replaceLine · edit.1 edit.2)) (some text)

theorem length_textLines (text : List Char) : (textLines text).length = (linesWithEnds text).length :=
  List.length_map ..

theorem exists_isDivided (line : List Char) : ∃ indentation body ending, IsDivided indentation body ending ∧
    line = indentation ++ body ++ ending ∧ ∀ content, replaceContent content line = indentation ++ content ++ ending := by
  have inside : (lineContent line).takeWhile isBlank ++ (lineContent line).dropWhile isBlank = lineContent line :=
    List.takeWhile_append_dropWhile
  refine ⟨(lineContent line).takeWhile isBlank, (lineContent line).dropWhile isBlank, lineEnding line, ?_, ?_, fun _ => rfl⟩
  · refine ⟨fun c => List.mem_takeWhile_imp, Lexer.head?_dropWhile_stop isBlank _, isLineSign_of_mem_lineEnding, ?_⟩
    rw [inside, lineContent, List.getLast?_reverse]
    exact Lexer.head?_dropWhile_stop isLineSign _
  · rw [inside, lineContent_append_lineEnding]

theorem replaceLine_eq_none_iff {text content : List Char} {number : Nat} :
    replaceLine text number content = none ↔ number = 0 ∨ (linesWithEnds text).length < number := by
  unfold replaceLine
  dsimp only
  split
  · rename_i outside
    exact iff_of_true rfl outside
  · rename_i inside
    exact iff_of_false (Option.some_ne_none _) inside

section Replaced

variable {text content changed : List Char} {number : Nat}

theorem AreLines.modify {lines : List (List Char)} (areLines : AreLines lines) {change : List Char → List Char}
    (keeps : KeepsLines change) (index : Nat) : AreLines (lines.modify index change) := by
  -- To change one line is to change all lines, the others into themselves.
  have same : lines.modify index change = lines.mapIdx fun i => if index = i then change else id := by
    refine List.ext_getElem? fun i => ?_
    rw [List.getElem?_modify, List.getElem?_mapIdx]
    split <;> rfl
  rw [same]
  refine areLines.mapIdx fun i => ?_
  split
  · exact keeps
  · exact keepsLines_id

theorem IsReplacement.keepsLines (isReplacement : IsReplacement content) : KeepsLines (replaceContent content) := by
  have oneLine : '\n' ∉ content := by
    intro member
    have noSign := isReplacement.noSign '\n' member
    contradiction
  exact keepsLines_replaceContent isReplacement.something oneLine

/-- The lines of a text of which one was replaced are its lines with that one replaced. -/
theorem IsReplacement.linesWithEnds_replaceLine (isReplacement : IsReplacement content)
    (replaced : replaceLine text number content = some changed) :
    linesWithEnds changed = (linesWithEnds text).modify (number - 1) (replaceContent content) := by
  unfold replaceLine at replaced
  dsimp only at replaced
  split at replaced
  · contradiction
  · cases replaced
    exact ((areLines_linesWithEnds text).modify isReplacement.keepsLines _).linesWithEnds_flatten

theorem isLine_of_replaced (replaced : replaceLine text number content = some changed) :
    ¬(number = 0 ∨ (linesWithEnds text).length < number) := by
  intro outside
  rw [replaceLine_eq_none_iff.mpr outside] at replaced
  contradiction

theorem IsReplacement.isReplaced (isReplacement : IsReplacement content)
    (replaced : replaceLine text number content = some changed) : IsReplaced text number content changed := by
  have lines := isReplacement.linesWithEnds_replaceLine replaced
  have inside := isLine_of_replaced replaced
  have isLine : number - 1 < (linesWithEnds text).length := by omega
  constructor
  · rw [length_textLines, length_textLines, lines, List.length_modify]
  · intro index other
    have apart : number - 1 ≠ index := by omega
    rw [lines, List.getElem?_modify_ne _ _ apart]
  · obtain ⟨indentation, body, ending, divided, whole, replaces⟩ := exists_isDivided (linesWithEnds text)[number - 1]
    have found : (linesWithEnds text)[number - 1]? = some (indentation ++ body ++ ending) := by
      rw [List.getElem?_eq_getElem isLine, ← whole]
    refine ⟨indentation, body, ending, divided, found, ?_⟩
    rw [lines, List.getElem?_modify_eq, found, ← whole]
    exact congrArg some (replaces content)

/-- One more line is replaced. -/
theorem IsReplacement.replaceLine_replaced (isReplacement : IsReplacement content)
    (replaced : replaceLine text number content = some changed) (other : Nat) (next : List Char) :
    replaceLine changed other next =
      if other = 0 ∨ (linesWithEnds text).length < other then none
      else
        some (((linesWithEnds text).modify (number - 1) (replaceContent content)).modify (other - 1)
          (replaceContent next)).flatten := by
  unfold replaceLine
  dsimp only
  rw [isReplacement.linesWithEnds_replaceLine replaced, List.length_modify]

end Replaced

/-- It does not matter which of two lines is replaced first. -/
theorem replaceLine_comm {k l : Nat} (different : k ≠ l) {r s : List Char} (first : IsReplacement r) (second : IsReplacement s)
    (text : List Char) :
    (replaceLine text k r).bind (replaceLine · l s) = (replaceLine text l s).bind (replaceLine · k r) := by
  cases doneK : replaceLine text k r with
  | none =>
    have outside := replaceLine_eq_none_iff.mp doneK
    cases doneL : replaceLine text l s with
    | none => rfl
    | some b => rw [Option.bind_none, Option.bind_some, second.replaceLine_replaced doneL, if_pos outside]
  | some a =>
    have insideK := isLine_of_replaced doneK
    cases doneL : replaceLine text l s with
    | none =>
      have outside := replaceLine_eq_none_iff.mp doneL
      rw [Option.bind_none, Option.bind_some, first.replaceLine_replaced doneK, if_pos outside]
    | some b =>
      have insideL := isLine_of_replaced doneL
      have apart : k - 1 ≠ l - 1 := by omega
      rw [Option.bind_some, Option.bind_some, first.replaceLine_replaced doneK, second.replaceLine_replaced doneL,
        if_neg insideL, if_neg insideK, List.modify_modify_ne _ _ _ apart]

/-- Lines can be replaced in any order, if no line is replaced twice. -/
theorem replaceLines_perm {edits edits' : List (Nat × List Char)} (perm : edits.Perm edits')
    (distinct : (edits.map Prod.fst).Nodup) (replacements : ∀ edit ∈ edits, IsReplacement edit.2) (text : List Char) :
    replaceLines text edits = replaceLines text edits' := by
  refine perm.foldl_eq' (fun x inX y inY reached => ?_) (some text)
  by_cases same : x.1 = y.1
  · rw [List.inj_on_of_nodup_map distinct inX inY same]
  · cases reached with
    | none => rfl
    | some reached => exact replaceLine_comm same (replacements x inX) (replacements y inY) reached

/-- Replacing a line touches that line only. There is no such line if its number is none of those that the lines of the text
have where it is read. Otherwise the text keeps its lines, and of the one line only the content changes. Lines can be replaced
in any order. -/
theorem replaceLine_touches_one (text : List Char) :
    (∀ number content, IsReplacement content →
      (replaceLine text number content = none ↔ number = 0 ∨ (textLines text).length < number) ∧
        ∀ changed, replaceLine text number content = some changed → IsReplaced text number content changed) ∧
    (∀ k l r s, k ≠ l → IsReplacement r → IsReplacement s →
      (replaceLine text k r).bind (replaceLine · l s) = (replaceLine text l s).bind (replaceLine · k r)) ∧
    ∀ edits edits' : List (Nat × List Char), edits.Perm edits' → (edits.map Prod.fst).Nodup →
      (∀ edit ∈ edits, IsReplacement edit.2) → replaceLines text edits = replaceLines text edits' := by
  refine ⟨fun number content isReplacement => ⟨?_, fun changed replaced => isReplacement.isReplaced replaced⟩, ?_, ?_⟩
  · rw [length_textLines]
    exact replaceLine_eq_none_iff
  · intro k l r s different first second
    exact replaceLine_comm different first second text
  · intro edits edits' perm distinct replacements
    exact replaceLines_perm perm distinct replacements text

/-- Three lines with different ends, the second of which begins with a carriage return. -/
def strayReturns : List Char :=
  "a\n\r  b \r\nc\r".toList

theorem strayReturns_replaced :
    IsReplacement ['X'] ∧ IsReplacement ['Y'] ∧
      replaceLine strayReturns 2 ['X'] = some "a\n\r  X\r\nc\r".toList ∧
      IsReplaced strayReturns 2 ['X'] "a\n\r  X\r\nc\r".toList ∧
      replaceLine strayReturns 4 ['X'] = none ∧
      replaceLines strayReturns [(2, ['X']), (3, ['Y'])] = some "a\n\r  X\r\nY\r".toList ∧
      replaceLines strayReturns [(3, ['Y']), (2, ['X'])] = some "a\n\r  X\r\nY\r".toList := by
  have first : IsReplacement ['X'] := ⟨List.cons_ne_nil _ _, List.forall_mem_singleton.mpr rfl⟩
  have second : IsReplacement ['Y'] := ⟨List.cons_ne_nil _ _, List.forall_mem_singleton.mpr rfl⟩
  obtain ⟨one, _, order⟩ := replaceLine_touches_one strayReturns
  obtain ⟨_, keeps⟩ := one 2 ['X'] first
  have replaced : replaceLine strayReturns 2 ['X'] = some "a\n\r  X\r\nc\r".toList := by decide +kernel
  have both : replaceLines strayReturns [(2, ['X']), (3, ['Y'])] = some "a\n\r  X\r\nY\r".toList := by decide +kernel
  have turned := order [(2, ['X']), (3, ['Y'])] [(3, ['Y']), (2, ['X'])] (.swap _ _ _) (by decide)
    (List.forall_mem_cons.mpr ⟨first, List.forall_mem_singleton.mpr second⟩)
  refine ⟨first, second, replaced, keeps _ replaced, ?_, both, turned ▸ both⟩
  exact (one 4 ['X'] first).1.mpr (Or.inr (by decide +kernel))

end Satzbau

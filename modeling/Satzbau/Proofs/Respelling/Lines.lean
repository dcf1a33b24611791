import Satzbau.Proofs.Repeating.Lines
import Satzbau.Proofs.Respelling.Spelling
import Satzbau.Rewriting

namespace Satzbau

/-- The lines of some text: each one but the last ends with its only line feed. -/
inductive AreLines : List (List Char) → Prop
  | nil : AreLines []
  | last {line : List Char} (nonempty : line ≠ []) (noEnd : '\n' ∉ line) : AreLines [line]
  | cons {body : List Char} {later : List (List Char)} (noEnd : '\n' ∉ body) (behind : AreLines later) :
    AreLines ((body ++ ['\n']) :: later)

theorem areLines_linesWithEnds (text : List Char) : AreLines (linesWithEnds text) := by
  induction text with
  | nil => exact .nil
  | cons c rest ih =>
    unfold linesWithEnds
    split
    · rename_i isEnd
      subst isEnd
      exact @AreLines.cons [] _ List.not_mem_nil ih
    · rename_i notEnd
      have apart {body : List Char} (noEnd : '\n' ∉ body) : '\n' ∉ c :: body := by
        rw [List.mem_cons, not_or]
        exact ⟨fun same => notEnd same.symm, noEnd⟩
      split
      · exact .last (List.cons_ne_nil _ _) (apart List.not_mem_nil)
      · rename_i line lines cut
        rw [cut] at ih
        cases ih with
        | last _ noEnd => exact .last (List.cons_ne_nil _ _) (apart noEnd)
        | @cons body _ noEnd behind => exact @AreLines.cons (c :: body) _ (apart noEnd) behind

theorem AreLines.linesWithEnds_flatten {lines : List (List Char)} (areLines : AreLines lines) :
    linesWithEnds lines.flatten = lines := by
  induction areLines with
  | nil => rfl
  | @last line nonempty noEnd =>
    rw [List.flatten_cons, List.flatten_nil, List.append_nil]
    exact (linesWithEnds_of_not_mem noEnd).2 nonempty
  | @cons body later noEnd _ ih =>
    have whole : WholeLines (body ++ ['\n']) := Or.inr ⟨body, rfl⟩
    rw [List.flatten_cons, whole.linesWithEnds_append, (linesWithEnds_of_not_mem noEnd).1, ih]
    rfl

/-- A change of lines after which they are as many lines as before. -/
structure KeepsLines (change : List Char → List Char) : Prop where
  ended : ∀ body, '\n' ∉ body → ∃ body', change (body ++ ['\n']) = body' ++ ['\n'] ∧ '\n' ∉ body'
  open' : ∀ line, line ≠ [] → '\n' ∉ line → change line ≠ [] ∧ '\n' ∉ change line

theorem AreLines.mapIdx {lines : List (List Char)} (areLines : AreLines lines) {change : Nat → List Char → List Char}
    (keeps : ∀ index, KeepsLines (change index)) : AreLines (lines.mapIdx change) := by
  induction areLines generalizing change with
  | nil => exact .nil
  | last nonempty noEnd =>
    obtain ⟨nonempty', noEnd'⟩ := (keeps 0).open' _ nonempty noEnd
    exact .last nonempty' noEnd'
  | @cons body later noEnd _ ih =>
    obtain ⟨body', same, noEnd'⟩ := (keeps 0).ended body noEnd
    rw [List.mapIdx_cons, same]
    exact .cons noEnd' (ih fun index => keeps (index + 1))

theorem keepsLines_id : KeepsLines id :=
  ⟨fun body noEnd => ⟨body, rfl, noEnd⟩, fun _ nonempty noEnd => ⟨nonempty, noEnd⟩⟩

theorem lineContent_append_lineEnding (line : List Char) : lineContent line ++ lineEnding line = line := by
  rw [lineContent, lineEnding, ← List.reverse_append, List.takeWhile_append_dropWhile, List.reverse_reverse]

theorem isLineSign_of_mem_lineEnding {line : List Char} : ∀ c ∈ lineEnding line, isLineSign c = true := by
  intro c member
  exact List.mem_takeWhile_imp (List.mem_reverse.mp member)

/-- What can stand in the place of a line's own content: it begins behind the blanks and ends before the signs
that end the line. -/
structure IsContent (content : List Char) : Prop where
  first : ∃ c rest, content = c :: rest ∧ isBlank c = false
  last : ∃ before c, content = before ++ [c] ∧ isLineSign c = false
  noEnd : '\n' ∉ content

variable {content : List Char}

theorem IsContent.nonempty (isContent : IsContent content) : content ≠ [] := by
  obtain ⟨c, rest, spelled, _⟩ := isContent.first
  rw [spelled]
  exact List.cons_ne_nil c rest

theorem lineEnding_append {ending : List Char} (isContent : IsContent content) (before : List Char)
    (signs : ∀ c ∈ ending, isLineSign c = true) :
    lineContent (before ++ content ++ ending) = before ++ content ∧ lineEnding (before ++ content ++ ending) = ending := by
  obtain ⟨others, c, rfl, other⟩ := isContent.last
  have reversed : (before ++ (others ++ [c]) ++ ending).reverse = ending.reverse ++ c :: (before ++ others).reverse := by
    simp
  have all : ∀ d ∈ ending.reverse, isLineSign d = true := fun d member => signs d (List.mem_reverse.mp member)
  have stops : ¬isLineSign c = true := by rw [other]; exact Bool.false_ne_true
  constructor
  · rw [lineContent, reversed, List.dropWhile_append_of_pos all, List.dropWhile_cons_of_neg stops]
    simp
  · rw [lineEnding, reversed, List.takeWhile_append_of_pos all, List.takeWhile_cons_of_neg stops]
    simp

/-- Only the last change of a line counts. -/
theorem replaceContent_replaceContent {other : List Char} (isOther : IsContent other) (line : List Char) :
    replaceContent content (replaceContent other line) = replaceContent content line := by
  obtain ⟨inside, ending⟩ := lineEnding_append isOther ((lineContent line).takeWhile isBlank)
    (@isLineSign_of_mem_lineEnding line)
  obtain ⟨c, rest, spelled, notBlank⟩ := isOther.first
  have stops : ¬isBlank c = true := by rw [notBlank]; exact Bool.false_ne_true
  have indentation : ((lineContent line).takeWhile isBlank ++ other).takeWhile isBlank =
      (lineContent line).takeWhile isBlank := by
    rw [List.takeWhile_append_of_pos fun d => List.mem_takeWhile_imp, spelled, List.takeWhile_cons_of_neg stops,
      List.append_nil]
  unfold replaceContent
  rw [inside, ending, indentation]

/-- A line stays one line if something that is no line feed takes the place of its content. -/
theorem keepsLines_replaceContent (something : content ≠ []) (oneLine : '\n' ∉ content) :
    KeepsLines (replaceContent content) := by
  constructor
  · intro body noEnd
    have sign : isLineSign '\n' = true := rfl
    have reversed : (body ++ ['\n']).reverse = '\n' :: body.reverse := List.reverse_append
    refine ⟨((lineContent (body ++ ['\n'])).takeWhile isBlank ++ content) ++ lineEnding body, ?_, ?_⟩
    · have ending : lineEnding (body ++ ['\n']) = lineEnding body ++ ['\n'] := by
        rw [lineEnding, reversed, List.takeWhile_cons_of_pos sign, List.reverse_cons]
        rfl
      rw [replaceContent, ending, ← List.append_assoc]
    · have inside : lineContent (body ++ ['\n']) = lineContent body := by
        rw [lineContent, reversed, List.dropWhile_cons_of_pos sign]
        rfl
      rw [← lineContent_append_lineEnding body, List.mem_append, not_or] at noEnd
      rw [inside, List.mem_append, List.mem_append, not_or, not_or]
      exact ⟨⟨fun member => noEnd.1 ((List.takeWhile_prefix _).subset member), oneLine⟩, noEnd.2⟩
  · intro line nonempty noEnd
    rw [← lineContent_append_lineEnding line, List.mem_append, not_or] at noEnd
    constructor
    · simp [replaceContent, something]
    · rw [replaceContent, List.mem_append, List.mem_append, not_or, not_or]
      exact ⟨⟨fun member => noEnd.1 ((List.takeWhile_prefix _).subset member), oneLine⟩, noEnd.2⟩

/-- A line without its end lacks nothing but signs that end lines. -/
theorem exists_append_of_withoutLineEnd (line : List Char) :
    ∃ dropped, line = withoutLineEnd line ++ dropped ∧ ∀ c ∈ dropped, isLineSign c = true := by
  have spelled := List.reverse_reverse line
  unfold withoutLineEnd
  split
  · rename_i body reversed
    rw [reversed] at spelled
    exact ⟨['\r', '\n'], by rw [← spelled]; simp, by simp [isLineSign]⟩
  · rename_i body _ reversed
    rw [reversed] at spelled
    exact ⟨['\n'], by rw [← spelled]; simp, by simp [isLineSign]⟩
  · exact ⟨[], (List.append_nil line).symm, nofun⟩

/-- What is read of a line whose content was replaced: blanks, the content, and what may be left of the end of the
line. -/
theorem withoutLineEnd_replaceContent (isContent : IsContent content) (line : List Char) :
    ∃ indentation ending, withoutLineEnd (replaceContent content line) = indentation ++ (content ++ ending) ∧
      (∀ c ∈ indentation, isBlank c = true) ∧ ∀ c ∈ ending, isBlank c = true := by
  have blank (c : Char) (sign : isLineSign c = true) : isBlank c = true := by
    rcases Bool.or_eq_true_iff.mp sign with same | same <;> rw [beq_iff_eq.mp same] <;> decide
  obtain ⟨dropped, whole, signs⟩ := exists_append_of_withoutLineEnd (replaceContent content line)
  refine ⟨(lineContent line).takeWhile isBlank, ?_⟩
  have indented (c : Char) (member : c ∈ (lineContent line).takeWhile isBlank) : isBlank c = true :=
    List.mem_takeWhile_imp member
  rw [replaceContent] at whole
  rcases List.append_eq_append_iff.mp whole with ⟨ending, kept, ended⟩ | ⟨more, cut, ended⟩
  · refine ⟨ending, by rw [replaceContent, kept, List.append_assoc], indented, fun c member => blank c ?_⟩
    exact isLineSign_of_mem_lineEnding c (by rw [ended]; exact List.mem_append_left _ member)
  · obtain ⟨before, c, spelled, other⟩ := isContent.last
    obtain rfl | ⟨others, last, rfl⟩ := List.eq_nil_or_concat more
    · refine ⟨[], ?_, indented, nofun⟩
      rw [List.append_nil] at cut
      rw [replaceContent, ← cut, List.append_nil]
    · have same := congrArg List.getLast? cut
      simp [spelled] at same
      have sign := signs last (by simp [ended])
      rw [← same, other] at sign
      exact absurd sign Bool.false_ne_true

theorem Lexer.IsNoun.noEnd {form : String} (isNoun : IsNoun form) : '\n' ∉ form.toList := by
  intro member
  have character := (isNoun.lexed "" .atStart).characters rfl _ member
  have other : isWordCharacter '\n' = false := by decide +kernel
  rw [other] at character
  contradiction

theorem Forms.noEnd_text {f : Forms} (noEnds : ∀ form ∈ f.toList, '\n' ∉ form.toList) : '\n' ∉ f.text.toList := by
  have noEnd (c : Case) : '\n' ∉ (f.get c).toList := noEnds _ (List.mem_map_of_mem (Case.mem_all c))
  have comma : '\n' ∉ ", ".toList := by decide
  have spelled : f.text = f.get .nominative ++ ", " ++ f.get .genitive ++ ", " ++ f.get .dative ++ ", " ++
      f.get .accusative := rfl
  rw [spelled]
  simp only [String.toList_append, List.mem_append, not_or]
  exact ⟨⟨⟨⟨⟨⟨noEnd _, comma⟩, noEnd _⟩, comma⟩, noEnd _⟩, comma⟩, noEnd _⟩

theorem isContent_text {d : Declension} (noEnds : ∀ form ∈ d.forms, '\n' ∉ form.toList) : IsContent d.text.toList := by
  constructor
  · exact ⟨'D', _, (Lexer.toList_declensionText d).trans rfl, by decide⟩
  · exact ⟨_, ')', String.toList_append, rfl⟩
  · have singular := Forms.noEnd_text fun form member => noEnds form (List.mem_append_left _ member)
    have plural := Forms.noEnd_text fun form member => noEnds form (List.mem_append_right _ member)
    have gender : '\n' ∉ d.gender.keyword.toList := by cases d.gender <;> decide
    rw [Lexer.toList_declensionText, List.mem_append, List.mem_append, List.mem_append, List.mem_append, List.mem_append,
      List.mem_append, not_or, not_or, not_or, not_or, not_or, not_or]
    exact ⟨by decide, gender, by decide, singular, by decide, plural, by decide⟩

/-- A line in which a declension is written if one belongs there. Lines are counted from 1. -/
def respelledLine (w : Nat → Option Declension) (index : Nat) (line : List Char) : List Char :=
  match w (index + 1) with
  | none => line
  | some d => replaceContent d.text.toList line

/-- A text with declensions written into some of its lines. -/
def respell (w : Nat → Option Declension) (text : String) : String :=
  String.ofList ((linesWithEnds text.toList).mapIdx (respelledLine w)).flatten

/-- Declensions that can be written into lines. -/
def Writable (w : Nat → Option Declension) : Prop :=
  ∀ number d, w number = some d → IsContent d.text.toList

theorem linesWithEnds_respell {w : Nat → Option Declension} (writable : Writable w) (text : String) :
    linesWithEnds (respell w text).toList = (linesWithEnds text.toList).mapIdx (respelledLine w) := by
  rw [respell, String.toList_ofList]
  refine ((areLines_linesWithEnds text.toList).mapIdx fun index => ?_).linesWithEnds_flatten
  unfold respelledLine
  split
  · exact keepsLines_id
  · rename_i d written
    have isContent := writable _ d written
    exact keepsLines_replaceContent isContent.nonempty isContent.noEnd

theorem respell_none (text : String) : respell (fun _ => none) text = text := by
  have same : (linesWithEnds text.toList).mapIdx (respelledLine fun _ => none) = linesWithEnds text.toList := by
    refine List.ext_getElem? fun index => ?_
    rw [List.getElem?_mapIdx]
    exact Option.map_id'
  rw [respell, same, flatten_linesWithEnds, String.ofList_toList]

/-- Writing one more declension. If there was one in the line, the new one replaces it. -/
theorem replaceLine_respell {w : Nat → Option Declension} (writable : Writable w) {text : String} {number : Nat}
    {d : Declension} {changed : List Char} (replaced : replaceLine (respell w text).toList number d.text.toList = some changed) :
    String.ofList changed = respell (fun other => if other = number then some d else w other) text := by
  unfold replaceLine at replaced
  rw [linesWithEnds_respell writable] at replaced
  dsimp only at replaced
  split at replaced
  · contradiction
  · rename_i inside
    rw [not_or] at inside
    cases replaced
    refine congrArg (fun lines => String.ofList lines.flatten) (List.ext_getElem? fun index => ?_)
    rw [List.getElem?_modify, List.getElem?_mapIdx, List.getElem?_mapIdx]
    cases (linesWithEnds text.toList)[index]? with
    | none => simp
    | some line =>
      by_cases here : number - 1 = index
      · have same : index + 1 = number := by omega
        simp only [here, if_true, Option.map_some, respelledLine, same]
        cases before : w number with
        | none => rfl
        | some other => exact congrArg some (replaceContent_replaceContent (writable number other before) line)
      · have other : index + 1 ≠ number := by omega
        simp only [here, if_false, Option.map_some, respelledLine, other]
        rfl

end Satzbau

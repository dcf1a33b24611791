import Satzbau.Proofs.Composing.Files
import Satzbau.Proofs.Partition.Locality
import Satzbau.Proofs.Respelling.Lines

namespace Satzbau

/-- A stretch of blanks that stays on its line. -/
structure Gap where
  blanks : List Char
  nonempty : blanks ≠ []
  blank : ∀ c ∈ blanks, isBlank c = true
  noEnd : '\n' ∉ blanks

/-- What can end a line. -/
inductive LineBreak
  | feed
  | returnFeed

def LineBreak.text : LineBreak → List Char
  | feed => ['\n']
  | returnFeed => ['\r', '\n']

/-- A token of a line, and the blanks that are put behind it where another token of the line follows. -/
structure Spaced where
  token : Token
  gap : Gap

/-- The tokens of a line with nothing but blanks between them. -/
structure SpacedLine where
  spaced : List Spaced
  lineBreak : LineBreak

namespace Spaced

/-- What a line is written as: its tokens with blanks between them. -/
def spelled : List Spaced → List Char
  | [] => []
  | [s] => s.token.text.toList
  | s :: t :: later => s.token.text.toList ++ (s.gap.blanks ++ spelled (t :: later))

/-- The operator that two tokens become where only spaces and tabs are put between them: `größer` or `kleiner` and
`gleich` behind it. -/
def joined? (s t : Spaced) : Option Operator :=
  if t.token.text = Operator.equal.word ∧ s.gap.blanks.all Lexer.isSpaceOrTab = true then
    Lexer.comparison? s.token.text
  else none

/-- What a line is read as. -/
def reading : List Spaced → List (TokenKind × String)
  | [] => []
  | [s] => [s.token.reading]
  | s :: t :: later =>
    match joined? s t with
    | some compound =>
      (.operator compound, s.token.text ++ String.ofList s.gap.blanks ++ t.token.text) :: reading later
    | none => s.token.reading :: reading (t :: later)

end Spaced

namespace SpacedLine

def tokens (line : SpacedLine) : List Token :=
  line.spaced.map Spaced.token

/-- Lines one below the other. The last one may lack its end. -/
def text (ended : Bool) : List SpacedLine → List Char
  | [] => []
  | [line] => Spaced.spelled line.spaced ++ if ended then line.lineBreak.text else []
  | line :: next :: later => Spaced.spelled line.spaced ++ line.lineBreak.text ++ text ended (next :: later)

end SpacedLine

namespace Lexer

variable {kind : TokenKind} {text behind : List Char}

theorem comparison?_eq_some {word : String} {compound : Operator} (compares : comparison? word = some compound) :
    word = Operator.greater.word ∨ word = Operator.less.word := by
  obtain ⟨operator, known, longer⟩ := Option.bind_eq_some_iff.mp compares
  have spelled := @List.find?_some _ (fun operator : Operator => operator.word == word) _ _ known
  rw [beq_iff_eq] at spelled
  cases operator with
  | greater => exact Or.inl spelled.symm
  | less => exact Or.inr spelled.symm
  | _ => contradiction

theorem isWordCharacter_of_comparison? {word : String} {compound : Operator} (compares : comparison? word = some compound) :
    ∀ c ∈ word.toList, isWordCharacter c = true := by
  refine List.all_eq_true.mp ?_
  obtain rfl | rfl := comparison?_eq_some compares <;> decide +kernel

theorem exists_letter_of_comparison? {word : String} {compound : Operator} (compares : comparison? word = some compound) :
    ∃ c rest, word.toList = c :: rest ∧ isLetter c = true := by
  have begins : word.toList.head?.any isLetter = true := by
    obtain rfl | rfl := comparison?_eq_some compares <;> decide +kernel
  cases front : word.toList with
  | nil =>
    rw [front] at begins
    contradiction
  | cons c rest =>
    rw [front] at begins
    exact ⟨c, rest, rfl, begins⟩

/-- No token ends with a carriage return. -/
theorem Stands.noReturn (stands : Stands kind text) : ¬∃ body, text = body ++ ['\r'] := by
  rintro ⟨body, rfl⟩
  obtain ⟨c, rest, front, alone⟩ := stands
  cases body with
  | nil =>
    cases front
    have noBlank := lexeme_not_blank alone
    contradiction
  | cons d others =>
    cases front
    have bound := (lexeme_return alone).2
    simp only [List.cons_append, List.length_cons, List.length_append, List.length_nil] at bound
    omega

theorem Stands.nonempty (stands : Stands kind text) : text ≠ [] := by
  obtain ⟨c, rest, rfl, _⟩ := stands
  exact List.cons_ne_nil c rest

theorem lexeme_letter {c : Char} {rest : List Char} (letter : isLetter c = true) : lexeme c rest = .ok (word (c :: rest)) := by
  unfold lexeme
  rw [if_neg (isLetter_ne letter (by decide +kernel)), isDigit_of_isLetter letter, if_neg Bool.false_ne_true, if_pos letter]

/-- A token that begins with the word `gleich` is that word. -/
theorem Stands.eq_equal (stands : Stands kind text) (apart : SetsApart behind) {later : List Char}
    (stops : ∀ d ∈ later.head?, isWordCharacter d = false) (same : text ++ behind = Operator.equal.word.toList ++ later) :
    text = Operator.equal.word.toList := by
  obtain ⟨c, rest, front, alone⟩ := stands
  have letter : isLetter c = true := by
    have begins : Operator.equal.word.toList.head? = some 'g' := by decide
    have sameFirst := congrArg List.head? same
    rw [front, List.head?_append, List.head?_append, begins] at sameFirst
    cases sameFirst
    decide +kernel
  rw [lexeme_letter letter, ← front] at alone
  obtain ⟨letters, after, cut, all, stopsAfter⟩ := exists_letters text
  have stopsBehind : ∀ d ∈ (after ++ behind).head?, isWordCharacter d = false := by
    cases after with
    | nil => exact apart.noWord
    | cons d others => exact stopsAfter
  have isEqual : letters = Operator.equal.word.toList := by
    rw [cut, List.append_assoc] at same
    rw [← takeWhile_append_stop all stopsBehind, same, takeWhile_append_stop isWordCharacter_of_mem_equal stops]
  -- `gleich` is no comparison that could go on, so the token is no longer than the word.
  have single : Quiet letters after := by
    intro compares
    rw [isEqual, String.ofList_toList] at compares
    exact absurd compares (by decide)
  rw [cut, word_of_quiet all stopsAfter single] at alone
  have long := congrArg Prod.snd (Except.ok.inj alone)
  rw [List.length_append] at long
  rw [cut, List.length_eq_zero_iff.mp (by omega : after.length = 0), List.append_nil, isEqual]

/-- Blanks in front of a token let a comparison go on only if they are spaces and tabs and the token is `gleich`. -/
theorem orEqualTail?_eq_none {gap : Gap} (stands : Stands kind text) (apart : SetsApart behind)
    (other : ¬(text = Operator.equal.word.toList ∧ gap.blanks.all isSpaceOrTab = true)) :
    orEqualTail? (gap.blanks ++ (text ++ behind)) = none := by
  by_contra goesOn
  obtain ⟨tail, follows⟩ := Option.ne_none_iff_exists'.mp goesOn
  obtain ⟨blanks, later, same, nonempty, spaces, stops, rfl⟩ := exists_of_orEqualTail? follows
  have blank : ∀ c ∈ blanks, isBlank c = true := by
    intro c member
    rcases Bool.or_eq_true_iff.mp (spaces c member) with isSpace | isTab
    · rw [beq_iff_eq.mp isSpace]
      decide
    · rw [beq_iff_eq.mp isTab]
      decide
  have front : ∀ d ∈ (text ++ behind).head?, isBlank d = false := by
    obtain ⟨c, rest, rfl, alone⟩ := stands
    rintro _ ⟨⟩
    exact lexeme_not_blank alone
  have frontEqual : ∀ d ∈ (Operator.equal.word.toList ++ later).head?, isBlank d = false := by
    rintro _ ⟨⟩
    decide
  have sameBlanks : gap.blanks = blanks := by
    rw [← takeWhile_append_stop gap.blank front, same, takeWhile_append_stop blank frontEqual]
  rw [sameBlanks] at same other
  exact other ⟨stands.eq_equal apart stops (List.append_cancel_left same), List.all_eq_true.mpr spaces⟩

/-- `größer` or `kleiner`, spaces or tabs, and `gleich` are one token. -/
theorem stands_comparison {word : String} {compound : Operator} (compares : comparison? word = some compound) {gap : Gap}
    (spaces : gap.blanks.all isSpaceOrTab = true) :
    Stands (.operator compound) (word.toList ++ (gap.blanks ++ Operator.equal.word.toList)) := by
  obtain ⟨c, rest, front, letter⟩ := exists_letter_of_comparison? compares
  have all := isWordCharacter_of_comparison? compares
  refine ⟨c, rest ++ (gap.blanks ++ Operator.equal.word.toList), by rw [front]; rfl, ?_⟩
  have follows := orEqualTail?_append gap.nonempty (List.all_eq_true.mp spaces) setsApart_nil.noWord
  have stops : ∀ d ∈ (gap.blanks ++ (Operator.equal.word.toList ++ [])).head?, isWordCharacter d = false :=
    (setsApart_append gap.nonempty gap.blank _).noWord
  rw [lexeme_letter letter, ← List.cons_append, ← front]
  have compared := word_of_comparison all stops (by rwa [String.ofList_toList]) follows
  rw [List.append_nil] at compared
  rw [compared, List.length_append, List.length_append]

end Lexer

namespace Spaced

open Lexer

/-- What stands behind a token of a line: the blanks and what the later tokens are written as. -/
def following (gap : Gap) : List Spaced → List Char
  | [] => []
  | t :: later => gap.blanks ++ spelled (t :: later)

theorem spelled_cons (s : Spaced) (later : List Spaced) :
    spelled (s :: later) = s.token.text.toList ++ following s.gap later := by
  cases later with
  | nil => exact (List.append_nil _).symm
  | cons t later => rfl

theorem setsApart_following (gap : Gap) (later : List Spaced) : SetsApart (following gap later) := by
  cases later with
  | nil => exact setsApart_nil
  | cons t later => exact setsApart_append gap.nonempty gap.blank _

theorem reads_following {line : Line} (gap : Gap) {later : List Spaced} {reading : List (TokenKind × String)}
    (reads : line.Reads (spelled later) reading) : line.Reads (following gap later) reading := by
  cases later with
  | nil => exact reads
  | cons t later => exact reads.blanks gap.blank

theorem quiet_joined (word : String) (gap : Gap) (rest behind : List Char) :
    Quiet (word.toList ++ (gap.blanks ++ rest)) behind := by
  intro compares
  obtain ⟨compound, compares⟩ := Option.isSome_iff_exists.mp compares
  obtain ⟨c, others, blanks⟩ := List.exists_cons_of_ne_nil gap.nonempty
  have inWord := isWordCharacter_of_comparison? compares c (by simp [blanks])
  rw [isWordCharacter_of_isBlank (gap.blank c (by simp [blanks]))] at inWord
  contradiction

theorem quiet_of_joined?_eq_none {s t : Spaced} (apart : joined? s t = none)
    (stands : Stands t.token.kind t.token.text.toList) {behind : List Char} (setsApart : SetsApart behind) :
    Quiet s.token.text.toList (s.gap.blanks ++ (t.token.text.toList ++ behind)) := by
  intro compares
  refine orEqualTail?_eq_none stands setsApart fun ⟨isEqual, spaces⟩ => ?_
  rw [joined?, if_pos ⟨String.toList_inj.mp isEqual, spaces⟩] at apart
  rw [String.ofList_toList, apart] at compares
  contradiction

/-- Tokens with blanks between them are read again, but for the comparisons that come about. -/
theorem reads_spelled {line : Line} {spaced : List Spaced}
    (stands : ∀ s ∈ spaced, Stands s.token.kind s.token.text.toList) : line.Reads (spelled spaced) (reading spaced) := by
  fun_induction reading spaced with
  | case1 => exact .nil
  | case2 s =>
    have nothing : line.Reads [] [] := .nil
    have here := nothing.stands (stands s (List.mem_singleton_self s)) setsApart_nil fun _ => rfl
    rwa [List.append_nil, String.ofList_toList] at here
  | case3 s t later compound joins ih =>
    unfold joined? at joins
    split at joins
    · rename_i goesOn
      obtain ⟨isEqual, spaces⟩ := goesOn
      have others := (List.forall_mem_cons.mp (List.forall_mem_cons.mp stands).2).2
      have here := (reads_following t.gap (ih others)).stands (stands_comparison joins spaces)
        (setsApart_following t.gap later) (quiet_joined s.token.text s.gap _ _)
      rw [String.ofList_append, String.ofList_append, String.ofList_toList, String.ofList_toList, ← String.append_assoc,
        List.append_assoc, List.append_assoc, ← isEqual, ← spelled_cons] at here
      exact here
    · contradiction
  | case4 s t later apart ih =>
    obtain ⟨first, others⟩ := List.forall_mem_cons.mp stands
    have quiet := quiet_of_joined?_eq_none apart (others t (List.mem_cons_self ..)) (setsApart_following t.gap later)
    rw [← spelled_cons] at quiet
    have here := (reads_following s.gap (ih others)).stands first (setsApart_following s.gap (t :: later)) quiet
    rw [String.ofList_toList] at here
    exact here

theorem noEnd_spelled {spaced : List Spaced} (noEnd : ∀ s ∈ spaced, '\n' ∉ s.token.text.toList) : '\n' ∉ spelled spaced := by
  induction spaced with
  | nil => exact List.not_mem_nil
  | cons s later ih =>
    obtain ⟨first, others⟩ := List.forall_mem_cons.mp noEnd
    rw [spelled_cons, List.mem_append, not_or]
    refine ⟨first, ?_⟩
    cases later with
    | nil => exact List.not_mem_nil
    | cons t later =>
      rw [following, List.mem_append, not_or]
      exact ⟨s.gap.noEnd, ih others⟩

theorem spelled_eq_nil {spaced : List Spaced} (stands : ∀ s ∈ spaced, Stands s.token.kind s.token.text.toList)
    (empty : spelled spaced = []) : spaced = [] := by
  cases spaced with
  | nil => rfl
  | cons s later =>
    rw [spelled_cons] at empty
    exact absurd (List.append_eq_nil_iff.mp empty).1 (stands s (List.mem_cons_self ..)).nonempty

/-- A line ends as its last token does. -/
theorem noReturn_spelled {spaced : List Spaced} (stands : ∀ s ∈ spaced, Stands s.token.kind s.token.text.toList) :
    ¬∃ body, spelled spaced = body ++ ['\r'] := by
  rw [← List.getLast?_eq_some_iff]
  fun_induction spelled spaced with
  | case1 => exact nofun
  | case2 s =>
    rw [List.getLast?_eq_some_iff]
    exact (stands s (List.mem_singleton_self s)).noReturn
  | case3 s t later ih =>
    have others := (List.forall_mem_cons.mp stands).2
    have nonempty : spelled (t :: later) ≠ [] := fun empty => List.cons_ne_nil _ _ (spelled_eq_nil others empty)
    rw [List.getLast?_append_of_ne_nil _ (List.append_ne_nil_of_right_ne_nil _ nonempty),
      List.getLast?_append_of_ne_nil _ nonempty]
    exact ih others

end Spaced

/-- A token that can be read for itself, on one line. -/
def Token.StandsAlone (t : Token) : Prop :=
  Lexer.Stands t.kind t.text.toList ∧ '\n' ∉ t.text.toList

namespace SpacedLine

open Lexer

/-- The tokens of a line can be read for themselves. -/
def Sound (line : SpacedLine) : Prop :=
  ∀ t ∈ line.tokens, t.StandsAlone

namespace Sound

variable {line : SpacedLine} (sound : line.Sound)

include sound

theorem stands : ∀ s ∈ line.spaced, Stands s.token.kind s.token.text.toList :=
  fun _ member => (sound _ (List.mem_map_of_mem member)).1

theorem noEnd : '\n' ∉ Spaced.spelled line.spaced :=
  Spaced.noEnd_spelled fun _ member => (sound _ (List.mem_map_of_mem member)).2

theorem textLines_ended (later : List Char) :
    textLines (Spaced.spelled line.spaced ++ line.lineBreak.text ++ later) = Spaced.spelled line.spaced :: textLines later := by
  have noReturn := Spaced.noReturn_spelled sound.stands
  have noEnd := sound.noEnd
  generalize Spaced.spelled line.spaced = body at noReturn noEnd ⊢
  obtain ⟨before, same, noEnd', ends⟩ : ∃ before, body ++ line.lineBreak.text = before ++ ['\n'] ∧ '\n' ∉ before ∧
      withoutLineEnd (before ++ ['\n']) = body := by
    cases line.lineBreak with
    | feed => exact ⟨body, rfl, noEnd, (withoutLineEnd_append body).resolve_right fun ⟨other, same, _⟩ => noReturn ⟨other, same⟩⟩
    | returnFeed =>
      refine ⟨body ++ ['\r'], (List.append_assoc body ['\r'] ['\n']).symm, by simp [noEnd], ?_⟩
      simp [withoutLineEnd]
  rw [same, textLines_of_wholeLines (Or.inr ⟨before, rfl⟩), textLines, (linesWithEnds_of_not_mem noEnd').1,
    List.map_singleton, ends]
  rfl

end Sound

/-- The lines of a text are those that it was put together from. Only a last one without tokens and without an end is
lost. -/
theorem textLines_text {ended : Bool} {lines : List SpacedLine} (sound : ∀ line ∈ lines, line.Sound) :
    ∃ kept lost, lines = kept ++ lost ∧ (∀ line ∈ lost, line.spaced = []) ∧
      textLines (text ended lines) = kept.map fun line => Spaced.spelled line.spaced := by
  fun_induction text ended lines with
  | case1 => exact ⟨[], [], rfl, nofun, rfl⟩
  | case2 line =>
    have here := sound line (List.mem_singleton_self line)
    cases ended with
    | true =>
      refine ⟨[line], [], rfl, nofun, ?_⟩
      have alone := here.textLines_ended []
      rwa [List.append_nil] at alone
    | false =>
      rw [if_neg Bool.false_ne_true, List.append_nil]
      by_cases empty : Spaced.spelled line.spaced = []
      · refine ⟨[], [line], rfl, List.forall_mem_singleton.mpr (Spaced.spelled_eq_nil here.stands empty), ?_⟩
        rw [empty]
        rfl
      · refine ⟨[line], [], rfl, nofun, ?_⟩
        rw [textLines, (linesWithEnds_of_not_mem here.noEnd).2 empty, List.map_singleton,
          withoutLineEnd_of_not_mem here.noEnd]
        rfl
  | case3 line next later ih =>
    obtain ⟨here, others⟩ := List.forall_mem_cons.mp sound
    obtain ⟨kept, lost, split, nothing, read⟩ := ih others
    refine ⟨line :: kept, lost, congrArg _ split, nothing, ?_⟩
    rw [here.textLines_ended, read]
    rfl

end SpacedLine

/-- `größer` or `kleiner`, and a `gleich` of its own behind it. -/
def Token.SplitComparison (t u : Token) : Prop :=
  (t.text = Operator.greater.word ∨ t.text = Operator.less.word) ∧ u.text = Operator.equal.word

instance (t u : Token) : Decidable (t.SplitComparison u) :=
  inferInstanceAs (Decidable ((_ ∨ _) ∧ _))

theorem Spaced.reading_eq_map {spaced : List Spaced}
    (whole : (spaced.map Spaced.token).IsChain fun t u => ¬t.SplitComparison u) :
    reading spaced = (spaced.map Spaced.token).map Token.reading := by
  fun_induction reading spaced with
  | case1 => rfl
  | case2 s => rfl
  | case3 s t later compound joins ih =>
    unfold joined? at joins
    split at joins
    · rename_i goesOn
      have split : s.token.SplitComparison t.token := ⟨Lexer.comparison?_eq_some joins, goesOn.1⟩
      exact absurd split (List.isChain_cons_cons.mp whole).1
    · contradiction
  | case4 s t later apart ih =>
    rw [ih (List.isChain_cons_cons.mp whole).2]
    rfl

/-- Where there are no operators, no comparison came about. -/
theorem Spaced.reading_eq_map_of_noOperator {spaced : List Spaced}
    (noOperator : ∀ entry ∈ reading spaced, ∀ operator, entry.1 ≠ .operator operator) :
    reading spaced = (spaced.map Spaced.token).map Token.reading := by
  fun_induction reading spaced with
  | case1 => rfl
  | case2 s => rfl
  | case3 s t later compound joins ih => exact absurd rfl ((List.forall_mem_cons.mp noOperator).1 compound)
  | case4 s t later apart ih =>
    rw [ih (List.forall_mem_cons.mp noOperator).2]
    rfl

theorem AreLines.noEnd_withoutLineEnd {lines : List (List Char)} (areLines : AreLines lines) :
    ∀ line ∈ lines, '\n' ∉ withoutLineEnd line := by
  induction areLines with
  | nil => exact nofun
  | last nonempty noEnd =>
    refine List.forall_mem_singleton.mpr ?_
    rwa [withoutLineEnd_of_not_mem noEnd]
  | @cons body later noEnd behind ih =>
    refine List.forall_mem_cons.mpr ⟨?_, ih⟩
    rcases withoutLineEnd_append body with same | ⟨others, rfl, same⟩
    · rwa [same]
    · rw [same]
      exact fun inside => noEnd (List.mem_append_left _ inside)

namespace Source

/-- What a line is read as, with its end behind it unless there is nothing on it. -/
def closed : List (TokenKind × String) → List (TokenKind × String)
  | [] => []
  | first :: others => first :: others ++ [(.lineEnd, "\n")]

theorem reading_ended (line : Lexer.Line) (tokens : List Token) :
    (ended line tokens).map Token.reading = closed (tokens.map Token.reading) := by
  cases tokens with
  | nil => rfl
  | cons first others =>
    rw [ended, List.map_append]
    rfl

section Found

variable {files : Files} {inComment : Bool} {lines : List Lexer.Line} {found : List (List Token)}

/-- Lines without faults begin with one, and go on with those behind it. -/
theorem readings_cons {line : Lexer.Line} (read : readings inComment (line :: lines) = found.map .ok) :
    ∃ tokens later, found = tokens :: later ∧ line.tokens inComment = (.ok tokens, (line.tokens inComment).2) ∧
      readings (line.tokens inComment).2 lines = later.map .ok := by
  rw [readings] at read
  obtain ⟨tokens, later, rfl, first, others⟩ := List.map_eq_cons_iff.mp read.symm
  exact ⟨tokens, later, rfl, Prod.ext first.symm rfl, others.symm⟩

theorem filterMap_readings (read : readings inComment lines = found.map .ok) :
    (readings inComment lines).filterMap Except.toOption = found := by
  rw [read, List.filterMap_map]
  exact List.filterMap_some

theorem withoutImports_iff (read : readings inComment lines = found.map .ok) :
    WithoutImports inComment lines ↔ ∀ tokens ∈ found, importTarget? tokens = none := by
  rw [WithoutImports, filterMap_readings read]

/-- The items of lines without faults. -/
theorem readLines_of_readings (alone : WithoutImports inComment lines) (read : readings inComment lines = found.map .ok)
    (queue : ImportQueue) :
    ∃ tokens : List Token, readLines files ⟨queue, inComment⟩ lines = (tokens.map .ok, queue) ∧
      tokens.map Token.reading = (found.map (List.map Token.reading)).flatMap closed := by
  induction lines generalizing inComment found with
  | nil =>
    obtain rfl : found = [] := List.map_eq_nil_iff.mp read.symm
    exact ⟨[], rfl, rfl⟩
  | cons line lines ih =>
    obtain ⟨tokens, later, rfl, first, others⟩ := readings_cons read
    obtain ⟨behind, items, same⟩ := ih alone.later others
    have here : readLine files ⟨queue, inComment⟩ line = ((ended line tokens).map .ok, ⟨queue, _⟩) :=
      readLine_ended first (alone.first (congrArg Prod.fst first))
    refine ⟨ended line tokens ++ behind, ?_, ?_⟩
    · simp only [readLines]
      rw [here]
      dsimp only
      rw [items, List.map_append]
    · rw [List.map_append, reading_ended, same, List.map_cons, List.flatMap_cons]

/-- Lines that give no fault have none. -/
theorem exists_readings {progress : Progress} {tokens : List Token} (alone : WithoutImports progress.inComment lines)
    (read : (readLines files progress lines).1 = tokens.map .ok) :
    ∃ found : List (List Token), readings progress.inComment lines = found.map .ok := by
  induction lines generalizing progress tokens with
  | nil => exact ⟨[], rfl⟩
  | cons line lines ih =>
    have split : (readLine files progress line).1 ++ (readLines files (readLine files progress line).2 lines).1 =
      tokens.map .ok := read
    obtain ⟨first, others, _, here, behind⟩ := List.map_eq_append_iff.mp split.symm
    cases result : line.tokens progress.inComment with
    | mk outcome after =>
      cases outcome with
      | error fault =>
        rw [readLine_fault result] at here
        obtain ⟨_, _, impossible⟩ := List.map_eq_singleton_iff.mp here
        contradiction
      | ok own =>
        rw [readLine_ended result (alone.first (congrArg Prod.fst result))] at behind
        have alone' := alone.later
        rw [result] at alone'
        obtain ⟨found, later⟩ := @ih ⟨progress.queue, after⟩ others alone' behind.symm
        exact ⟨own :: found, by rw [readings, result, later]; rfl⟩

/-- The tokens of lines can be read for themselves. -/
theorem standsAlone_of_readings (noEnds : ∀ line ∈ lines, '\n' ∉ line.text)
    (read : readings inComment lines = found.map .ok) : ∀ tokens ∈ found, ∀ t ∈ tokens, t.StandsAlone := by
  induction lines generalizing inComment found with
  | nil =>
    obtain rfl : found = [] := List.map_eq_nil_iff.mp read.symm
    exact nofun
  | cons line lines ih =>
    obtain ⟨noEnd, others⟩ := List.forall_mem_cons.mp noEnds
    obtain ⟨tokens, later, rfl, first, behind⟩ := readings_cons read
    have here : (line.tokens inComment).1 = .ok tokens := congrArg Prod.fst first
    obtain ⟨pieces, partitions⟩ := Lexer.Line.tokens_partitions here
    refine List.forall_mem_cons.mpr ⟨fun t member => ⟨?_, ?_⟩, ih others behind⟩
    · refine @Lexer.tokensFrom_forall (fun t => Lexer.Stands t.kind t.text.toList) line ?_ 1 inComment line.text _ here t member
      intro column c rest kind length read
      have stands := Lexer.stands_of_lexeme read
      rwa [← @String.toList_ofList ((c :: rest).take length)] at stands
    · rw [partitions.selected t member]
      exact fun inside => noEnd (List.mem_of_mem_drop (List.mem_of_mem_take inside))

end Found

theorem text_linesOf (path : Path) (text : String) : (linesOf path text).map Lexer.Line.text = textLines text.toList := by
  refine List.ext_getElem? fun index => ?_
  rw [linesOf, List.getElem?_map, List.getElem?_mapIdx, Option.map_map]
  exact Option.map_id'

theorem noEnd_of_mem_linesOf {path : Path} {text : String} {line : Lexer.Line} (member : line ∈ linesOf path text) :
    '\n' ∉ line.text := by
  have among : line.text ∈ textLines text.toList := text_linesOf path text ▸ List.mem_map_of_mem member
  obtain ⟨cut, inText, same⟩ := List.mem_map.mp among
  rw [← same]
  exact (areLines_linesWithEnds text.toList).noEnd_withoutLineEnd cut inText

/-- Lines that are written as tokens with blanks between them are read as these tokens. -/
theorem readings_spaced {lines : List Lexer.Line} {spacing : List SpacedLine}
    (written : lines.map Lexer.Line.text = spacing.map fun line => Spaced.spelled line.spaced)
    (sound : ∀ line ∈ spacing, line.Sound) :
    ∃ found : List (List Token), readings false lines = found.map .ok ∧
      found.map (List.map Token.reading) = spacing.map fun line => Spaced.reading line.spaced := by
  induction spacing generalizing lines with
  | nil =>
    obtain rfl : lines = [] := List.map_eq_nil_iff.mp written
    exact ⟨[], rfl, rfl⟩
  | cons spaced spacing ih =>
    obtain ⟨line, later, rfl, first, others⟩ := List.map_eq_cons_iff.mp written
    obtain ⟨here, behind⟩ := List.forall_mem_cons.mp sound
    obtain ⟨found, read, same⟩ := ih others behind
    obtain ⟨tokens, readLine, sameTokens⟩ := @Spaced.reads_spelled line spaced.spaced here.stands 1
    have tokensOf : line.tokens false = (.ok tokens, false) := by rw [Lexer.Line.tokens, first, readLine]
    refine ⟨tokens :: found, ?_, ?_⟩
    · rw [readings, tokensOf, read]
      rfl
    · rw [List.map_cons, sameTokens, same, List.map_cons]

theorem importTarget?_eq_none_iff {tokens : List Token} :
    importTarget? tokens = none ↔
      ∀ word path text, tokens.map Token.reading ≠ [(.keyword .load, word), (.string path, text)] := by
  constructor
  · intro other word path text same
    obtain ⟨keyword, _, rfl, first, later⟩ := List.map_eq_cons_iff.mp same
    obtain ⟨target, rfl, second⟩ := List.map_eq_singleton_iff.mp later
    have isKeyword : keyword.kind = .keyword .load := congrArg Prod.fst first
    have isString : target.kind = .string path := congrArg Prod.fst second
    simp [importTarget?, isKeyword, isString] at other
  · intro other
    unfold importTarget?
    split
    · rename_i keyword target
      split
      · rename_i path isKeyword isString
        refine absurd ?_ (other keyword.text path target.text)
        rw [← isKeyword, ← isString]
        rfl
      · rfl
    · rfl

/-- Blanks make no line an import. -/
theorem importTarget?_spaced {spaced : List Spaced} {tokens : List Token}
    (same : tokens.map Token.reading = Spaced.reading spaced)
    (other : importTarget? (spaced.map Spaced.token) = none) : importTarget? tokens = none := by
  rw [importTarget?_eq_none_iff] at other ⊢
  intro word path text isImport
  rw [same] at isImport
  refine other word path text ((Spaced.reading_eq_map_of_noOperator ?_).symm.trans isImport)
  rw [isImport]
  exact List.forall_mem_cons.mpr ⟨nofun, List.forall_mem_singleton.mpr nofun⟩

end Source

theorem mapM_map_ok {ε α : Type} (values : List α) : (values.map (Except.ok : α → Except ε α)).mapM id = .ok values := by
  induction values with
  | nil => rfl
  | cons value later ih =>
    rw [List.map_cons, List.mapM_cons, ih]
    rfl

/-- A space. -/
def Gap.space : Gap :=
  ⟨[' '], List.cons_ne_nil _ _, List.forall_mem_singleton.mpr (by decide), by decide⟩

/-- A line with one space between any two tokens. -/
def SpacedLine.plain (tokens : List Token) : SpacedLine :=
  ⟨tokens.map fun t => ⟨t, .space⟩, .feed⟩

theorem SpacedLine.tokens_plain (tokens : List Token) : (plain tokens).tokens = tokens := by
  rw [SpacedLine.tokens, plain, List.map_map]
  exact List.map_id tokens

namespace TokenStream

variable {files : Files} {path : Path} {text : String}

/-- A text without imports is read as its lines are. -/
theorem ofText_of_readings {found : List (List Token)}
    (read : Source.readings false (Source.linesOf path text) = found.map .ok)
    (alone : ∀ tokens ∈ found, Source.importTarget? tokens = none) :
    ∃ all, (ofText files path text).allTokens = .ok all ∧
      all.map Token.reading = (found.map (List.map Token.reading)).flatMap Source.closed ++ [(.fileEnd, "")] := by
  obtain ⟨tokens, items, same⟩ := Source.readLines_of_readings ((Source.withoutImports_iff read).mpr alone) read
    (ImportQueue.empty.visit (files.identify path))
  have opened : Source.opened files path text = (tokens.map .ok, _) := items
  have stream := ofText_eq files path text (congrArg (ImportQueue.pending ∘ Prod.snd) opened)
  rw [opened] at stream
  refine ⟨tokens ++ [Source.fileEnd path (Source.linesOf path text).length], ?_, ?_⟩
  · rw [stream, allTokens, mapM_map_ok]
    rfl
  · rw [List.map_append, same]
    rfl

/-- The lines of a text that is read without a fault have none. -/
theorem exists_readings_ofText {all : List Token} (alone : Source.WithoutImports false (Source.linesOf path text))
    (read : (ofText files path text).allTokens = .ok all) :
    ∃ found : List (List Token), Source.readings false (Source.linesOf path text) = found.map .ok := by
  obtain ⟨tokens, items, rfl⟩ := items_of_allTokens read
  obtain ⟨own, _, _, same, _⟩ := List.map_eq_append_iff.mp items.symm
  exact Source.exists_readings alone same.symm

/-- Tokens with blanks between them are read again as they are, but for the comparisons that come about. -/
theorem ofText_spaced {spacing : List SpacedLine} (sound : ∀ line ∈ spacing, line.Sound)
    (noImports : ∀ line ∈ spacing, Source.importTarget? line.tokens = none) (ended : Bool) :
    ∃ all, (ofText files path (String.ofList (SpacedLine.text ended spacing))).allTokens = .ok all ∧
      all.map Token.reading =
        (spacing.map fun line => Spaced.reading line.spaced).flatMap Source.closed ++ [(.fileEnd, "")] := by
  obtain ⟨kept, lost, rfl, nothing, cut⟩ := @SpacedLine.textLines_text ended spacing sound
  have written : (Source.linesOf path (String.ofList (SpacedLine.text ended (kept ++ lost)))).map Lexer.Line.text =
      kept.map fun line => Spaced.spelled line.spaced := by
    rw [Source.text_linesOf, String.toList_ofList, cut]
  obtain ⟨found, read, same⟩ := Source.readings_spaced written fun line member => sound line (List.mem_append_left _ member)
  have alone : ∀ tokens ∈ found, Source.importTarget? tokens = none := by
    intro tokens member
    have among := List.mem_map_of_mem (f := List.map Token.reading) member
    rw [same] at among
    obtain ⟨line, inKept, sameTokens⟩ := List.mem_map.mp among
    exact Source.importTarget?_spaced sameTokens.symm (noImports line (List.mem_append_left _ inKept))
  have noTokens : (lost.map fun line => Spaced.reading line.spaced).flatMap Source.closed = [] := by
    refine List.flatMap_eq_nil_iff.mpr fun entry member => ?_
    obtain ⟨line, inLost, rfl⟩ := List.mem_map.mp member
    rw [nothing line inLost]
    rfl
  obtain ⟨all, readAll, sameAll⟩ := @ofText_of_readings files path _ found read alone
  refine ⟨all, readAll, ?_⟩
  rw [sameAll, same, List.map_append, List.flatMap_append, noTokens, List.append_nil]

/-- Blanks and comments make no difference. The tokens of a text without imports are read again from its lines if there
are any blanks between them and nothing else. The only thing that can change is that a `gleich` behind `größer` or
`kleiner` becomes one token with it. -/
theorem spacing_insignificant {all : List Token} (alone : Source.WithoutImports false (Source.linesOf path text))
    (read : (ofText files path text).allTokens = .ok all) :
    ∃ lines : List (List Token), Source.readings false (Source.linesOf path text) = lines.map .ok ∧
      all.map Token.reading = (lines.map (List.map Token.reading)).flatMap Source.closed ++ [(.fileEnd, "")] ∧
      ∀ (spacing : List SpacedLine) (ended : Bool), spacing.map SpacedLine.tokens = lines →
        ∃ all', (ofText files path (String.ofList (SpacedLine.text ended spacing))).allTokens = .ok all' ∧
          all'.map Token.reading =
            (spacing.map fun line => Spaced.reading line.spaced).flatMap Source.closed ++ [(.fileEnd, "")] ∧
          ((∀ tokens ∈ lines, tokens.IsChain fun t u => ¬t.SplitComparison u) →
            all'.map Token.reading = all.map Token.reading) := by
  obtain ⟨lines, readings⟩ := exists_readings_ofText alone read
  have noImports := (Source.withoutImports_iff readings).mp alone
  have standsAlone := Source.standsAlone_of_readings (fun _ => Source.noEnd_of_mem_linesOf) readings
  obtain ⟨_, read', asLines⟩ := @ofText_of_readings files path text lines readings noImports
  obtain rfl := Except.ok.inj (read.symm.trans read')
  refine ⟨lines, readings, asLines, ?_⟩
  rintro spacing ended rfl
  have each {holds : List Token → Prop} (all : ∀ tokens ∈ spacing.map SpacedLine.tokens, holds tokens) :
      ∀ line ∈ spacing, holds line.tokens := fun line member => all _ (List.mem_map_of_mem member)
  obtain ⟨all', readAll, respaced⟩ := @ofText_spaced files path spacing (each standsAlone) (each noImports) ended
  refine ⟨all', readAll, respaced, fun whole => ?_⟩
  have unchanged : (spacing.map fun line => Spaced.reading line.spaced) =
      (spacing.map SpacedLine.tokens).map (List.map Token.reading) := by
    rw [List.map_map]
    exact List.map_congr_left fun line member => Spaced.reading_eq_map (each whole line member)
  rw [respaced, unchanged, asLines]

end TokenStream

/-- A text with blanks only where they must be, with comments, one of them over two lines, and with signs of comments in
a literal. -/
def gluedSentence : String :=
  "wenn(1,5+2)*3größer   gleich\"//\"/* \" */: // so\n/* noch\nnicht */.\n"

def spacedSentence : String :=
  "wenn ( 1,5 + 2 ) * 3 größer   gleich \"//\" :\n\n.\n"

theorem gluedSentence_spaced :
    ∃ all all', (TokenStream.ofText .none ⟨"satz"⟩ gluedSentence).allTokens = .ok all ∧
      (TokenStream.ofText .none ⟨"satz"⟩ spacedSentence).allTokens = .ok all' ∧
      all.map Token.text = ["wenn", "(", "1,5", "+", "2", ")", "*", "3", "größer   gleich", "\"//\"", ":", "\n", ".", "\n", ""] ∧
      all'.map Token.reading = all.map Token.reading := by
  have stream := TokenStream.ofText_eq .none ⟨"satz"⟩ gluedSentence (by decide +kernel)
  have computed : ((TokenStream.ofText .none ⟨"satz"⟩ gluedSentence).allTokens.map fun all => all.map Token.text).toOption =
      some ["wenn", "(", "1,5", "+", "2", ")", "*", "3", "größer   gleich", "\"//\"", ":", "\n", ".", "\n", ""] := by
    rw [stream]
    decide +kernel
  have alone : Source.WithoutImports false (Source.linesOf ⟨"satz"⟩ gluedSentence) := by
    unfold Source.WithoutImports
    decide +kernel
  obtain ⟨all, read, texts⟩ := exists_ok_of_view computed
  obtain ⟨lines, readings, _, spaced⟩ := TokenStream.spacing_insignificant alone read
  have isLines := Source.filterMap_readings readings
  have isSpaced : String.ofList (SpacedLine.text true (lines.map SpacedLine.plain)) = spacedSentence := by
    rw [← isLines]
    decide +kernel
  have same : (lines.map SpacedLine.plain).map SpacedLine.tokens = lines := by
    rw [List.map_map]
    exact (List.map_congr_left fun tokens _ => SpacedLine.tokens_plain tokens).trans (List.map_id lines)
  obtain ⟨all', read', _, unchanged⟩ := spaced _ true same
  rw [isSpaced] at read'
  have whole : ∀ tokens ∈ lines, tokens.IsChain fun t u => ¬t.SplitComparison u := by
    rw [← isLines]
    decide +kernel
  exact ⟨all, all', read, read', texts, unchanged whole⟩

end Satzbau

import Satzbau.Proofs.Partition.Pieces
import Satzbau.Proofs.Respelling.Spelling

namespace Satzbau

namespace Lexer

variable {c : Char}

theorem isWordCharacter_of_isBlank (blank : isBlank c = true) : isWordCharacter c = false := by
  have noLetter : isLetter c = false := by
    by_contra letter
    rw [isBlank_of_isLetter (Bool.not_eq_false _ ▸ letter)] at blank
    contradiction
  have noNumeral : isNumeral c = false :=
    not_inRanges_of_apart (show ∀ r ∈ blankRanges, ∀ s ∈ numeralRanges, r.2 < s.1 ∨ s.2 < r.1 by decide +kernel) blank
  have noUnderscore : (c == '_') = false := by
    refine beq_eq_false_iff_ne.mpr fun same => ?_
    rw [same] at blank
    contradiction
  rw [isWordCharacter, noLetter, noNumeral, noUnderscore]
  rfl

theorem isDigit_of_isBlank (blank : isBlank c = true) : c.isDigit = false :=
  isDigit_of_apart (show ∀ r ∈ blankRanges, r.2 < 48 ∨ 57 < r.1 by decide) blank

theorem ne_of_isBlank (blank : isBlank c = true) {d : Char} (other : isBlank d = false) : c ≠ d := by
  rintro rfl
  rw [blank] at other
  contradiction

/-- What follows a token that is set apart: nothing or a blank. -/
def SetsApart (behind : List Char) : Prop :=
  ∀ d ∈ behind.head?, isBlank d = true

variable {behind : List Char}

theorem SetsApart.noWord (apart : SetsApart behind) : ∀ d ∈ behind.head?, isWordCharacter d = false :=
  fun d front => isWordCharacter_of_isBlank (apart d front)

theorem setsApart_nil : SetsApart [] := nofun

theorem setsApart_append {blanks : List Char} (nonempty : blanks ≠ []) (all : ∀ c ∈ blanks, isBlank c = true)
    (rest : List Char) : SetsApart (blanks ++ rest) := by
  intro d front
  cases blanks with
  | nil => contradiction
  | cons c others =>
    cases front
    exact all _ (List.mem_cons_self ..)

theorem numberTail_of_setsApart (inFraction : Bool) (apart : SetsApart behind) : numberTail inFraction behind = 0 := by
  cases behind with
  | nil => rfl
  | cons c rest =>
    have blank := apart c rfl
    rw [numberTail, isDigit_of_isBlank blank, if_neg Bool.false_ne_true]
    split
    · rfl
    · rw [if_neg (ne_of_isBlank blank (by decide)), if_neg (ne_of_isBlank blank (by decide))]

theorem numberTail_digit (digit : c.isDigit = true) (inFraction : Bool) (rest : List Char) :
    numberTail inFraction (c :: rest) = numberTail inFraction rest + 1 := by
  rw [numberTail, if_pos digit]

/-- A sign goes on with a number only before a digit, and none does in the fraction. -/
theorem exists_digit_of_goesOn {inFraction : Bool} {rest : List Char}
    (goesOn : ¬(inFraction || !rest.head?.any Char.isDigit) = true) :
    inFraction = false ∧ ∃ d later, rest = d :: later ∧ d.isDigit = true := by
  have both : inFraction = false ∧ rest.head?.any Char.isDigit = true := by
    revert goesOn
    cases inFraction <;> cases rest.head?.any Char.isDigit <;> decide
  cases rest with
  | nil => exact absurd both.2 Bool.false_ne_true
  | cons d later => exact ⟨both.1, d, later, rfl, both.2⟩

/-- A number ends before a blank where it ended before. -/
theorem numberTail_local (inFraction : Bool) (text : List Char) (apart : SetsApart behind) :
    numberTail inFraction (text.take (numberTail inFraction text) ++ behind) = numberTail inFraction text := by
  -- The digit behind a sign is taken with it, so the sign still stands before a digit.
  have next {d : Char} (digit : d.isDigit = true) (f : Bool) (later : List Char) :
      ((d :: later).take (numberTail f (d :: later)) ++ behind).head?.any Char.isDigit = true := by
    rw [numberTail_digit digit]
    exact digit
  fun_induction numberTail inFraction text with
  | case1 inFraction => exact numberTail_of_setsApart inFraction apart
  | case2 inFraction c rest digit ih =>
    rw [List.take_succ_cons, List.cons_append, numberTail_digit digit, ih]
  | case3 inFraction c rest noDigit stops => exact numberTail_of_setsApart inFraction apart
  | case4 inFraction rest goesOn noDigit ih =>
    obtain ⟨rfl, d, later, rfl, digit⟩ := exists_digit_of_goesOn goesOn
    rw [List.take_succ_cons, List.cons_append, numberTail, if_neg noDigit, next digit, ih]
    rfl
  | case5 inFraction rest goesOn noDigit notPoint ih =>
    obtain ⟨rfl, d, later, rfl, digit⟩ := exists_digit_of_goesOn goesOn
    rw [List.take_succ_cons, List.cons_append, numberTail, if_neg noDigit, next digit, ih]
    rfl
  | case6 inFraction c rest noDigit goesOn notPoint notComma => exact numberTail_of_setsApart inFraction apart

/-- A literal is read up to its closing quote, whatever stands behind it. -/
theorem quoted_local {text : List Char} {q : Quoted} (read : quoted text = .ok q) (behind : List Char) :
    quoted (text.take q.length ++ behind) = .ok q := by
  fun_induction quoted text generalizing q with
  | case1 => contradiction
  | case2 => contradiction
  | case3 c rest value escaped ih =>
    obtain ⟨inner, readInner, rfl⟩ := extend_eq_ok read
    rw [List.take_succ_cons, List.take_succ_cons, List.cons_append, List.cons_append, quoted, escaped]
    dsimp only
    rw [ih readInner]
    rfl
  | case4 => contradiction
  | case5 rest =>
    cases read
    rw [List.take_succ_cons, List.cons_append, quoted_cons (by decide), if_pos rfl]
  | case6 c rest notAlone notEscape notQuote ih =>
    have notBackslash : c ≠ '\\' := by
      intro backslash
      cases rest with
      | nil => exact notAlone backslash rfl
      | cons d later => exact notEscape d later backslash rfl
    obtain ⟨inner, readInner, rfl⟩ := extend_eq_ok read
    rw [List.take_succ_cons, List.cons_append, quoted_cons notBackslash, if_neg notQuote, ih readInner]
    rfl

/-- A sign is read from its own characters. -/
theorem sign?_local {rest : List Char} {kind : TokenKind} {length : Nat} (found : sign? c rest.head? = some (kind, length))
    (apart : SetsApart behind) : sign? c (rest.take (length - 1) ++ behind).head? = some (kind, length) := by
  have noDouble : doubleSign? c behind.head? = none := by
    cases next : behind.head? with
    | none => rfl
    | some d =>
      have second : ∀ entry ∈ doubleSigns, isBlank entry.1.2 = false := by decide
      refine List.lookup_eq_none_iff.mpr fun entry inside => bne_iff_ne.mpr fun same => ?_
      have isSecond : d = entry.1.2 := congrArg Prod.snd same
      exact ne_of_isBlank (apart d next) (second entry inside) isSecond
  unfold sign? at found ⊢
  split at found
  · rename_i double
    cases found
    cases rest with
    | nil => contradiction
    | cons d later =>
      have sameNext : ((d :: later).take (2 - 1) ++ behind).head? = (d :: later).head? := rfl
      rw [sameNext, double]
  · obtain ⟨kind', single, same⟩ := Option.map_eq_some_iff.mp found
    cases same
    rw [Nat.sub_self, List.take_zero, List.nil_append, noDouble]
    exact found

/-- The operator that a word and a `gleich` behind it are together, if they are one. -/
def comparison? (word : String) : Option Operator :=
  (Operator.ofWord? word).bind Operator.orEqual?

/-- Behind a comparison there is nothing that would make it a longer one. -/
def Quiet (text behind : List Char) : Prop :=
  (comparison? (String.ofList text)).isSome = true → orEqualTail? behind = none

theorem dropWhile_append_stop {accepts : Char → Bool} {text rest : List Char} (all : ∀ c ∈ text, accepts c = true)
    (stops : ∀ d ∈ rest.head?, accepts d = false) : (text ++ rest).dropWhile accepts = rest := by
  rw [List.dropWhile_append_of_pos all]
  cases rest with
  | nil => rfl
  | cons d later =>
    have stop : ¬accepts d = true := by
      rw [stops d rfl]
      exact Bool.false_ne_true
    rw [List.dropWhile_cons_of_neg stop]

theorem head?_dropWhile_stop (accepts : Char → Bool) (text : List Char) :
    ∀ d ∈ (text.dropWhile accepts).head?, accepts d = false := by
  intro d front
  have outside := List.head?_dropWhile_not accepts text
  rw [front] at outside
  exact outside

theorem isWordCharacter_of_mem_equal : ∀ c ∈ Operator.equal.word.toList, isWordCharacter c = true :=
  List.all_eq_true.mp (by decide +kernel)

/-- A `gleich` follows behind spaces and tabs, of which there is at least one. -/
theorem orEqualTail?_append {blanks : List Char} (nonempty : blanks ≠ []) (all : ∀ c ∈ blanks, isSpaceOrTab c = true)
    (stops : ∀ d ∈ behind.head?, isWordCharacter d = false) :
    orEqualTail? (blanks ++ (Operator.equal.word.toList ++ behind)) =
      some (blanks.length + Operator.equal.word.toList.length) := by
  have front : ∀ d ∈ (Operator.equal.word.toList ++ behind).head?, isSpaceOrTab d = false := by
    rintro _ ⟨⟩
    decide
  unfold orEqualTail?
  rw [takeWhile_append_stop all front, dropWhile_append_stop all front, takeWhile_append_stop isWordCharacter_of_mem_equal stops]
  exact if_pos ⟨nonempty, String.ofList_toList⟩

theorem exists_of_orEqualTail? {rest : List Char} {tail : Nat} (found : orEqualTail? rest = some tail) :
    ∃ blanks later, rest = blanks ++ (Operator.equal.word.toList ++ later) ∧ blanks ≠ [] ∧
      (∀ c ∈ blanks, isSpaceOrTab c = true) ∧ (∀ d ∈ later.head?, isWordCharacter d = false) ∧
        tail = blanks.length + Operator.equal.word.toList.length := by
  unfold orEqualTail? at found
  dsimp only at found
  split at found
  · rename_i follows
    obtain ⟨nonempty, isEqual⟩ := follows
    have next : (rest.dropWhile isSpaceOrTab).takeWhile isWordCharacter = Operator.equal.word.toList := by
      rw [← isEqual, String.toList_ofList]
    cases found
    refine ⟨_, (rest.dropWhile isSpaceOrTab).dropWhile isWordCharacter, ?_, nonempty,
      fun c member => List.mem_takeWhile_imp member, head?_dropWhile_stop _ _, by rw [next]⟩
    rw [← next, List.takeWhile_append_dropWhile, List.takeWhile_append_dropWhile]
  · contradiction

/-- The kind of a word for itself. -/
def wordKind (spelling : String) : TokenKind :=
  (Operator.ofWord? spelling).elim (plainWordKind spelling) .operator

section Word

variable {letters : List Char} (all : ∀ c ∈ letters, isWordCharacter c = true)
  (stops : ∀ d ∈ behind.head?, isWordCharacter d = false)

include all stops

theorem word_of_quiet (quiet : Quiet letters behind) :
    word (letters ++ behind) = (wordKind (String.ofList letters), letters.length) := by
  unfold word wordKind
  rw [takeWhile_append_stop all stops, dropWhile_append_stop all stops]
  dsimp only
  cases known : Operator.ofWord? (String.ofList letters) with
  | none => rfl
  | some operator =>
    cases longer : operator.orEqual? with
    | none =>
      dsimp only
      rw [longer]
      rfl
    | some compound =>
      have alone : orEqualTail? behind = none := quiet (by rw [comparison?, known, Option.bind_some, longer]; rfl)
      dsimp only
      rw [alone, longer]
      rfl

theorem word_of_comparison {compound : Operator} {tail : Nat} (compares : comparison? (String.ofList letters) = some compound)
    (follows : orEqualTail? behind = some tail) : word (letters ++ behind) = (.operator compound, letters.length + tail) := by
  obtain ⟨operator, known, longer⟩ := Option.bind_eq_some_iff.mp compares
  unfold word
  rw [takeWhile_append_stop all stops, dropWhile_append_stop all stops]
  dsimp only
  rw [known]
  dsimp only
  rw [follows, longer]

end Word

theorem exists_letters (text : List Char) : ∃ letters after, text = letters ++ after ∧
    (∀ c ∈ letters, isWordCharacter c = true) ∧ ∀ d ∈ after.head?, isWordCharacter d = false :=
  ⟨_, _, List.takeWhile_append_dropWhile.symm, fun _ member => List.mem_takeWhile_imp member,
    head?_dropWhile_stop isWordCharacter text⟩

/-- A word is read from its own characters, and a comparison of two words from those of both. -/
theorem word_local {text : List Char} {kind : TokenKind} {length : Nat} (found : word text = (kind, length))
    (apart : SetsApart behind) (quiet : Quiet (text.take length) behind) :
    word (text.take length ++ behind) = (kind, length) := by
  obtain ⟨letters, after, rfl, all, stops⟩ := exists_letters text
  by_cases alone : Quiet letters after
  · rw [word_of_quiet all stops alone] at found
    cases found
    rw [List.take_left] at quiet ⊢
    exact word_of_quiet all apart.noWord quiet
  · unfold Quiet at alone
    rw [Classical.not_imp] at alone
    obtain ⟨compares, follows⟩ := alone
    obtain ⟨compound, compares⟩ := Option.isSome_iff_exists.mp compares
    obtain ⟨tail, follows⟩ := Option.ne_none_iff_exists'.mp follows
    rw [word_of_comparison all stops compares follows] at found
    cases found
    obtain ⟨blanks, later, rfl, nonempty, spaces, _, rfl⟩ := exists_of_orEqualTail? follows
    rw [List.take_length_add_append, List.take_length_add_append, List.take_left, List.append_assoc, List.append_assoc]
    refine word_of_comparison all ?_ compares (orEqualTail?_append nonempty spaces apart.noWord)
    intro d front
    refine stops d ?_
    cases blanks with
    | nil => contradiction
    | cons b others => exact front

/-- A token is read from its own characters where nothing or a blank follows, unless it is a comparison that would
become a longer one. -/
theorem lexeme_local {rest : List Char} {kind : TokenKind} {length : Nat} (found : lexeme c rest = .ok (kind, length))
    (apart : SetsApart behind) (quiet : Quiet ((c :: rest).take length) behind) :
    lexeme c (rest.take (length - 1) ++ behind) = .ok (kind, length) := by
  unfold lexeme at found ⊢
  split at found
  · rename_i quote
    rw [if_pos quote]
    split at found
    · rename_i q read
      cases found
      rw [Nat.add_sub_cancel, quoted_local read]
    · contradiction
    · contradiction
  · rename_i notQuote
    rw [if_neg notQuote]
    split at found
    · rename_i digit
      rw [if_pos digit]
      cases found
      have bound := numberTail_le false rest
      rw [Nat.add_sub_cancel, numberTail_local false rest apart]
      dsimp only
      rw [List.take_succ_cons, List.take_succ_cons,
        List.take_append_of_le_length (by rw [List.length_take, Nat.min_eq_left bound]), List.take_take, Nat.min_self]
    · rename_i notDigit
      rw [if_neg notDigit]
      split at found
      · rename_i letter
        rw [if_pos letter]
        have positive := word_pos letter rest
        rw [Except.ok.inj found] at positive
        obtain ⟨n, rfl⟩ : ∃ n, length = n + 1 := ⟨length - 1, (Nat.sub_add_cancel positive).symm⟩
        exact congrArg _ (word_local (Except.ok.inj found) apart quiet)
      · rename_i notLetter
        rw [if_neg notLetter]
        split at found
        · rename_i signed
          cases found
          rw [sign?_local signed apart]
        · contradiction

/-- A text that is one token, the whole of it. -/
def Stands (kind : TokenKind) (text : List Char) : Prop :=
  ∃ c rest, text = c :: rest ∧ lexeme c rest = .ok (kind, text.length)

variable {kind : TokenKind} {text rest : List Char} {length : Nat}

/-- What is read as a token is that token also for itself. -/
theorem stands_of_lexeme (found : lexeme c rest = .ok (kind, length)) : Stands kind ((c :: rest).take length) := by
  obtain ⟨positive, bound⟩ := lexeme_length found
  have alone := lexeme_local found setsApart_nil fun _ => rfl
  rw [List.append_nil] at alone
  refine ⟨c, rest.take (length - 1), ?_, ?_⟩
  · rw [← List.take_succ_cons, Nat.sub_add_cancel positive]
  · rw [alone, List.length_take, List.length_cons, Nat.min_eq_left bound]

theorem mem_doubleSigns {next : Option Char} (found : doubleSign? c next = some kind) :
    ∃ d, ((c, d), kind) ∈ doubleSigns := by
  obtain ⟨d, _, inTable⟩ := Option.bind_eq_some_iff.mp found
  obtain ⟨_, _, cut, _⟩ := List.lookup_eq_some_iff.mp inTable
  exact ⟨d, by rw [cut]; simp⟩

theorem sign?_forall_char {holds : Char → Prop} (doubles : ∀ entry ∈ doubleSigns, holds entry.1.1)
    (singles : ∀ entry ∈ singleSigns, holds entry.1) {next : Option Char} (found : sign? c next = some (kind, length)) :
    holds c := by
  unfold sign? at found
  split at found
  · rename_i double
    obtain ⟨d, inTable⟩ := mem_doubleSigns double
    exact doubles _ inTable
  · obtain ⟨kind', inTable, _⟩ := Option.map_eq_some_iff.mp found
    obtain ⟨_, _, cut, _⟩ := List.lookup_eq_some_iff.mp inTable
    exact singles (c, kind') (by rw [cut]; simp)

theorem lexeme_not_blank (found : lexeme c rest = .ok (kind, length)) : isBlank c = false := by
  unfold lexeme at found
  split at found
  · rename_i quote
    rw [quote]
    decide
  · split at found
    · rename_i digit
      by_contra blank
      rw [isDigit_of_isBlank (Bool.not_eq_false _ ▸ blank)] at digit
      contradiction
    · split at found
      · rename_i letter
        exact isBlank_of_isLetter letter
      · split at found
        · rename_i signed
          cases found
          exact @sign?_forall_char _ _ _ (isBlank · = false) (by decide) (by decide) _ signed
        · contradiction

/-- A slash that is a token is only a slash. -/
theorem lexeme_slash (found : lexeme '/' rest = .ok (kind, length)) : length = 1 := by
  unfold lexeme at found
  rw [if_neg (by decide), if_neg (by decide), if_neg (by decide +kernel)] at found
  split at found
  · rename_i signed
    cases found
    unfold sign? at signed
    split at signed
    · rename_i double
      obtain ⟨d, inTable⟩ := mem_doubleSigns double
      have first : ∀ entry ∈ doubleSigns, entry.1.1 ≠ '/' := by decide
      exact absurd rfl (first _ inTable)
    · obtain ⟨_, _, same⟩ := Option.map_eq_some_iff.mp signed
      exact (congrArg Prod.snd same).symm
  · contradiction

/-- A token is read in front of what is set apart from it. -/
theorem Line.Reads.stands {line : Line} {reading : List (TokenKind × String)} (stands : Stands kind text)
    (apart : SetsApart behind) (quiet : Quiet text behind) (reads : line.Reads behind reading) :
    line.Reads (text ++ behind) ((kind, String.ofList text) :: reading) := by
  obtain ⟨c, rest, rfl, alone⟩ := stands
  have taken : (c :: rest).take (c :: rest).length = c :: rest := List.take_length
  have found : lexeme c (rest ++ behind) = .ok (kind, (c :: rest).length) := by
    have there := lexeme_local alone apart (taken.symm ▸ quiet)
    rwa [List.length_cons, Nat.add_sub_cancel, List.take_length] at there
  have noComment (d : Char) (other : isBlank d = false) : ¬(c = '/' ∧ (rest ++ behind).head? = some d) := by
    rintro ⟨rfl, front⟩
    have short := lexeme_slash alone
    rw [List.length_eq_zero_iff.mp (Nat.succ.inj short), List.nil_append] at front
    exact ne_of_isBlank (apart d front) other rfl
  have begins : BeginsToken c (rest ++ behind) :=
    ⟨Bool.eq_false_iff.mp (lexeme_not_blank found), noComment '/' (by decide), noComment '*' (by decide)⟩
  intro column
  obtain ⟨later, read, same⟩ := reads (column + (c :: rest).length)
  refine ⟨line.token column kind (c :: rest) :: later, ?_, by rw [List.map_cons, same]; rfl⟩
  rw [List.cons_append, tokensFrom_token line column begins found, ← List.cons_append, List.take_left,
    List.length_cons, Nat.add_sub_cancel, List.drop_left, ← List.length_cons, read]
  rfl

end Lexer

end Satzbau

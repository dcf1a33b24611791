import Satzbau.Proofs.Lexing

namespace Satzbau.Lexer

theorem takeWhile_append_singleton {accepts : Char → Bool} {c : Char} (rejected : accepts c = false) (text : List Char) :
    (text ++ [c]).takeWhile accepts = text.takeWhile accepts := by
  have stop : ¬accepts c = true := by simp [rejected]
  induction text with
  | nil => exact List.takeWhile_cons_of_neg stop
  | cons d rest ih =>
    rw [List.cons_append, List.takeWhile_cons, List.takeWhile_cons, ih]

theorem dropWhile_append_singleton {accepts : Char → Bool} {c : Char} (rejected : accepts c = false) (text : List Char) :
    (text ++ [c]).dropWhile accepts = text.dropWhile accepts ++ [c] := by
  have stop : ¬accepts c = true := by simp [rejected]
  induction text with
  | nil => exact List.dropWhile_cons_of_neg stop
  | cons d rest ih =>
    rw [List.cons_append, List.dropWhile_cons, List.dropWhile_cons, ih]
    split <;> rfl

theorem head?_append_return (text : List Char) {d : Char} (other : d ≠ '\r') :
    (text ++ ['\r']).head? = some d ↔ text.head? = some d := by
  cases text with
  | nil =>
    constructor
    · rintro ⟨⟩
      exact absurd rfl other
    · exact nofun
  | cons c rest => exact Iff.rfl

theorem numberTail_return (inFraction : Bool) (text : List Char) :
    numberTail inFraction (text ++ ['\r']) = numberTail inFraction text := by
  induction text generalizing inFraction with
  | nil => cases inFraction <;> decide
  | cons c rest ih =>
    have next : (rest ++ ['\r']).head?.any Char.isDigit = rest.head?.any Char.isDigit := by
      cases rest <;> rfl
    simp only [List.cons_append, numberTail, ih, next]

theorem sign?_return (c : Char) (rest : List Char) : sign? c (rest ++ ['\r']).head? = sign? c rest.head? := by
  cases rest with
  | cons d later => rfl
  | nil =>
    have noDouble : doubleSigns.lookup (c, '\r') = none := by
      have second : ∀ entry ∈ doubleSigns, entry.1.2 ≠ '\r' := by decide
      refine List.lookup_eq_none_iff.mpr fun entry inside => ?_
      exact bne_iff_ne.mpr fun same => second entry inside (congrArg Prod.snd same).symm
    show sign? c (some '\r') = sign? c none
    unfold sign? doubleSign?
    rw [Option.bind_some, noDouble]
    rfl

theorem orEqualTail?_return (rest : List Char) : orEqualTail? (rest ++ ['\r']) = orEqualTail? rest := by
  have notBlank : isSpaceOrTab '\r' = false := by decide
  have notWord : isWordCharacter '\r' = false := by decide +kernel
  unfold orEqualTail?
  rw [takeWhile_append_singleton notBlank, dropWhile_append_singleton notBlank, takeWhile_append_singleton notWord]

theorem word_return (text : List Char) : word (text ++ ['\r']) = word text := by
  have rejected : isWordCharacter '\r' = false := by decide +kernel
  unfold word
  rw [takeWhile_append_singleton rejected, dropWhile_append_singleton rejected, orEqualTail?_return]

theorem extend_eq_ok {n : Nat} {c : Char} {result : Except QuotedFault Quoted} {q : Quoted}
    (extended : Quoted.extend n c result = .ok q) : ∃ inner, result = .ok inner ∧ q = ⟨c :: inner.value, inner.length + n⟩ := by
  cases result with
  | error fault => contradiction
  | ok inner =>
    cases extended
    exact ⟨inner, rfl, rfl⟩

theorem quoted_cons {c : Char} (notBackslash : c ≠ '\\') (rest : List Char) :
    quoted (c :: rest) = if c = '"' then .ok ⟨[], 1⟩ else Quoted.extend 1 c (quoted rest) := by
  rw [quoted]
  · exact fun backslash _ => notBackslash backslash
  · exact fun _ _ backslash _ => notBackslash backslash

/-- A literal that is closed before a carriage return does not notice it. -/
theorem quoted_return {text : List Char} {q : Quoted} (read : quoted (text ++ ['\r']) = .ok q) :
    quoted text = .ok q ∧ q.length ≤ text.length := by
  fun_induction quoted text generalizing q with
  | case1 => contradiction
  | case2 => contradiction
  | case3 c rest value escaped ih =>
    simp only [List.cons_append, quoted, escaped] at read
    obtain ⟨inner, readInner, rfl⟩ := extend_eq_ok read
    obtain ⟨known, bound⟩ := ih readInner
    refine ⟨by rw [known]; rfl, ?_⟩
    simp only [List.length_cons]
    omega
  | case4 c rest unescaped =>
    simp only [List.cons_append, quoted, unescaped] at read
    contradiction
  | case5 rest =>
    rw [List.cons_append, quoted_cons (by decide), if_pos rfl] at read
    cases read
    exact ⟨rfl, Nat.le_add_left ..⟩
  | case6 c rest notAlone notEscape notQuote ih =>
    have notBackslash : c ≠ '\\' := by
      intro backslash
      cases rest with
      | nil => exact notAlone backslash rfl
      | cons d later => exact notEscape d later backslash rfl
    rw [List.cons_append, quoted_cons notBackslash, if_neg notQuote] at read
    obtain ⟨inner, readInner, rfl⟩ := extend_eq_ok read
    obtain ⟨known, bound⟩ := ih readInner
    refine ⟨by rw [known]; rfl, ?_⟩
    simp only [List.length_cons]
    omega

theorem numberTail_le (inFraction : Bool) (text : List Char) : numberTail inFraction text ≤ text.length := by
  fun_induction numberTail inFraction text with
  | case1 => exact Nat.le_refl 0
  | case2 _ c rest _ ih => simpa using ih
  | case3 => exact Nat.zero_le _
  | case4 _ rest _ _ ih => simpa using ih
  | case5 _ rest _ _ _ ih => simpa using ih
  | case6 => exact Nat.zero_le _

theorem length_takeWhile_add_dropWhile (accepts : Char → Bool) (text : List Char) :
    (text.takeWhile accepts).length + (text.dropWhile accepts).length = text.length := by
  rw [← List.length_append, List.takeWhile_append_dropWhile]

theorem orEqualTail?_le {rest : List Char} {tail : Nat} (found : orEqualTail? rest = some tail) : tail ≤ rest.length := by
  unfold orEqualTail? at found
  dsimp only at found
  split at found
  · cases found
    have blanks := length_takeWhile_add_dropWhile isSpaceOrTab rest
    have next := length_takeWhile_add_dropWhile isWordCharacter (rest.dropWhile isSpaceOrTab)
    omega
  · contradiction

theorem word_le (text : List Char) : (word text).2 ≤ text.length := by
  have parts := length_takeWhile_add_dropWhile isWordCharacter text
  unfold word
  dsimp only
  split
  · show (text.takeWhile isWordCharacter).length ≤ text.length
    omega
  · split
    · rename_i tail _ found
      have bound := orEqualTail?_le found
      show (text.takeWhile isWordCharacter).length + tail ≤ text.length
      omega
    · show (text.takeWhile isWordCharacter).length ≤ text.length
      omega

theorem sign?_le {c : Char} {rest : List Char} {kind : TokenKind} {length : Nat}
    (found : sign? c rest.head? = some (kind, length)) : length ≤ rest.length + 1 := by
  unfold sign? at found
  split at found
  · rename_i double
    cases found
    cases rest with
    | nil => contradiction
    | cons d later => simp
  · obtain ⟨_, _, same⟩ := Option.map_eq_some_iff.mp found
    cases same
    exact Nat.le_add_left ..

/-- What is read at the front of a line does not depend on a carriage return at its end. -/
theorem lexeme_return {c : Char} {rest : List Char} {kind : TokenKind} {length : Nat}
    (read : lexeme c (rest ++ ['\r']) = .ok (kind, length)) :
    lexeme c rest = .ok (kind, length) ∧ length ≤ rest.length + 1 := by
  unfold lexeme at read ⊢
  split at read
  · rename_i quote
    rw [if_pos quote]
    split at read
    · rename_i q readQuoted
      obtain ⟨known, bound⟩ := quoted_return readQuoted
      cases read
      rw [known]
      exact ⟨rfl, Nat.add_le_add_right bound 1⟩
    · contradiction
    · contradiction
  · rename_i notQuote
    rw [if_neg notQuote]
    split at read
    · rename_i digit
      have bound := numberTail_le false rest
      have same : (c :: (rest ++ ['\r'])).take (numberTail false rest + 1) = (c :: rest).take (numberTail false rest + 1) := by
        rw [← List.cons_append]
        exact List.take_append_of_le_length (by simpa using bound)
      rw [numberTail_return] at read
      dsimp only at read
      rw [same] at read
      rw [if_pos digit]
      cases read
      exact ⟨rfl, Nat.add_le_add_right bound 1⟩
    · rename_i notDigit
      rw [if_neg notDigit]
      split at read
      · rename_i letter
        have bound := word_le (c :: rest)
        rw [← List.cons_append, word_return] at read
        rw [if_pos letter]
        refine ⟨read, ?_⟩
        rw [Except.ok.inj read] at bound
        exact bound
      · rename_i notLetter
        rw [if_neg notLetter]
        rw [sign?_return] at read
        split at read
        · rename_i sign found
          cases read
          exact ⟨rfl, sign?_le found⟩
        · contradiction

/-- Tokens tell the file and the number of their line, but not its text. -/
theorem tokensFrom_congr (file : String) (number : Nat) (text text' : List Char) (column : Nat) (inComment : Bool)
    (rest : List Char) :
    Line.tokensFrom ⟨file, number, text⟩ column inComment rest = Line.tokensFrom ⟨file, number, text'⟩ column inComment rest := by
  fun_induction Line.tokensFrom ⟨file, number, text⟩ column inComment rest with
  | case1 => rw [tokensFrom_nil]
  | case2 column c rest closes ih => rw [tokensFrom_closing _ _ closes, ih]
  | case3 column c rest goesOn ih => rw [tokensFrom_inComment _ _ goesOn, ih]
  | case4 column inComment c rest outside blank ih =>
    obtain rfl : inComment = false := Bool.eq_false_iff.mpr outside
    rw [tokensFrom_blank _ _ blank, ih]
  | case5 column inComment c rest outside _ opens =>
    obtain rfl : inComment = false := Bool.eq_false_iff.mpr outside
    rw [tokensFrom_lineComment _ _ opens]
  | case6 column inComment c rest outside _ _ opens ih =>
    obtain rfl : inComment = false := Bool.eq_false_iff.mpr outside
    rw [tokensFrom_opening _ _ opens, ih]
  | case7 column inComment c rest outside notBlank notLine notBlock flaw failed =>
    obtain rfl : inComment = false := Bool.eq_false_iff.mpr outside
    rw [tokensFrom_flaw _ _ ⟨notBlank, notLine, notBlock⟩ failed]
    rfl
  | case8 column inComment c rest outside notBlank notLine notBlock kind length found token later =>
    rename_i ih
    obtain rfl : inComment = false := Bool.eq_false_iff.mpr outside
    rw [tokensFrom_token _ _ ⟨notBlank, notLine, notBlock⟩ found, ← ih]
    rfl

/-- Behind a token that can be read with a carriage return at the end of the line, the line goes on as
it does without it. -/
theorem lexeme_return_split {c : Char} {rest : List Char} {kind : TokenKind} {length : Nat}
    (read : lexeme c (rest ++ ['\r']) = .ok (kind, length)) :
    (c :: (rest ++ ['\r'])).take length = (c :: rest).take length ∧
      (rest ++ ['\r']).drop (length - 1) = rest.drop (length - 1) ++ ['\r'] := by
  have bound := (lexeme_return read).2
  constructor
  · rw [← List.cons_append]
    exact List.take_append_of_le_length bound
  · exact List.drop_append_of_le_length (Nat.sub_le_of_le_add bound)

theorem head?_and_append_return {c d : Char} (other : d ≠ '\r') (rest : List Char) (first : Char) :
    c = first ∧ (rest ++ ['\r']).head? = some d ↔ c = first ∧ rest.head? = some d :=
  and_congr_right fun _ => head?_append_return rest other

theorem tail_append_return {rest : List Char} {d : Char} (front : rest.head? = some d) :
    (rest ++ ['\r']).tail = rest.tail ++ ['\r'] := by
  cases rest with
  | nil => contradiction
  | cons e later => rfl

theorem BeginsToken.return {c : Char} {rest : List Char} (begins : BeginsToken c rest) :
    BeginsToken c (rest ++ ['\r']) where
  notBlank := begins.notBlank
  noLineComment := fun both => begins.noLineComment ((head?_and_append_return (by decide) rest '/').mp both)
  noBlockComment := fun both => begins.noBlockComment ((head?_and_append_return (by decide) rest '/').mp both)

/-- A carriage return at the end of a line that is read without a fault changes nothing. -/
theorem tokensFrom_return (line : Line) (column : Nat) (inComment : Bool) (text : List Char) {tokens : List Token}
    (read : (line.tokensFrom column inComment (text ++ ['\r'])).1 = .ok tokens) :
    line.tokensFrom column inComment (text ++ ['\r']) = line.tokensFrom column inComment text := by
  have slash {c : Char} {rest : List Char} := @head?_and_append_return c '/' (by decide) rest
  have star {c : Char} {rest : List Char} := @head?_and_append_return c '*' (by decide) rest
  fun_induction line.tokensFrom column inComment text generalizing tokens with
  | case1 column inComment =>
    cases inComment with
    | true => rw [List.nil_append, tokensFrom_inComment line column (by decide), tokensFrom_nil]
    | false => rw [List.nil_append, tokensFrom_blank line column (by decide), tokensFrom_nil]
  | case2 column c rest closes ih =>
    rw [List.cons_append, tokensFrom_closing line column ((slash '*').mpr closes), tail_append_return closes.2] at read ⊢
    exact ih read
  | case3 column c rest goesOn ih =>
    rw [List.cons_append, tokensFrom_inComment line column (goesOn ∘ (slash '*').mp)] at read ⊢
    exact ih read
  | case4 column inComment c rest outside blank ih =>
    obtain rfl : inComment = false := Bool.eq_false_iff.mpr outside
    rw [List.cons_append, tokensFrom_blank line column blank] at read ⊢
    exact ih read
  | case5 column inComment c rest outside _ opens =>
    obtain rfl : inComment = false := Bool.eq_false_iff.mpr outside
    rw [List.cons_append, tokensFrom_lineComment line column ((slash '/').mpr opens)]
  | case6 column inComment c rest outside _ _ opens ih =>
    obtain rfl : inComment = false := Bool.eq_false_iff.mpr outside
    rw [List.cons_append, tokensFrom_opening line column ((star '/').mpr opens), tail_append_return opens.2] at read ⊢
    exact ih read
  | case7 column inComment c rest outside notBlank notLine notBlock flaw failed =>
    obtain rfl : inComment = false := Bool.eq_false_iff.mpr outside
    have begins : BeginsToken c rest := ⟨notBlank, notLine, notBlock⟩
    -- without the carriage return there would be the same token, and no fault
    cases found : lexeme c (rest ++ ['\r']) with
    | error other =>
      rw [List.cons_append, tokensFrom_flaw line column begins.return found] at read
      contradiction
    | ok step =>
      rw [(lexeme_return found).1] at failed
      contradiction
  | case8 column inComment c rest outside notBlank notLine notBlock kind length found token later =>
    rename_i ih
    obtain rfl : inComment = false := Bool.eq_false_iff.mpr outside
    have begins : BeginsToken c rest := ⟨notBlank, notLine, notBlock⟩
    cases found' : lexeme c (rest ++ ['\r']) with
    | error flaw =>
      rw [List.cons_append, tokensFrom_flaw line column begins.return found'] at read
      contradiction
    | ok step =>
      obtain ⟨rfl, rfl⟩ : step.1 = kind ∧ step.2 = length :=
        Prod.mk.inj (Except.ok.inj ((lexeme_return found').1.symm.trans found))
      obtain ⟨taken, dropped⟩ := lexeme_return_split found'
      rw [List.cons_append, tokensFrom_token line column begins.return found', taken, dropped] at read ⊢
      cases result : (line.tokensFrom (column + step.2) false (rest.drop (step.2 - 1) ++ ['\r'])).1 with
      | error fault =>
        rw [result] at read
        contradiction
      | ok others => rw [← result, ih result]

end Satzbau.Lexer

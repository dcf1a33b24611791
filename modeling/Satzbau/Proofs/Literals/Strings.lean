import Satzbau.Proofs.Lexing
import Satzbau.Proofs.Literals.Escapes
import Satzbau.Proofs.Partition.Pieces
import Satzbau.Proofs.Text

namespace Satzbau.Lexer

theorem word_not_string (text : List Char) (value : String) : (word text).1 ≠ .string value := by
  intro isString
  cases plain : (word text).1.isPlainWord with
  | true =>
    rw [isString] at plain
    contradiction
  | false =>
    unfold word at isString plain
    dsimp only at isString plain
    split at isString
    · rename_i noOperator
      rw [noOperator] at plain
      dsimp only at plain
      rw [plainWordKind_plain] at plain
      contradiction
    · split at isString <;> contradiction

/-- Only a literal has a string for its kind. -/
theorem lexeme_string {c : Char} {rest : List Char} {value : String} {length : Nat}
    (found : lexeme c rest = .ok (.string value, length)) :
    c = '"' ∧ ∃ q, quoted rest = .ok q ∧ value = String.ofList q.value ∧ length = q.length + 1 := by
  unfold lexeme at found
  split at found
  · rename_i quote
    split at found
    · rename_i q read
      cases found
      exact ⟨quote, q, read, rfl, rfl⟩
    · contradiction
    · contradiction
  · split at found
    · cases found
    · split at found
      · have isWord := congrArg Prod.fst (Except.ok.inj found)
        exact absurd isWord (word_not_string (c :: rest) value)
      · split at found
        · rename_i signed
          cases found
          exact absurd rfl (@sign?_forall (· ≠ .string value) (by simp [doubleSigns]) (by simp [singleSigns]) _ _ _ _ signed)
        · contradiction

theorem lexeme_quote (text : List Char) :
    lexeme '"' text =
      match quoted text with
      | .ok q => .ok (.string (String.ofList q.value), q.length + 1)
      | .error .unterminated => .error ⟨.unterminatedString, 0, text.length + 1⟩
      | .error (.badEscape before c) => .error ⟨.invalidEscape c, before + 1, 2⟩ := by
  cases read : quoted text with
  | ok q => rw [lexeme, if_pos rfl, read]
  | error fault => cases fault <;> rw [lexeme, if_pos rfl, read]

/-- A text up to the quote that closes it is its own literal. -/
theorem ClosesAt.take {text : List Char} {index : Nat} (closes : ClosesAt text index) :
    text.take (index + 1) = text.take index ++ ['"'] ∧ ClosesAt (text.take index ++ ['"']) index := by
  have inText := closes.1.lt
  have whole : text.take (index + 1) = text.take index ++ ['"'] := by
    rw [List.take_add_one, closes.1.1]
    rfl
  have same (i : Nat) (upTo : i ≤ index) (d : Char) : UnescapedAt (text.take (index + 1)) i d ↔ UnescapedAt text i d := by
    have inside : i < index + 1 := by omega
    have least : min i (index + 1) = i := by omega
    unfold UnescapedAt
    rw [List.getElem?_take_of_lt inside, List.take_take, least]
  rw [← whole]
  refine ⟨rfl, (same index (Nat.le_refl _) '"').mpr closes.1, fun i before unescaped => ?_⟩
  exact closes.2 i before ((same i (Nat.le_of_lt before) '"').mp unescaped)

/-- How string literals are read where a line goes on with a quote. -/
structure Line.ReadsLiterals (line : Line) (column : Nat) : Prop where
  /-- Every value can be written, and is read back from what is written, whatever stands behind it. -/
  written : ∀ value behind, line.ReadsFirst column (.string (String.ofList value)) ('"' :: (escaped value ++ ['"'])) behind
  exact : ∀ text result, quoted text = result ↔ Literal text result
  closed : ∀ text q, Literal text (.ok q) →
    line.ReadsFirst column (.string (String.ofList q.value)) ('"' :: text.take q.length) (text.drop q.length)
  unterminated : ∀ text, Literal text (.error .unterminated) → line.tokensFrom column false ('"' :: text) =
    (.error (.located (line.location column ('"' :: text)) .unterminatedString), false)
  badEscape : ∀ text before c, Literal text (.error (.badEscape before c)) → line.tokensFrom column false ('"' :: text) =
    (.error (.located (line.location (column + 1 + before) ['\\', c]) (.invalidEscape c)), false)
  /-- What a string token on the line says is the value of the text between its quotes, the second of which is the first
  one that is not escaped. -/
  decoded : ∀ inComment tokens, (line.tokens inComment).1 = .ok tokens → ∀ t ∈ tokens, ∀ value, t.kind = .string value →
    ∃ body, t.text.toList = '"' :: (body ++ ['"']) ∧ Decodes body value.toList ∧ ClosesAt (body ++ ['"']) body.length

section Quote

variable (line : Line) (column : Nat) {text : List Char}

theorem Line.readsFirst_closed {q : Quoted} (literal : Literal text (.ok q)) :
    line.ReadsFirst column (.string (String.ofList q.value)) ('"' :: text.take q.length) (text.drop q.length) := by
  have found : lexeme '"' text = .ok (.string (String.ofList q.value), q.length + 1) := by
    rw [lexeme_quote, literal.quoted_eq]
  exact line.readsFirst (.of_ne (by decide) (by decide)) column found

theorem Line.fails_unterminated (literal : Literal text (.error .unterminated)) :
    line.tokensFrom column false ('"' :: text) =
      (.error (.located (line.location column ('"' :: text)) .unterminatedString), false) := by
  have found : lexeme '"' text = .error ⟨.unterminatedString, 0, text.length + 1⟩ := by
    rw [lexeme_quote, literal.quoted_eq]
  have all : ('"' :: text).take (text.length + 1) = '"' :: text := List.take_of_length_le (Nat.le_refl _)
  rw [tokensFrom_flaw line column (.of_ne (by decide) (by decide)) found, Line.flaw, List.drop_zero, all]
  rfl

theorem Line.fails_badEscape {before : Nat} {c : Char} (literal : Literal text (.error (.badEscape before c))) :
    line.tokensFrom column false ('"' :: text) =
      (.error (.located (line.location (column + 1 + before) ['\\', c]) (.invalidEscape c)), false) := by
  have found : lexeme '"' text = .error ⟨.invalidEscape c, before + 1, 2⟩ := by
    rw [lexeme_quote, literal.quoted_eq]
  have shown : (text.drop before).take 2 = ['\\', c] := by
    cases literal with
    | badEscape bad _ _ =>
      obtain ⟨⟨first, _⟩, second, _⟩ := bad
      obtain ⟨inText, first⟩ := List.getElem?_eq_some_iff.mp first
      obtain ⟨inText', second⟩ := List.getElem?_eq_some_iff.mp second
      rw [List.drop_eq_getElem_cons inText, List.drop_eq_getElem_cons inText', first, second]
      rfl
  have place : column + (before + 1) = column + 1 + before := by omega
  rw [tokensFrom_flaw line column (.of_ne (by decide) (by decide)) found, Line.flaw, List.drop_succ_cons, shown, place]

end Quote

/-- String literals are read exactly: what is written for a value is read as that value, and any text behind a quote
is read up to its first quote that is not escaped, unless an escape that does not exist or the end of the line comes
before it. -/
theorem Line.literals_exact (line : Line) (column : Nat) : line.ReadsLiterals column where
  written value behind := by
    have read := (decodes_escaped value).quoted behind
    have first := line.readsFirst_closed column (quoted_eq_iff.mp read)
    have whole : escaped value ++ '"' :: behind = (escaped value ++ ['"']) ++ behind := by simp
    have length : (escaped value).length + 1 = (escaped value ++ ['"']).length := by simp
    rwa [whole, length, List.take_left, List.drop_left] at first
  exact _ _ := quoted_eq_iff
  closed _ _ literal := line.readsFirst_closed column literal
  unterminated _ literal := line.fails_unterminated column literal
  badEscape _ _ _ literal := line.fails_badEscape column literal
  decoded inComment tokens read := by
    -- A string token comes of a literal that was closed, the other two kinds of literals end the line with a fault.
    refine tokensFrom_forall line (fun column c rest kind length found value isString => ?_) 1 inComment line.text read
    have isString : kind = .string value := isString
    subst isString
    obtain ⟨rfl, q, readQuoted, rfl, rfl⟩ := lexeme_string found
    cases quoted_eq_iff.mp readQuoted with
    | @closed index value closes decodes =>
      obtain ⟨whole, alone⟩ := closes.take
      have length : (rest.take index).length = index := by
        have inText := closes.1.lt
        rw [List.length_take]
        omega
      refine ⟨rest.take index, ?_, ?_, ?_⟩
      · rw [← whole]
        exact String.toList_ofList
      · rw [String.toList_ofList]
        exact decodes
      · rw [length]
        exact alone

/-- A quote and a backslash, both escaped, at the two ends of a literal. -/
def quotedYes : Line :=
  ⟨"satz", 1, "rufe \"\\\"ja\\\\\" laut".toList⟩

theorem quotedYes_decoded :
    (∃ tokens t, (quotedYes.tokens false).1 = .ok tokens ∧ t ∈ tokens ∧ t.kind = .string "\"ja\\" ∧
      ∃ body, t.text.toList = '"' :: (body ++ ['"']) ∧ Decodes body "\"ja\\".toList ∧ ClosesAt (body ++ ['"']) body.length) ∧
    quotedYes.tokensFrom 1 false "\"offen\\\\\\".toList =
      (.error (.located (quotedYes.location 1 "\"offen\\\\\\".toList) .unterminatedString), false) ∧
    quotedYes.tokensFrom 1 false "\"\\\\\\q\"".toList =
      (.error (.located (quotedYes.location 4 ['\\', 'q']) (.invalidEscape 'q')), false) := by
  have reads := quotedYes.literals_exact 1
  have computed : ((quotedYes.tokens false).1.map fun tokens => tokens.map Token.kind).toOption =
      some [.word, .string "\"ja\\", .word] := by decide +kernel
  obtain ⟨tokens, read, kinds⟩ := exists_ok_of_view computed
  have second : TokenKind.string "\"ja\\" ∈ tokens.map Token.kind := by
    rw [kinds]
    decide
  obtain ⟨t, member, isString⟩ := List.mem_map.mp second
  have openEnded : quoted "offen\\\\\\".toList = .error .unterminated := by rfl
  have unknown : quoted "\\\\\\q\"".toList = .error (.badEscape 2 'q') := by rfl
  refine ⟨⟨tokens, t, read, member, isString, reads.decoded false tokens read t member _ isString⟩, ?_, ?_⟩
  · exact reads.unterminated _ ((reads.exact _ _).mp openEnded)
  · exact reads.badEscape _ 2 'q' ((reads.exact _ _).mp unknown)

end Satzbau.Lexer

import Satzbau.Source

namespace Satzbau

/-- The kinds of words that are no operators. -/
def TokenKind.isPlainWord : TokenKind → Bool
  | .word | .noun | .keyword _ | .determiner _ | .boolean _ => true
  | _ => false

/-- A token as it comes from a text: a word that is no operator is spelled with the characters of a
word, and its spelling alone decides its kind. -/
structure Token.Lexed (t : Token) : Prop where
  letter : t.kind.isPlainWord = true → ∃ c rest, t.text.toList = c :: rest ∧ isLetter c = true
  characters : t.kind.isPlainWord = true → ∀ c ∈ t.text.toList, Lexer.isWordCharacter c = true
  noOperator : t.kind.isPlainWord = true → Operator.ofWord? t.text = none
  kind : t.kind.isPlainWord = true → Lexer.plainWordKind t.text = t.kind

theorem Token.lexed_of_not_plain {t : Token} (other : t.kind.isPlainWord = false) : t.Lexed := by
  constructor <;> simp [other]

namespace Lexer

/-- What holds of all signs holds of the one that is read. -/
theorem sign?_forall {holds : TokenKind → Prop} (doubles : ∀ entry ∈ doubleSigns, holds entry.2)
    (singles : ∀ entry ∈ singleSigns, holds entry.2) {c : Char} {next : Option Char} {kind : TokenKind} {length : Nat}
    (found : sign? c next = some (kind, length)) : holds kind := by
  unfold sign? at found
  split at found
  · rename_i kind' double
    cases found
    obtain ⟨d, _, inTable⟩ := Option.bind_eq_some_iff.mp double
    obtain ⟨_, _, cut, _⟩ := List.lookup_eq_some_iff.mp inTable
    exact doubles ((c, d), kind) (by rw [cut]; simp)
  · obtain ⟨kind', inTable, same⟩ := Option.map_eq_some_iff.mp found
    cases same
    obtain ⟨_, _, cut, _⟩ := List.lookup_eq_some_iff.mp inTable
    exact singles (c, kind) (by rw [cut]; simp)

theorem sign?_not_plain {c : Char} {next : Option Char} {kind : TokenKind} {length : Nat}
    (found : sign? c next = some (kind, length)) : kind.isPlainWord = false :=
  @sign?_forall (fun kind => kind.isPlainWord = false) (by decide) (by decide) _ _ _ _ found

theorem word_plain {text : List Char} (plain : (word text).1.isPlainWord = true) :
    (word text).2 = (text.takeWhile isWordCharacter).length ∧
      Operator.ofWord? (String.ofList (text.takeWhile isWordCharacter)) = none ∧
      (word text).1 = plainWordKind (String.ofList (text.takeWhile isWordCharacter)) := by
  unfold word at plain ⊢
  dsimp only at plain ⊢
  cases known : Operator.ofWord? (String.ofList (text.takeWhile isWordCharacter)) with
  | none => exact ⟨rfl, rfl, rfl⟩
  | some operator =>
    rw [known] at plain
    dsimp only at plain
    split at plain
    · contradiction
    · contradiction

theorem take_length_takeWhile (accepts : Char → Bool) (text : List Char) :
    text.take (text.takeWhile accepts).length = text.takeWhile accepts :=
  (List.prefix_iff_eq_take.mp (List.takeWhile_prefix accepts)).symm

/-- What is read as a plain word is a longest stretch of word characters behind a letter. -/
theorem lexeme_plain {c : Char} {rest : List Char} {kind : TokenKind} {length : Nat}
    (found : lexeme c rest = .ok (kind, length)) (plain : kind.isPlainWord = true) :
    isLetter c = true ∧ word (c :: rest) = (kind, length) := by
  unfold lexeme at found
  split at found
  · split at found
    · cases found
      contradiction
    · contradiction
    · contradiction
  · split at found
    · cases found
      contradiction
    · split at found
      · rename_i letter
        exact ⟨letter, Except.ok.inj found⟩
      · split at found
        · rename_i signed
          cases found
          rw [sign?_not_plain signed] at plain
          contradiction
        · contradiction

theorem token_lexed (line : Line) (column : Nat) {c : Char} {rest : List Char} {kind : TokenKind} {length : Nat}
    (found : lexeme c rest = .ok (kind, length)) :
    (line.token column kind ((c :: rest).take length)).Lexed := by
  cases plain : kind.isPlainWord with
  | false => exact Token.lexed_of_not_plain plain
  | true =>
    obtain ⟨letter, isWord⟩ := lexeme_plain found plain
    have plainWord : (word (c :: rest)).1.isPlainWord = true := by
      rw [isWord]
      exact plain
    obtain ⟨extent, noOperator, kindOf⟩ := word_plain plainWord
    rw [isWord] at extent kindOf
    dsimp only at extent kindOf
    have wordCharacter : isWordCharacter c = true := by simp [isWordCharacter, letter]
    have spelled : (c :: rest).take length = (c :: rest).takeWhile isWordCharacter := by
      rw [extent, take_length_takeWhile]
    have text : (line.token column kind ((c :: rest).take length)).text =
        String.ofList ((c :: rest).takeWhile isWordCharacter) := by
      rw [spelled]
      rfl
    refine ⟨fun _ => ?_, fun _ => ?_, fun _ => ?_, fun _ => ?_⟩
    · refine ⟨c, rest.takeWhile isWordCharacter, ?_, letter⟩
      rw [text, String.toList_ofList, List.takeWhile_cons_of_pos wordCharacter]
    · rw [text, String.toList_ofList]
      exact List.all_eq_true.mp List.all_takeWhile
    · rw [text]
      exact noOperator
    · rw [text]
      exact kindOf.symm

/-- A place where a token has to begin: there is neither a blank nor a comment. -/
structure BeginsToken (c : Char) (rest : List Char) : Prop where
  notBlank : ¬isBlank c = true
  noLineComment : ¬(c = '/' ∧ rest.head? = some '/')
  noBlockComment : ¬(c = '/' ∧ rest.head? = some '*')

section Steps

variable {c : Char} {rest : List Char} (line : Line) (column : Nat)

theorem BeginsToken.of_ne (notBlank : isBlank c = false) (noSlash : c ≠ '/') : BeginsToken c rest where
  notBlank := Bool.eq_false_iff.mp notBlank
  noLineComment both := noSlash both.1
  noBlockComment both := noSlash both.1

theorem tokensFrom_nil (inComment : Bool) : line.tokensFrom column inComment [] = (.ok [], inComment) := by
  rw [Line.tokensFrom]

theorem tokensFrom_closing (closes : c = '*' ∧ rest.head? = some '/') :
    line.tokensFrom column true (c :: rest) = line.tokensFrom (column + 2) false rest.tail := by
  rw [Line.tokensFrom, if_pos rfl, if_pos closes]

theorem tokensFrom_inComment (goesOn : ¬(c = '*' ∧ rest.head? = some '/')) :
    line.tokensFrom column true (c :: rest) = line.tokensFrom (column + 1) true rest := by
  rw [Line.tokensFrom, if_pos rfl, if_neg goesOn]

theorem tokensFrom_blank (blank : isBlank c = true) :
    line.tokensFrom column false (c :: rest) = line.tokensFrom (column + 1) false rest := by
  rw [Line.tokensFrom, if_neg Bool.false_ne_true, if_pos blank]

theorem tokensFrom_lineComment (opens : c = '/' ∧ rest.head? = some '/') :
    line.tokensFrom column false (c :: rest) = (.ok [], false) := by
  have notBlank : ¬isBlank c = true := by
    rw [opens.1]
    decide
  rw [Line.tokensFrom, if_neg Bool.false_ne_true, if_neg notBlank, if_pos opens]

theorem tokensFrom_opening (opens : c = '/' ∧ rest.head? = some '*') :
    line.tokensFrom column false (c :: rest) = line.tokensFrom (column + 2) true rest.tail := by
  have notBlank : ¬isBlank c = true := by
    rw [opens.1]
    decide
  have noLineComment : ¬(c = '/' ∧ rest.head? = some '/') := by simp [opens.2]
  rw [Line.tokensFrom, if_neg Bool.false_ne_true, if_neg notBlank, if_neg noLineComment, if_pos opens]

theorem tokensFrom_token (begins : BeginsToken c rest) {kind : TokenKind} {length : Nat}
    (found : lexeme c rest = .ok (kind, length)) :
    line.tokensFrom column false (c :: rest) =
      ((line.tokensFrom (column + length) false (rest.drop (length - 1))).1.map
          (line.token column kind ((c :: rest).take length) :: ·),
        (line.tokensFrom (column + length) false (rest.drop (length - 1))).2) := by
  rw [Line.tokensFrom, if_neg Bool.false_ne_true, if_neg begins.notBlank, if_neg begins.noLineComment,
    if_neg begins.noBlockComment, found]

theorem tokensFrom_flaw (begins : BeginsToken c rest) {flaw : Flaw} (failed : lexeme c rest = .error flaw) :
    line.tokensFrom column false (c :: rest) = (.error (line.flaw column flaw (c :: rest)), false) := by
  rw [Line.tokensFrom, if_neg Bool.false_ne_true, if_neg begins.notBlank, if_neg begins.noLineComment,
    if_neg begins.noBlockComment, failed]

end Steps

/-- What holds of every token that can be read somewhere holds of all tokens of a line. -/
theorem tokensFrom_forall {holds : Token → Prop} (line : Line)
    (each : ∀ column c rest kind length, lexeme c rest = .ok (kind, length) →
      holds (line.token column kind ((c :: rest).take length)))
    (column : Nat) (inComment : Bool) (text : List Char) {tokens : List Token}
    (read : (line.tokensFrom column inComment text).1 = .ok tokens) : ∀ t ∈ tokens, holds t := by
  fun_induction line.tokensFrom column inComment text generalizing tokens
  case case1 =>
    cases read
    exact nofun
  case case2 ih => exact ih read
  case case3 ih => exact ih read
  case case4 ih => exact ih read
  case case5 =>
    cases read
    exact nofun
  case case6 ih => exact ih read
  case case7 => contradiction
  case case8 column _ c rest _ _ _ _ kind length found token later ih =>
    cases result : later.1 with
    | error fault =>
      rw [result] at read
      contradiction
    | ok others =>
      rw [result] at read
      cases read
      intro t member
      obtain rfl | inOthers := List.mem_cons.mp member
      · exact each column c rest kind length found
      · exact ih result t inOthers

/-- What holds of every fault with which a token can be refused holds of the fault of a line. -/
theorem tokensFrom_fault_forall {holds : Fault → Prop} (line : Line)
    (each : ∀ c rest flaw, lexeme c rest = .error flaw → holds flaw.fault)
    (column : Nat) (inComment : Bool) (text : List Char) {d : Diagnostic}
    (read : (line.tokensFrom column inComment text).1 = .error d) : holds d.fault := by
  fun_induction line.tokensFrom column inComment text
  case case1 => contradiction
  case case2 ih => exact ih read
  case case3 ih => exact ih read
  case case4 ih => exact ih read
  case case5 => contradiction
  case case6 ih => exact ih read
  case case7 flaw found =>
    cases read
    exact each _ _ flaw found
  case case8 later ih =>
    cases result : later.1 with
    | ok others =>
      rw [result] at read
      contradiction
    | error fault =>
      rw [result] at read
      cases read
      exact ih result

theorem tokensFrom_lexed (line : Line) (column : Nat) (inComment : Bool) (text : List Char) {tokens : List Token}
    (read : (line.tokensFrom column inComment text).1 = .ok tokens) : ∀ t ∈ tokens, t.Lexed :=
  tokensFrom_forall line (fun column _ _ _ _ found => token_lexed line column found) column inComment text read

theorem plainWordKind_plain (spelling : String) : (plainWordKind spelling).isPlainWord = true := by
  unfold plainWordKind
  split
  · rfl
  · split
    · rfl
    · split
      · rfl
      · rfl
      · split <;> rfl

/-- The kinds of tokens that stand for no characters of a line. -/
def EndsSomething (kind : TokenKind) : Prop :=
  kind = .fileEnd ∨ kind = .lineEnd

theorem word_not_end (text : List Char) : ¬EndsSomething (word text).1 := by
  unfold word
  dsimp only
  split
  · intro ends
    have plain := plainWordKind_plain (String.ofList (text.takeWhile isWordCharacter))
    rcases ends with same | same <;> rw [show plainWordKind _ = _ from same] at plain <;> contradiction
  · split
    · rintro (_ | _) <;> contradiction
    · rintro (_ | _) <;> contradiction

/-- No line holds the end of a line or of a file. -/
theorem lexeme_not_end {c : Char} {rest : List Char} {kind : TokenKind} {length : Nat}
    (found : lexeme c rest = .ok (kind, length)) : ¬EndsSomething kind := by
  unfold lexeme at found
  split at found
  · split at found
    · cases found
      rintro (_ | _) <;> contradiction
    · contradiction
    · contradiction
  · split at found
    · cases found
      rintro (_ | _) <;> contradiction
    · split at found
      · have notEnd := word_not_end (c :: rest)
        rw [Except.ok.inj found] at notEnd
        exact notEnd
      · split at found
        · rename_i signed
          cases found
          exact @sign?_forall (¬EndsSomething ·) (by simp [doubleSigns, EndsSomething])
            (by simp [singleSigns, EndsSomething]) _ _ _ _ signed
        · contradiction

theorem tokensFrom_not_end (line : Line) (column : Nat) (inComment : Bool) (text : List Char) {tokens : List Token}
    (read : (line.tokensFrom column inComment text).1 = .ok tokens) : ∀ t ∈ tokens, ¬EndsSomething t.kind :=
  tokensFrom_forall line (fun _ _ _ _ _ found => lexeme_not_end found) column inComment text read

/-- Tokens stand on the line of which they are read. -/
theorem tokensFrom_located (line : Line) (column : Nat) (inComment : Bool) (text : List Char) {tokens : List Token}
    (read : (line.tokensFrom column inComment text).1 = .ok tokens) :
    ∀ t ∈ tokens, t.file = line.file ∧ t.span.line = line.number :=
  tokensFrom_forall line (fun _ _ _ _ _ _ => ⟨rfl, rfl⟩) column inComment text read

end Lexer

/-- All tokens of a stream come from texts. -/
structure TokenStream.Lexed (stream : TokenStream) : Prop where
  items : ∀ t, .ok t ∈ stream.items → t.Lexed
  fileEnd : stream.fileEnd.Lexed

namespace Source

theorem fileEnd_lexed (path : Path) (lineCount : Nat) : (fileEnd path lineCount).Lexed :=
  Token.lexed_of_not_plain rfl

theorem readLine_lexed (files : Files) (progress : Progress) (line : Lexer.Line) :
    ∀ t, .ok t ∈ (readLine files progress line).1 → t.Lexed := by
  intro t member
  unfold readLine at member
  split at member
  · simp at member
  · simp at member
  · rename_i tokens inComment _ read
    have lexed := Lexer.tokensFrom_lexed line 1 progress.inComment line.text (congrArg Prod.fst read)
    split at member
    · obtain ⟨u, inside, same⟩ := List.mem_map.mp member
      cases same
      obtain inLine | atEnd := List.mem_append.mp inside
      · exact lexed t inLine
      · rw [List.mem_singleton.mp atEnd]
        exact Token.lexed_of_not_plain rfl
    · split at member
      · simp at member
      · simp at member

theorem readLines_lexed (files : Files) (progress : Progress) (lines : List Lexer.Line) :
    ∀ t, .ok t ∈ (readLines files progress lines).1 → t.Lexed := by
  induction lines generalizing progress with
  | nil => exact nofun
  | cons line later ih =>
    intro t member
    obtain inLine | inLater := List.mem_append.mp member
    · exact readLine_lexed files progress line t inLine
    · exact ih _ t inLater

theorem readQueue_lexed (files : Files) (queue : ImportQueue) (last : Token) (atEnd : last.Lexed) :
    (readQueue files queue last).Lexed := by
  fun_induction readQueue files queue last
  case case1 => exact ⟨nofun, atEnd⟩
  case case2 ih => exact ih atEnd
  case case3 later ih =>
    refine ⟨fun t member => ?_, (ih atEnd).fileEnd⟩
    obtain impossible | inLater := List.mem_cons.mp member
    · contradiction
    · exact (ih atEnd).items t inLater
  case case4 lines opened later ih =>
    have lexedLater := ih (fileEnd_lexed _ _)
    refine ⟨fun t member => ?_, lexedLater.fileEnd⟩
    obtain inFile | inLater := List.mem_append.mp member
    · exact readLines_lexed _ _ _ t inFile
    · exact lexedLater.items t inLater

end Source

/-- Whatever is read from files or a text consists of words as the lexer makes them. -/
inductive TokenStream.IsRead : TokenStream → Prop
  | ofText (files : Files) (path : Path) (text : String) : IsRead (.ofText files path text)
  | ofQueue (files : Files) (queue : ImportQueue) : IsRead (.ofQueue files queue)

theorem TokenStream.IsRead.lexed {stream : TokenStream} (read : stream.IsRead) : stream.Lexed := by
  cases read with
  | ofQueue files queue => exact Source.readQueue_lexed files queue _ (Source.fileEnd_lexed _ _)
  | ofText files path text =>
    unfold TokenStream.ofText
    have later := Source.readQueue_lexed files
      (Source.readLines files ⟨ImportQueue.empty.visit (files.identify path), false⟩ (Source.linesOf path text)).2
      (Source.fileEnd path (Source.linesOf path text).length) (Source.fileEnd_lexed _ _)
    refine ⟨fun t member => ?_, later.fileEnd⟩
    obtain inText | inLater := List.mem_append.mp member
    · exact Source.readLines_lexed _ _ _ t inText
    · exact later.items t inLater

end Satzbau

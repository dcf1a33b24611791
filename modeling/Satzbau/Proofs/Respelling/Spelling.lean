import Satzbau.Proofs.Repeating.Spelling
import Satzbau.Proofs.Respelling.Programs

namespace Satzbau

/-- A word that is no operator is read as what its spelling says. -/
theorem lexed_of_spelling {text : String} {kind : TokenKind} (letter : text.toList.head?.any isLetter = true)
    (characters : text.toList.all Lexer.isWordCharacter = true) (noOperator : Operator.ofWord? text = none)
    (isKind : Lexer.plainWordKind text = kind) (file : String) (span : Span) : (⟨kind, text, file, span⟩ : Token).Lexed := by
  refine ⟨fun _ => ?_, fun _ => List.all_eq_true.mp characters, fun _ => noOperator, fun _ => isKind⟩
  dsimp only
  cases spelled : text.toList with
  | nil =>
    rw [spelled] at letter
    contradiction
  | cons c rest =>
    rw [spelled] at letter
    exact ⟨c, rest, rfl, letter⟩

/-- A keyword is read as itself. -/
theorem keyword_lexed (k : Keyword) (file : String) (span : Span) :
    (⟨.keyword k, k.spelling, file, span⟩ : Token).Lexed := by
  have known : ∀ k ∈ Keyword.all, k.spelling.toList.head?.any isLetter = true ∧
      k.spelling.toList.all Lexer.isWordCharacter = true ∧ Operator.ofWord? k.spelling = none ∧
        Lexer.plainWordKind k.spelling = .keyword k := by
    decide +kernel
  obtain ⟨letter, characters, noOperator, kind⟩ := known k (Keyword.mem_all k)
  exact lexed_of_spelling letter characters noOperator kind file span

/-- A keyword has one spelling. -/
theorem Lexer.eq_spelling_of_plainWordKind {word : String} {k : Keyword} (kind : plainWordKind word = .keyword k) :
    word = k.spelling := by
  unfold plainWordKind at kind
  split at kind
  · contradiction
  · split at kind
    · contradiction
    · split at kind
      · rename_i found
        cases kind
        have spelled := @List.find?_some _ (fun keyword : Keyword => keyword.spelling == word) _ _ found
        exact (beq_iff_eq.mp spelled).symm
      · contradiction
      · split at kind <;> contradiction

theorem Token.Lexed.text_of_keyword {t : Token} (lexed : t.Lexed) {k : Keyword} (isKeyword : t.kind = .keyword k) :
    t.text = k.spelling := by
  have plain : t.kind.isPlainWord = true := by rw [isKeyword]; rfl
  exact Lexer.eq_spelling_of_plainWordKind ((lexed.kind plain).trans isKeyword)

namespace Lexer

/-- A text that is read, from any column on and to its end, as tokens that say certain things. -/
def Line.Reads (line : Line) (text : List Char) (reading : List (TokenKind × String)) : Prop :=
  ∀ column, ∃ tokens, line.tokensFrom column false text = (.ok tokens, false) ∧ tokens.map Token.reading = reading

namespace Line.Reads

variable {line : Line} {rest : List Char} {reading : List (TokenKind × String)}

theorem nil : line.Reads [] [] := by
  intro column
  exact ⟨[], tokensFrom_nil line column false, rfl⟩

theorem blank {c : Char} (isBlank : isBlank c = true) (behind : line.Reads rest reading) :
    line.Reads (c :: rest) reading := by
  intro column
  obtain ⟨tokens, read, same⟩ := behind (column + 1)
  exact ⟨tokens, (tokensFrom_blank line column isBlank).trans read, same⟩

theorem blanks {blanks : List Char} (all : ∀ c ∈ blanks, Satzbau.isBlank c = true) (behind : line.Reads rest reading) :
    line.Reads (blanks ++ rest) reading := by
  induction blanks with
  | nil => exact behind
  | cons c others ih =>
    exact blank (all c (List.mem_cons_self ..)) (ih fun d member => all d (List.mem_cons_of_mem _ member))

/-- A word ends where something else follows. -/
theorem word {kind : TokenKind} {text : String} (lexed : ∀ file span, (⟨kind, text, file, span⟩ : Token).Lexed)
    (plain : kind.isPlainWord = true) (stops : ∀ d ∈ rest.head?, isWordCharacter d = false)
    (behind : line.Reads rest reading) : line.Reads (text.toList ++ rest) ((kind, text) :: reading) := by
  intro column
  obtain ⟨later, read, same⟩ := behind (column + text.toList.length)
  obtain ⟨u, sameWord, here⟩ := tokensFrom_word line column (lexed "" .atStart) plain stops read
  refine ⟨u :: later, here, ?_⟩
  rw [List.map_cons, same, Token.reading, ← sameWord.kind, ← sameWord.text]

/-- A sign of one character that begins no longer one. -/
theorem sign {c : Char} {kind : TokenKind} (isSign : ∀ next, sign? c next = some (kind, 1))
    (other : c ≠ '"' ∧ c.isDigit = false ∧ isLetter c = false ∧ Satzbau.isBlank c = false ∧ c ≠ '/')
    (behind : line.Reads rest reading) :
    line.Reads (c :: rest) ((kind, String.singleton c) :: reading) := by
  intro column
  obtain ⟨noQuote, noDigit, noLetter, noBlank, noSlash⟩ := other
  obtain ⟨later, read, same⟩ := behind (column + 1)
  have found : lexeme c rest = .ok (kind, 1) := by
    unfold lexeme
    rw [if_neg noQuote, noDigit, if_neg Bool.false_ne_true, noLetter, if_neg Bool.false_ne_true, isSign]
  refine ⟨line.token column kind [c] :: later, ?_, ?_⟩
  · rw [tokensFrom_token line column (.of_ne noBlank noSlash) found, Nat.sub_self, List.drop_zero, read]
    rfl
  · rw [List.map_cons, same]
    rfl

theorem comma (behind : line.Reads rest reading) : line.Reads (',' :: rest) ((.comma, ",") :: reading) :=
  sign (by rintro (_ | d) <;> rfl) (by decide +kernel) behind

theorem opening (behind : line.Reads rest reading) : line.Reads ('(' :: rest) ((.openParenthesis, "(") :: reading) :=
  sign (by rintro (_ | d) <;> rfl) (by decide +kernel) behind

theorem closing (behind : line.Reads rest reading) : line.Reads (')' :: rest) ((.closeParenthesis, ")") :: reading) :=
  sign (by rintro (_ | d) <;> rfl) (by decide +kernel) behind

end Line.Reads

/-- A text that is read as one noun, the whole of it. -/
def IsNoun (form : String) : Prop :=
  ∃ noun : Token, Line.tokens ⟨"", 1, form.toList⟩ false = (.ok [noun], false) ∧ noun.kind = .noun ∧ noun.text = form

theorem IsNoun.lexed {form : String} (isNoun : IsNoun form) (file : String) (span : Span) :
    (⟨.noun, form, file, span⟩ : Token).Lexed := by
  obtain ⟨noun, read, kind, rfl⟩ := isNoun
  have lexed := tokensFrom_lexed _ 1 false _ (congrArg Prod.fst read) noun (List.mem_singleton_self noun)
  have plain : noun.kind.isPlainWord = true := by rw [kind]; rfl
  exact ⟨fun _ => lexed.letter plain, fun _ => lexed.characters plain, fun _ => lexed.noOperator plain,
    fun _ => (lexed.kind plain).trans kind⟩

theorem isNoun_of_lexed {form : String} (lexed : ∀ file span, (⟨.noun, form, file, span⟩ : Token).Lexed) : IsNoun form := by
  have reads : Line.Reads ⟨"", 1, form.toList⟩ (form.toList ++ []) [(.noun, form)] :=
    .word lexed rfl (fun _ impossible => by contradiction) .nil
  obtain ⟨tokens, read, reading⟩ := reads 1
  obtain ⟨noun, later, rfl, kind, text, nothing⟩ := Parser.cons_of_reading reading
  rw [List.append_nil, List.map_eq_nil_iff.mp nothing] at read
  exact ⟨noun, read, kind, text⟩

theorem isWordCharacter_ofSign {c : Char} {rest : List Char} (sign : c = ',' ∨ c = '(' ∨ c = ')' ∨ c = ' ') :
    ∀ d ∈ (c :: rest).head?, isWordCharacter d = false := by
  intro d front
  cases front
  rcases sign with rfl | rfl | rfl | rfl <;> decide +kernel

variable {line : Line} {rest : List Char} {reading : List (TokenKind × String)}

/-- The forms of one number are read as four nouns. -/
theorem Line.Reads.forms {f : Forms} (nouns : ∀ form ∈ f.toList, IsNoun form) (behind : line.Reads rest reading) :
    line.Reads ('(' :: (f.text.toList ++ ')' :: rest)) (f.reading ++ reading) := by
  have noun (c : Case) {d : Char} {rest : List Char} {reading : List (TokenKind × String)}
      (sign : d = ',' ∨ d = '(' ∨ d = ')' ∨ d = ' ') (behind : line.Reads (d :: rest) reading) :
      line.Reads ((f.get c).toList ++ d :: rest) ((.noun, f.get c) :: reading) :=
    .word (nouns _ (List.mem_map_of_mem (Case.mem_all c))).lexed rfl (isWordCharacter_ofSign sign) behind
  have text : f.text.toList ++ ')' :: rest = (f.get .nominative).toList ++ ',' :: ' ' :: ((f.get .genitive).toList ++
      ',' :: ' ' :: ((f.get .dative).toList ++ ',' :: ' ' :: ((f.get .accusative).toList ++ ')' :: rest))) := by
    have spelled : f.text = f.get .nominative ++ ", " ++ f.get .genitive ++ ", " ++ f.get .dative ++ ", " ++
        f.get .accusative := rfl
    simp [spelled]
  have space : isBlank ' ' = true := by decide
  rw [text]
  exact .opening (noun .nominative (by simp) (.comma (.blank space (noun .genitive (by simp) (.comma (.blank space
    (noun .dative (by simp) (.comma (.blank space (noun .accusative (by simp) (.closing behind)))))))))))

theorem toList_declensionText (d : Declension) :
    d.text.toList = "Deklination ".toList ++ (d.gender.keyword.toList ++ (" Singular(".toList ++
      (d.singular.text.toList ++ (") Plural(".toList ++ (d.plural.text.toList ++ ")".toList))))) := by
  unfold Declension.text
  rw [String.toList_append, String.toList_append, String.toList_append, String.toList_append, String.toList_append,
    String.toList_append, List.append_assoc, List.append_assoc, List.append_assoc, List.append_assoc, List.append_assoc]

/-- What is written into a program for a declension is read as that declension. -/
theorem Line.Reads.declension {d : Declension} (nouns : ∀ form ∈ d.forms, IsNoun form) (behind : line.Reads rest []) :
    line.Reads (d.text.toList ++ rest) ((.keyword .declension, "Deklination") :: d.reading) := by
  have keyword (k : Keyword) {c : Char} {rest : List Char} {reading : List (TokenKind × String)}
      (sign : c = ',' ∨ c = '(' ∨ c = ')' ∨ c = ' ') (behind : line.Reads (c :: rest) reading) :
      line.Reads (k.spelling.toList ++ c :: rest) ((.keyword k, k.spelling) :: reading) :=
    .word (keyword_lexed k) rfl (isWordCharacter_ofSign sign) behind
  have space : isBlank ' ' = true := by decide
  have text : d.text.toList ++ rest = Keyword.declension.spelling.toList ++ ' ' ::
      ((Keyword.gender d.gender).spelling.toList ++ ' ' :: (Keyword.singular.spelling.toList ++
        '(' :: (d.singular.text.toList ++ ')' :: ' ' :: (Keyword.plural.spelling.toList ++
          '(' :: (d.plural.text.toList ++ ')' :: rest))))) := by
    rw [toList_declensionText, List.append_assoc, List.append_assoc, List.append_assoc, List.append_assoc,
      List.append_assoc, List.append_assoc]
    rfl
  rw [text]
  refine keyword .declension (by simp) (.blank space (keyword (.gender d.gender) (by simp) (.blank space ?_)))
  refine keyword .singular (by simp) (.forms (fun form member => nouns form (List.mem_append_left _ member)) ?_)
  refine .blank space (keyword .plural (by simp) ?_)
  rw [← List.append_nil d.plural.reading]
  exact .forms (fun form member => nouns form (List.mem_append_right _ member)) behind

end Lexer

end Satzbau

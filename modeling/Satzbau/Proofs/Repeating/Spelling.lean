import Mathlib.Data.List.Forall2
import Satzbau.Proofs.Roles

namespace Satzbau

/-- The same word, wherever it stands. -/
structure Token.Same (t u : Token) : Prop where
  kind : t.kind = u.kind
  text : t.text = u.text

/-- What stands on the line of a call behind its verb: words, and commas between roles. -/
inductive Mark
  | word (t : Token)
  | comma

namespace Mark

/-- A word stands behind a blank, a comma right behind a word. -/
def spelling : Mark → List Char
  | word t => ' ' :: t.text.toList
  | comma => [',']

/-- The tokens that can be read for a mark. -/
inductive Reads : Mark → Token → Prop
  | word {t u : Token} (same : t.Same u) : Reads (.word t) u
  | comma {u : Token} (kind : u.kind = .comma) : Reads .comma u

def ofPhrase (p : NounPhrase) : List Mark :=
  (p.determiner.toList ++ [p.noun]).map word

def ofItems : List NounPhrase → List Mark
  | [] => []
  | [p] => ofPhrase p
  | p :: q :: later => ofPhrase p ++ comma :: ofItems (q :: later)

def ofGroup (g : PrepositionGroup NounPhrase) : List Mark :=
  word g.preposition :: ofItems g.items

def ofObject : ObjectRole NounPhrase → List Mark
  | .absent => []
  | .thing p => ofPhrase p
  | .reflexive token => [word token]

end Mark

/-- What is written behind the verb of a call with some roles and without values. -/
def Roles.marks (r : Roles) : List Mark :=
  Mark.ofObject r.object ++ (r.groups.flatMap Mark.ofGroup ++ r.suffix.toList.map Mark.word)

/-- The line of a call with some roles and without values. -/
def Roles.line (r : Roles) : String :=
  String.ofList (r.verb.text.toList ++ r.marks.flatMap Mark.spelling)

theorem exists_of_inRanges {ranges : List (Nat × Nat)} {n : Nat} (inside : inRanges ranges n = true) :
    ∃ r ∈ ranges, r.1 ≤ n ∧ n ≤ r.2 := by
  induction ranges with
  | nil => contradiction
  | cons r rest ih =>
    simp only [inRanges, Bool.and_eq_true, Bool.or_eq_true, decide_eq_true_eq] at inside
    obtain ⟨low, high | later⟩ := inside
    · exact ⟨r, List.mem_cons_self .., low, high⟩
    · obtain ⟨s, member, bounds⟩ := ih later
      exact ⟨s, List.mem_cons_of_mem _ member, bounds⟩

theorem not_inRanges_of_apart {ranges others : List (Nat × Nat)} (apart : ∀ r ∈ ranges, ∀ s ∈ others, r.2 < s.1 ∨ s.2 < r.1)
    {n : Nat} (inside : inRanges ranges n = true) : inRanges others n = false := by
  by_contra inOthers
  obtain ⟨r, member, low, high⟩ := exists_of_inRanges inside
  obtain ⟨s, member', low', high'⟩ := exists_of_inRanges (Bool.not_eq_false _ ▸ inOthers)
  have := apart r member s member'
  omega

theorem isDigit_of_apart {ranges : List (Nat × Nat)} (apart : ∀ r ∈ ranges, r.2 < 48 ∨ 57 < r.1) {c : Char}
    (inside : inRanges ranges c.toNat = true) : c.isDigit = false := by
  by_contra digit
  have bounds : 48 ≤ c.toNat ∧ c.toNat ≤ 57 := by
    simpa [Char.isDigit, UInt32.le_iff_toNat_le] using digit
  obtain ⟨r, member, low, high⟩ := exists_of_inRanges inside
  have := apart r member
  omega

theorem isBlank_of_isLetter {c : Char} (letter : isLetter c = true) : isBlank c = false :=
  not_inRanges_of_apart (show ∀ r ∈ letterRanges, ∀ s ∈ blankRanges, r.2 < s.1 ∨ s.2 < r.1 by decide +kernel) letter

theorem isDigit_of_isLetter {c : Char} (letter : isLetter c = true) : c.isDigit = false :=
  isDigit_of_apart (show ∀ r ∈ letterRanges, r.2 < 48 ∨ 57 < r.1 by decide +kernel) letter

theorem isLetter_ne {c d : Char} (letter : isLetter c = true) (other : isLetter d = false) : c ≠ d := by
  rintro rfl
  rw [letter] at other
  contradiction

namespace Lexer

theorem takeWhile_append_stop {accepts : Char → Bool} {word rest : List Char} (all : ∀ c ∈ word, accepts c = true)
    (stops : ∀ d ∈ rest.head?, accepts d = false) : (word ++ rest).takeWhile accepts = word := by
  rw [List.takeWhile_append_of_pos all]
  cases rest with
  | nil => rw [List.takeWhile_nil, List.append_nil]
  | cons d later =>
    have stop : ¬accepts d = true := by
      rw [stops d rfl]
      exact Bool.false_ne_true
    rw [List.takeWhile_cons_of_neg stop, List.append_nil]

/-- A plain word is read again as what it was, up to where its characters end. -/
theorem lexeme_word {t : Token} {c : Char} {others rest : List Char} (lexed : t.Lexed) (plain : t.kind.isPlainWord = true)
    (spelled : t.text.toList = c :: others) (stops : ∀ d ∈ rest.head?, isWordCharacter d = false) :
    lexeme c (others ++ rest) = .ok (t.kind, t.text.toList.length) := by
  have letter : isLetter c = true := by
    obtain ⟨d, later, same, letter⟩ := lexed.letter plain
    rw [spelled] at same
    cases same
    exact letter
  have letters : (c :: (others ++ rest)).takeWhile isWordCharacter = t.text.toList := by
    rw [← List.cons_append, ← spelled]
    exact takeWhile_append_stop (lexed.characters plain) stops
  unfold lexeme
  rw [if_neg (isLetter_ne letter (by decide +kernel)), isDigit_of_isLetter letter, if_neg Bool.false_ne_true,
    if_pos letter]
  unfold word
  simp only [letters, String.ofList_toList, lexed.noOperator plain, lexed.kind plain]

theorem tokensFrom_word (line : Line) (column : Nat) {t : Token} {rest : List Char} {later : List Token} (lexed : t.Lexed)
    (plain : t.kind.isPlainWord = true) (stops : ∀ d ∈ rest.head?, isWordCharacter d = false)
    (reads : line.tokensFrom (column + t.text.toList.length) false rest = (.ok later, false)) :
    ∃ u, t.Same u ∧ line.tokensFrom column false (t.text.toList ++ rest) = (.ok (u :: later), false) := by
  obtain ⟨c, others, spelled, letter⟩ := lexed.letter plain
  have found := lexeme_word lexed plain spelled stops
  have slash : isLetter '/' = false := by decide +kernel
  have taken : (c :: (others ++ rest)).take t.text.toList.length = t.text.toList := by
    rw [← List.cons_append, ← spelled]
    exact List.take_left
  have dropped : (others ++ rest).drop (t.text.toList.length - 1) = rest := by
    rw [spelled, List.length_cons, Nat.add_sub_cancel, List.drop_left]
  refine ⟨line.token column t.kind t.text.toList, ⟨rfl, (String.ofList_toList).symm⟩, ?_⟩
  have front : t.text.toList ++ rest = c :: (others ++ rest) := by
    rw [spelled, List.cons_append]
  rw [front, tokensFrom_token line column (.of_ne (isBlank_of_isLetter letter) (isLetter_ne letter slash)) found, dropped,
    reads, taken]
  rfl

theorem tokensFrom_comma (line : Line) (column : Nat) {rest : List Char} {later : List Token}
    (reads : line.tokensFrom (column + 1) false rest = (.ok later, false)) :
    ∃ u, u.kind = .comma ∧ line.tokensFrom column false (',' :: rest) = (.ok (u :: later), false) := by
  have found : lexeme ',' rest = .ok (.comma, 1) := by
    have isSign : sign? ',' rest.head? = some (.comma, 1) := by
      cases rest with
      | nil => rfl
      | cons d others => rfl
    unfold lexeme
    rw [if_neg (by decide), if_neg (by decide), if_neg (by decide +kernel), isSign]
  refine ⟨line.token column .comma [','], rfl, ?_⟩
  rw [tokensFrom_token line column (.of_ne (by decide) (by decide)) found, Nat.sub_self, List.drop_zero, reads]
  rfl

end Lexer

/-- The words of a line can be read again. -/
def Mark.Plain : Mark → Prop
  | .word t => t.Lexed ∧ t.kind.isPlainWord = true
  | .comma => True

/-- A word ends where a mark or nothing follows. -/
theorem Mark.stops (marks : List Mark) :
    ∀ d ∈ (marks.flatMap spelling).head?, Lexer.isWordCharacter d = false := by
  have blank : Lexer.isWordCharacter ' ' = false := by decide +kernel
  have comma : Lexer.isWordCharacter ',' = false := by decide +kernel
  intro d front
  cases marks with
  | nil => contradiction
  | cons m later =>
    cases m with
    | word t =>
      cases front
      exact blank
    | comma =>
      cases front
      exact comma

/-- Marks are read as tokens for them, one for each. -/
theorem Mark.tokensFrom_spelling (line : Lexer.Line) (column : Nat) {marks : List Mark} (plain : ∀ m ∈ marks, m.Plain) :
    ∃ tokens, line.tokensFrom column false (marks.flatMap spelling) = (.ok tokens, false) ∧
      List.Forall₂ Reads marks tokens := by
  induction marks generalizing column with
  | nil =>
    refine ⟨[], ?_, .nil⟩
    rw [List.flatMap_nil, Lexer.tokensFrom_nil]
  | cons m marks ih =>
    have ih (column : Nat) := ih column fun other inside => plain other (List.mem_cons_of_mem _ inside)
    rw [List.flatMap_cons]
    cases m with
    | comma =>
      obtain ⟨later, reads, spelled⟩ := ih (column + 1)
      obtain ⟨u, kind, here⟩ := Lexer.tokensFrom_comma line column reads
      exact ⟨u :: later, here, .cons (.comma kind) spelled⟩
    | word t =>
      obtain ⟨lexed, isPlain⟩ := plain (.word t) (List.mem_cons_self ..)
      obtain ⟨later, reads, spelled⟩ := ih (column + 1 + t.text.toList.length)
      obtain ⟨u, same, here⟩ := Lexer.tokensFrom_word line (column + 1) lexed isPlain (stops marks) reads
      refine ⟨u :: later, ?_, .cons (.word same) spelled⟩
      rw [spelling, List.cons_append, Lexer.tokensFrom_blank line column (by decide)]
      exact here

theorem Mark.plain_ofPhrase {p : NounPhrase} (written : p.Written Token.Lexed) : ∀ m ∈ ofPhrase p, m.Plain := by
  intro m member
  obtain ⟨t, inside, rfl⟩ := List.mem_map.mp member
  obtain atDeterminer | atNoun := List.mem_append.mp inside
  · obtain ⟨isDeterminer, lexed⟩ := written.2 t (Option.mem_toList.mp atDeterminer)
    refine ⟨lexed, ?_⟩
    unfold Token.determiner? TokenKind.determiner? at isDeterminer
    split at isDeterminer
    · rename_i kind
      rw [kind]
      rfl
    · contradiction
  · rw [List.mem_singleton.mp atNoun]
    exact ⟨written.1.2, by rw [written.1.1]; rfl⟩

theorem Mark.plain_ofItems {items : List NounPhrase} (written : ∀ p ∈ items, p.Written Token.Lexed) :
    ∀ m ∈ ofItems items, m.Plain := by
  fun_induction ofItems items with
  | case1 => exact nofun
  | case2 p => exact plain_ofPhrase (written p (List.mem_singleton_self p))
  | case3 p q later ih =>
    intro m member
    rcases List.mem_append.mp member with atFirst | atLater
    · exact plain_ofPhrase (written p (List.mem_cons_self ..)) m atFirst
    · rcases List.mem_cons.mp atLater with rfl | atLater
      · trivial
      · exact ih (fun other inside => written other (List.mem_cons_of_mem _ inside)) m atLater

theorem Mark.plain_word {t : Token} (written : t.kind = .word ∧ t.Lexed) : (word t).Plain :=
  ⟨written.2, by rw [written.1]; rfl⟩

theorem Roles.plain_marks {r : Roles} (written : r.Written Token.Lexed)
    (notReflexive : ∀ token, r.object ≠ .reflexive token) : ∀ m ∈ r.marks, m.Plain := by
  intro m member
  rcases List.mem_append.mp member with atObject | atOthers
  · cases object : r.object with
    | absent =>
      rw [object] at atObject
      contradiction
    | thing p =>
      have isRole := written.object p (by simp [object, ObjectRole.toList])
      rw [object] at atObject
      exact Mark.plain_ofPhrase isRole.2 m atObject
    | reflexive token => exact absurd object (notReflexive token)
  · rcases List.mem_append.mp atOthers with atGroups | atSuffix
    · obtain ⟨g, inside, within⟩ := List.mem_flatMap.mp atGroups
      obtain ⟨introduced, _, items⟩ := written.groups g inside
      rcases List.mem_cons.mp within with rfl | atItems
      · exact ⟨introduced.2, TokenKind.introducesGroup.isPlainWord introduced.1⟩
      · exact Mark.plain_ofItems (fun p among => (items p among).2) m atItems
    · obtain ⟨t, inside, rfl⟩ := List.mem_map.mp atSuffix
      exact Mark.plain_word (written.suffix t (Option.mem_toList.mp inside))

/-- The line of a call is read as its verb and what follows it. -/
theorem Roles.tokens_line {r : Roles} (written : r.Written Token.Lexed)
    (notReflexive : ∀ token, r.object ≠ .reflexive token) {line : Lexer.Line}
    (text : line.text = r.line.toList) :
    ∃ verb tokens, line.tokens false = (.ok (verb :: tokens), false) ∧ r.verb.Same verb ∧
      List.Forall₂ Mark.Reads r.marks tokens := by
  obtain ⟨tokens, reads, spelled⟩ := Mark.tokensFrom_spelling line (1 + r.verb.text.toList.length)
    (r.plain_marks written notReflexive)
  obtain ⟨verb, same, here⟩ := Lexer.tokensFrom_word line 1 written.verb.2 (Mark.plain_word written.verb).2
    (Mark.stops r.marks) reads
  refine ⟨verb, tokens, ?_, same, spelled⟩
  rw [Lexer.Line.tokens, text, Roles.line, String.toList_ofList]
  exact here

end Satzbau

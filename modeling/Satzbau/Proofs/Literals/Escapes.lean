import Satzbau.Proofs.Repeating.CarriageReturn

namespace Satzbau.Lexer

/-- The number of backslashes at the end of a text. -/
def backslashes (text : List Char) : Nat :=
  (text.reverse.takeWhile (· == '\\')).length

/-- Whether the character behind a text is escaped. An escaped backslash escapes nothing, so it matters whether
the row of backslashes right before the character is odd. -/
def Escapes (text : List Char) : Prop :=
  backslashes text % 2 = 1

instance (text : List Char) : Decidable (Escapes text) :=
  inferInstanceAs (Decidable (_ = _))

/-- A character that stands at some index of the text behind an opening quote and is not escaped there. -/
def UnescapedAt (text : List Char) (index : Nat) (c : Char) : Prop :=
  text[index]? = some c ∧ ¬Escapes (text.take index)

/-- The first quote that is not escaped. -/
def ClosesAt (text : List Char) (index : Nat) : Prop :=
  UnescapedAt text index '"' ∧ ∀ i < index, ¬UnescapedAt text i '"'

/-- A backslash before a character that is written behind none. -/
def BadEscapeAt (text : List Char) (index : Nat) (c : Char) : Prop :=
  UnescapedAt text index '\\' ∧ text[index + 1]? = some c ∧ c ∉ escapes.map Prod.fst

/-- How a character of the value of a literal is written. -/
inductive Spells : List Char → Char → Prop
  | plain {c : Char} (noQuote : c ≠ '"') (noBackslash : c ≠ '\\') : Spells [c] c
  | escape {c value : Char} (known : (c, value) ∈ escapes) : Spells ['\\', c] value

/-- The value of the text between two quotes. -/
inductive Decodes : List Char → List Char → Prop
  | nil : Decodes [] []
  | cons {front rest value : List Char} {c : Char} (spells : Spells front c) (later : Decodes rest value) :
    Decodes (front ++ rest) (c :: value)

/-- What the text behind an opening quote makes of a literal. It ends at the first quote that is not escaped, unless
a bad escape or the end of the text comes first. -/
inductive Literal (text : List Char) : Except QuotedFault Quoted → Prop
  | closed {index : Nat} {value : List Char} (closes : ClosesAt text index) (decodes : Decodes (text.take index) value) :
    Literal text (.ok ⟨value, index + 1⟩)
  | badEscape {index : Nat} {c : Char} (bad : BadEscapeAt text index c)
    (first : ∀ i < index, ∀ d, ¬BadEscapeAt text i d) (inside : ∀ i < index, ¬UnescapedAt text i '"') :
    Literal text (.error (.badEscape index c))
  | unterminated (unclosed : ∀ i, ¬UnescapedAt text i '"') (good : ∀ i d, ¬BadEscapeAt text i d) :
    Literal text (.error .unterminated)

theorem mem_escapes_iff {c value : Char} : (c, value) ∈ escapes ↔ unescape? c = some value := by
  have each : ∀ pair ∈ escapes, unescape? pair.1 = some pair.2 := by decide
  constructor
  · intro known
    exact each (c, value) known
  · intro found
    obtain ⟨before, after, split, _⟩ := List.lookup_eq_some_iff.mp found
    rw [split]
    simp

theorem not_mem_escapes_iff {c : Char} : c ∉ escapes.map Prod.fst ↔ unescape? c = none := by
  rw [Option.eq_none_iff_forall_ne_some, List.mem_map, not_exists]
  constructor
  · intro unknown value found
    exact unknown (c, value) ⟨mem_escapes_iff.mpr found, rfl⟩
  · rintro none ⟨_, value⟩ ⟨known, rfl⟩
    exact none value (mem_escapes_iff.mp known)

theorem backslashes_append (front text : List Char) :
    backslashes (front ++ text) =
      if backslashes text = text.length then text.length + backslashes front else backslashes text := by
  unfold backslashes
  rw [List.reverse_append, List.takeWhile_append, List.length_reverse]
  split
  · rw [List.length_append, List.length_reverse]
  · rfl

variable {front text : List Char} {c : Char}

/-- An even row of backslashes has no effect on what follows it. -/
theorem escapes_append (even : backslashes front % 2 = 0) (text : List Char) :
    Escapes (front ++ text) ↔ Escapes text := by
  unfold Escapes
  rw [backslashes_append]
  split
  · omega
  · rfl

theorem Spells.even (spells : Spells front c) : backslashes front % 2 = 0 := by
  cases spells with
  | plain _ noBackslash => simp [backslashes, noBackslash]
  | escape known =>
    have each : ∀ pair ∈ escapes, backslashes ['\\', pair.1] % 2 = 0 := by decide
    exact each _ known

theorem Spells.unescapedAt_shift (spells : Spells front c) {index : Nat} {d : Char} :
    UnescapedAt (front ++ text) (front.length + index) d ↔ UnescapedAt text index d := by
  have there : (front ++ text)[front.length + index]? = text[index]? := by
    rw [List.getElem?_append_right (Nat.le_add_right _ _), Nat.add_sub_cancel_left]
  unfold UnescapedAt
  rw [there, List.take_length_add_append, escapes_append spells.even]

theorem Spells.badEscapeAt_shift (spells : Spells front c) {index : Nat} {d : Char} :
    BadEscapeAt (front ++ text) (front.length + index) d ↔ BadEscapeAt text index d := by
  have there : (front ++ text)[front.length + index + 1]? = text[index + 1]? := by
    rw [Nat.add_assoc, List.getElem?_append_right (Nat.le_add_right _ _), Nat.add_sub_cancel_left]
  unfold BadEscapeAt
  rw [spells.unescapedAt_shift, there]

/-- Within one character of the value nothing ends the literal. -/
theorem Spells.inside (spells : Spells front c) {index : Nat} (within : index < front.length) :
    ¬UnescapedAt (front ++ text) index '"' ∧ ∀ d, ¬BadEscapeAt (front ++ text) index d := by
  cases spells with
  | plain noQuote noBackslash =>
    have atFront : index = 0 := by simpa using within
    subst atFront
    constructor
    · rintro ⟨found, _⟩
      exact noQuote (Option.some.inj found)
    · rintro d ⟨⟨found, _⟩, _⟩
      exact noBackslash (Option.some.inj found)
  | @escape e _ known =>
    -- The backslash is not escaped but stands before a known letter, and the letter is escaped.
    have second : Escapes ['\\'] := by decide
    have place : index = 0 ∨ index = 1 := by
      simp only [List.length_cons, List.length_nil] at within
      omega
    rcases place with rfl | rfl
    · constructor
      · rintro ⟨found, _⟩
        exact absurd (Option.some.inj found) (by decide)
      · rintro d ⟨_, next, unknown⟩
        have same : e = d := Option.some.inj next
        exact unknown (same ▸ List.mem_map_of_mem known)
    · constructor
      · rintro ⟨_, free⟩
        exact free second
      · rintro d ⟨⟨_, free⟩, _⟩
        exact free second

/-- What happens neither in the front of a text nor behind it does not happen in the text. -/
theorem not_of_parts {whole behind : Nat → Prop} {n bound : Nat} (inside : ∀ i < n, ¬whole i)
    (shift : ∀ i, whole (n + i) ↔ behind i) (later : ∀ i < bound, ¬behind i) : ∀ i < n + bound, ¬whole i := by
  intro i below
  by_cases within : i < n
  · exact inside i within
  · obtain ⟨j, rfl⟩ := Nat.exists_eq_add_of_le (Nat.le_of_not_lt within)
    have beforeBound : j < bound := by omega
    rw [shift]
    exact later j beforeBound

theorem Spells.no_end (spells : Spells front c) {bound : Nat} (behind : ∀ i < bound, ¬UnescapedAt text i '"') :
    ∀ i < front.length + bound, ¬UnescapedAt (front ++ text) i '"' :=
  not_of_parts (fun _ within => (spells.inside within).1) (fun _ => spells.unescapedAt_shift) behind

theorem Spells.no_badEscape (spells : Spells front c) {bound : Nat} (behind : ∀ i < bound, ∀ d, ¬BadEscapeAt text i d) :
    ∀ i < front.length + bound, ∀ d, ¬BadEscapeAt (front ++ text) i d := by
  intro i below d
  have behind (i : Nat) (before : i < bound) : ¬BadEscapeAt text i d := behind i before d
  exact not_of_parts (fun _ within => (spells.inside within).2 d) (fun _ => spells.badEscapeAt_shift) behind i below

/-- One more character in front of a literal. -/
theorem Spells.literal (spells : Spells front c) {result : Except QuotedFault Quoted} (literal : Literal text result) :
    Literal (front ++ text) (Quoted.extend front.length c result) := by
  cases literal with
  | @closed index value closes decodes =>
    have longer : index + 1 + front.length = front.length + index + 1 := by omega
    have taken : (front ++ text).take (front.length + index) = front ++ text.take index := List.take_length_add_append index
    rw [Quoted.extend, longer]
    refine .closed ⟨spells.unescapedAt_shift.mpr closes.1, spells.no_end closes.2⟩ ?_
    rw [taken]
    exact .cons spells decodes
  | @badEscape index d bad first inside =>
    have moved : index + front.length = front.length + index := Nat.add_comm _ _
    rw [Quoted.extend, QuotedFault.shift, moved]
    exact .badEscape (spells.badEscapeAt_shift.mpr bad) (spells.no_badEscape first) (spells.no_end inside)
  | unterminated unclosed good =>
    have all (i : Nat) : i < front.length + (i + 1) := by omega
    refine .unterminated (fun i => ?_) fun i => ?_
    · exact spells.no_end (fun j _ => unclosed j) i (all i)
    · exact spells.no_badEscape (fun j _ => good j) i (all i)

theorem not_unescapedAt_nil (index : Nat) (d : Char) : ¬UnescapedAt [] index d := by
  rintro ⟨found, _⟩
  contradiction

/-- Reading a literal step by step finds what its text as a whole makes of it. -/
theorem literal_quoted (text : List Char) : Literal text (quoted text) := by
  -- The reader takes one spelled character at a time, which changes no place where a literal behind it could end.
  fun_induction quoted text with
  | case1 => exact .unterminated (fun i => not_unescapedAt_nil i _) fun i d bad => not_unescapedAt_nil i _ bad.1
  | case2 =>
    have alone (i : Nat) (d : Char) (found : UnescapedAt ['\\'] i d) : i = 0 ∧ d = '\\' := by
      obtain ⟨found, _⟩ := found
      cases i with
      | zero => exact ⟨rfl, (Option.some.inj found).symm⟩
      | succ i => contradiction
    refine .unterminated (fun i found => ?_) fun i d bad => ?_
    · exact absurd (alone i '"' found).2 (by decide)
    · obtain ⟨found, next, _⟩ := bad
      obtain rfl := (alone i '\\' found).1
      contradiction
  | case3 c rest value known ih => exact (Spells.escape (mem_escapes_iff.mpr known)).literal ih
  | case4 c rest unknown =>
    have free : ¬Escapes [] := by decide
    refine .badEscape ⟨⟨rfl, free⟩, rfl, not_mem_escapes_iff.mpr unknown⟩ (fun i before => ?_) fun i before => ?_
    · exact absurd before (Nat.not_lt_zero i)
    · exact absurd before (Nat.not_lt_zero i)
  | case5 rest =>
    have free : ¬Escapes [] := by decide
    exact .closed ⟨⟨rfl, free⟩, fun i before => absurd before (Nat.not_lt_zero i)⟩ .nil
  | case6 c rest notAlone notEscape notQuote ih =>
    have notBackslash : c ≠ '\\' := by
      intro backslash
      cases rest with
      | nil => exact notAlone backslash rfl
      | cons d later => exact notEscape d later backslash rfl
    exact (Spells.plain notQuote notBackslash).literal ih

theorem Spells.quoted (spells : Spells front c) (rest : List Char) :
    quoted (front ++ rest) = Quoted.extend front.length c (quoted rest) := by
  cases spells with
  | plain noQuote noBackslash =>
    rw [List.singleton_append, quoted_cons noBackslash, if_neg noQuote]
    rfl
  | escape known =>
    rw [List.cons_append, List.singleton_append, Lexer.quoted, mem_escapes_iff.mp known]
    rfl

/-- A text that is the value of a literal in writing is read up to the quote behind it. -/
theorem Decodes.quoted {body value : List Char} (decodes : Decodes body value) (behind : List Char) :
    quoted (body ++ '"' :: behind) = .ok ⟨value, body.length + 1⟩ := by
  induction decodes with
  | nil => rw [List.nil_append, quoted_cons (by decide), if_pos rfl]; rfl
  | @cons front rest value c spells _ ih =>
    have longer : rest.length + 1 + front.length = (front ++ rest).length + 1 := by
      rw [List.length_append]
      omega
    rw [List.append_assoc, spells.quoted, ih, Quoted.extend, longer]

theorem Decodes.no_badEscape {body value : List Char} (decodes : Decodes body value) (text : List Char) :
    ∀ i < body.length, ∀ d, ¬BadEscapeAt (body ++ text) i d := by
  induction decodes with
  | nil => exact nofun
  | cons spells _ ih =>
    rw [List.append_assoc, List.length_append]
    exact spells.no_badEscape ih

theorem UnescapedAt.lt {index : Nat} {d : Char} (unescaped : UnescapedAt text index d) : index < text.length :=
  (List.getElem?_eq_some_iff.mp unescaped.1).1

/-- A literal that is closed has no bad escape before its end. -/
theorem ClosesAt.not_badEscape {index : Nat} {value : List Char} (closes : ClosesAt text index)
    (decodes : Decodes (text.take index) value) {i : Nat} {d : Char} (bad : BadEscapeAt text i d) :
    ∃ j < i, UnescapedAt text j '"' := by
  have inText := closes.1.lt
  rcases Nat.lt_trichotomy i index with before | same | behind
  · have within : i < (text.take index).length := by
      rw [List.length_take]
      omega
    have good := decodes.no_badEscape (text.drop index) i within d
    rw [List.take_append_drop] at good
    exact absurd bad good
  · have quote := closes.1.1
    rw [← same, bad.1.1] at quote
    exact absurd (Option.some.inj quote) (by decide)
  · exact ⟨index, behind, closes.1⟩

theorem ClosesAt.split {index : Nat} (closes : ClosesAt text index) :
    text = text.take index ++ '"' :: text.drop (index + 1) := by
  have inText := closes.1.lt
  have quote : text[index] = '"' := by
    have found := closes.1.1
    rw [List.getElem?_eq_getElem inText] at found
    exact Option.some.inj found
  rw [← quote, ← List.drop_eq_getElem_cons inText, List.take_append_drop]

/-- A text makes only one thing of a literal. -/
theorem Literal.quoted_eq {result : Except QuotedFault Quoted} (literal : Literal text result) : quoted text = result := by
  have read := literal_quoted text
  cases literal with
  | @closed index value closes decodes =>
    have length : (text.take index).length = index := by
      have inText := closes.1.lt
      rw [List.length_take]
      omega
    have known := decodes.quoted (text.drop (index + 1))
    rwa [← closes.split, length] at known
  | @badEscape index d bad first inside =>
    generalize quoted text = other at read
    cases read with
    | closed closes decodes =>
      obtain ⟨j, before, quote⟩ := closes.not_badEscape decodes bad
      exact absurd quote (inside j before)
    | @badEscape index' d' bad' first' _ =>
      have notBefore : ¬index' < index := fun before => first index' before d' bad'
      have notBehind : ¬index < index' := fun behind => first' index behind d bad
      obtain rfl : index' = index := by omega
      have same : some d' = some d := bad'.2.1.symm.trans bad.2.1
      rw [Option.some.inj same]
    | unterminated _ good => exact absurd bad (good index d)
  | unterminated unclosed good =>
    generalize quoted text = other at read
    cases read with
    | closed closes _ => exact absurd closes.1 (unclosed _)
    | badEscape bad _ _ => exact absurd bad (good _ _)
    | unterminated _ _ => rfl

/-- A literal is read exactly as its text makes it. -/
theorem quoted_eq_iff {result : Except QuotedFault Quoted} : quoted text = result ↔ Literal text result := by
  constructor
  · rintro rfl
    exact literal_quoted text
  · exact Literal.quoted_eq

theorem escape?_eq_some {letter : Char} (found : escape? c = some letter) : (letter, c) ∈ escapes := by
  obtain ⟨⟨_, value⟩, first, rfl⟩ := Option.map_eq_some_iff.mp found
  have same : value = c := by simpa using List.find?_some first
  exact same ▸ List.mem_of_find?_eq_some first

theorem escape?_eq_none (found : escape? c = none) : c ≠ '"' ∧ c ≠ '\\' := by
  have others := List.find?_eq_none.mp (Option.map_eq_none_iff.mp found)
  constructor
  · rintro rfl
    exact others ('"', '"') (by decide) rfl
  · rintro rfl
    exact others ('\\', '\\') (by decide) rfl

/-- What is written for a value has that value. -/
theorem decodes_escaped (value : List Char) : Decodes (escaped value) value := by
  induction value with
  | nil => exact .nil
  | cons c rest ih =>
    rw [escaped]
    cases found : escape? c with
    | some letter => exact .cons (.escape (escape?_eq_some found)) ih
    | none =>
      obtain ⟨noQuote, noBackslash⟩ := escape?_eq_none found
      exact .cons (.plain noQuote noBackslash) ih

end Satzbau.Lexer

import Satzbau.Proofs.Lexing
import Satzbau.Proofs.Literals.Numerals
import Satzbau.Proofs.Partition.Locality

namespace Satzbau.Lexer

/-- What can stand behind a digit of a numeral. The flag says whether the digit is behind a comma. -/
inductive Continues : Bool → List Char → Prop
  | stop (inFraction : Bool) : Continues inFraction []
  | digit {inFraction : Bool} {c : Char} {rest : List Char} (digit : c.isDigit = true) (later : Continues inFraction rest) :
    Continues inFraction (c :: rest)
  | point {c : Char} {rest : List Char} (digit : c.isDigit = true) (later : Continues false rest) :
    Continues false ('.' :: c :: rest)
  | comma {c : Char} {rest : List Char} (digit : c.isDigit = true) (later : Continues true rest) :
    Continues false (',' :: c :: rest)

section Tail

variable {inFraction : Bool} {text more rest : List Char} {c : Char}

theorem Continues.behind (continues : Continues inFraction (c :: rest)) (digit : c.isDigit = true) :
    Continues inFraction rest := by
  cases continues with
  | digit _ later => exact later
  | point => exact absurd digit (by decide)
  | comma => exact absurd digit (by decide)

/-- What is taken as a number is one. -/
theorem continues_numberTail (inFraction : Bool) (text : List Char) :
    Continues inFraction (text.take (numberTail inFraction text)) := by
  fun_induction numberTail inFraction text with
  | case1 inFraction => exact .stop inFraction
  | case2 inFraction c rest digit ih => exact .digit digit ih
  | case3 inFraction c rest noDigit stops => exact .stop inFraction
  | case4 inFraction rest goesOn noDigit ih =>
    obtain ⟨rfl, d, later, rfl, digit⟩ := exists_digit_of_goesOn goesOn
    rw [numberTail_digit digit] at ih ⊢
    exact .point digit (ih.behind digit)
  | case5 inFraction rest goesOn noDigit notPoint ih =>
    obtain ⟨rfl, d, later, rfl, digit⟩ := exists_digit_of_goesOn goesOn
    rw [numberTail_digit digit] at ih ⊢
    exact .comma digit (ih.behind digit)
  | case6 inFraction c rest noDigit goesOn notPoint notComma => exact .stop inFraction

/-- Whether a character is a sign that may stand in a numeral. -/
def IsNumeralSign (c : Char) : Prop :=
  c = '.' ∨ c = ','

theorem IsNumeralSign.noDigit (sign : IsNumeralSign c) : ¬c.isDigit = true := by
  rcases sign with rfl | rfl <;> decide

/-- A number goes on behind a sign and a digit, and behind a comma it goes on with its fraction. -/
theorem numberTail_sign {sign : Char} (isSign : IsNumeralSign sign) (digit : c.isDigit = true) (rest : List Char) :
    numberTail false (sign :: c :: rest) = numberTail (sign == ',') rest + 2 := by
  have follows : (false || !(c :: rest).head?.any Char.isDigit) = false := by
    rw [List.head?_cons, Option.any_some, digit]
    rfl
  rw [numberTail, if_neg isSign.noDigit, follows, if_neg Bool.false_ne_true]
  rcases isSign with rfl | rfl
  · rw [if_pos rfl, numberTail_digit digit]
    rfl
  · rw [if_neg (by decide), if_pos rfl, numberTail_digit digit]
    rfl

/-- Nothing that could be a number goes on behind what is taken as one. -/
theorem Continues.length_le (continues : Continues inFraction more) (front : more <+: text) :
    more.length ≤ numberTail inFraction text := by
  induction continues generalizing text with
  | stop => exact Nat.zero_le _
  | digit digit _ ih =>
    obtain ⟨behind, rfl⟩ := front
    have bound := ih (List.prefix_append _ behind)
    rw [List.cons_append, numberTail_digit digit, List.length_cons]
    omega
  | @point c rest digit _ ih =>
    obtain ⟨behind, rfl⟩ := front
    have bound := ih (List.prefix_append rest behind)
    have next : numberTail false ('.' :: c :: (rest ++ behind)) = numberTail false (rest ++ behind) + 2 :=
      numberTail_sign (Or.inl rfl) digit _
    rw [List.cons_append, List.cons_append, next, List.length_cons, List.length_cons]
    omega
  | @comma c rest digit _ ih =>
    obtain ⟨behind, rfl⟩ := front
    have bound := ih (List.prefix_append rest behind)
    have next : numberTail false (',' :: c :: (rest ++ behind)) = numberTail true (rest ++ behind) + 2 :=
      numberTail_sign (Or.inr rfl) digit _
    rw [List.cons_append, List.cons_append, next, List.length_cons, List.length_cons]
    omega

/-- Each sign of a number stands before a digit. -/
theorem Continues.digit_behind_sign (continues : Continues inFraction more) {index : Nat} {sign : Char}
    (isSign : IsNumeralSign sign) (found : more[index]? = some sign) : ∃ d, more[index + 1]? = some d ∧ d.isDigit = true := by
  induction continues generalizing index with
  | stop => contradiction
  | digit digit _ ih =>
    cases index with
    | zero => exact absurd (Option.some.inj found ▸ digit) isSign.noDigit
    | succ index => exact ih found
  | point digit _ ih | comma digit _ ih =>
    match index with
    | 0 => exact ⟨_, rfl, digit⟩
    | 1 => exact absurd (Option.some.inj found ▸ digit) isSign.noDigit
    | index + 2 => exact ih found

theorem DigitRow.exists_cons (row : DigitRow) :
    ∃ c more, row.text = c :: more ∧ c.isDigit = true ∧ ∀ d ∈ more, d.isDigit = true := by
  obtain ⟨c, more, spelled⟩ := List.exists_cons_of_ne_nil row.nonempty
  have digits := row.digits
  rw [spelled, List.forall_mem_cons] at digits
  exact ⟨c, more, spelled, digits⟩

theorem Continues.digits {row : List Char} (digits : ∀ c ∈ row, c.isDigit = true) (continues : Continues inFraction more) :
    Continues inFraction (row ++ more) := by
  induction row with
  | nil => exact continues
  | cons c rest ih =>
    rw [List.forall_mem_cons] at digits
    exact .digit digits.1 (ih digits.2)

theorem continues_fraction (fraction : Option DigitRow) : Continues false (Numeral.behindSign ',' fraction) := by
  cases fraction with
  | none => exact .stop false
  | some row =>
    obtain ⟨c, more, spelled, digit, digits⟩ := row.exists_cons
    have later := Continues.digits digits (.stop true)
    rw [List.append_nil] at later
    rw [Numeral.behindSign, Option.elim_some, spelled]
    exact .comma digit later

/-- A numeral is a digit and what can stand behind it. -/
theorem Numeral.continues (n : Numeral) : ∃ c more, n.text = c :: more ∧ c.isDigit = true ∧ Continues false more := by
  have groups : Continues false (n.groups.flatMap (fun group => '.' :: group.text) ++ behindSign ',' n.fraction) := by
    induction n.groups with
    | nil => exact continues_fraction n.fraction
    | cons group later ih =>
      obtain ⟨c, more, spelled, digit, digits⟩ := group.exists_cons
      rw [List.flatMap_cons, spelled, List.append_assoc]
      exact .point digit (ih.digits digits)
  obtain ⟨c, more, spelled, digit, digits⟩ := n.first.exists_cons
  refine ⟨c, more ++ (n.groups.flatMap (fun group => '.' :: group.text) ++ behindSign ',' n.fraction), ?_, digit,
    groups.digits digits⟩
  rw [text, spelled, List.cons_append]

theorem Continues.fraction_digits (continues : Continues inFraction more) (atFraction : inFraction = true) :
    ∀ c ∈ more, c.isDigit = true := by
  induction continues with
  | stop => exact nofun
  | digit digit _ ih => exact List.forall_mem_cons.mpr ⟨digit, ih atFraction⟩
  | point => contradiction
  | comma => contradiction

def DigitRow.single (digit : c.isDigit = true) : DigitRow :=
  ⟨[c], List.cons_ne_nil _ _, List.forall_mem_singleton.mpr digit⟩

def DigitRow.cons (digit : c.isDigit = true) (row : DigitRow) : DigitRow :=
  ⟨c :: row.text, List.cons_ne_nil _ _, List.forall_mem_cons.mpr ⟨digit, row.digits⟩⟩

theorem Continues.exists_numeral (continues : Continues inFraction more) (atWhole : inFraction = false)
    (digit : c.isDigit = true) : ∃ n : Numeral, n.text = c :: more := by
  induction continues generalizing c with
  | stop => exact ⟨⟨.single digit, [], none⟩, rfl⟩
  | digit next _ ih =>
    obtain ⟨n, spelled⟩ := ih atWhole next
    refine ⟨⟨.cons digit n.first, n.groups, n.fraction⟩, ?_⟩
    rw [← spelled]
    rfl
  | point next _ ih =>
    obtain ⟨n, spelled⟩ := ih atWhole next
    refine ⟨⟨.single digit, n.first :: n.groups, n.fraction⟩, ?_⟩
    rw [← spelled, Numeral.text, Numeral.text, List.flatMap_cons, List.append_assoc]
    rfl
  | @comma d rest next later _ =>
    have digits := later.fraction_digits rfl
    exact ⟨⟨.single digit, [], some ⟨d :: rest, List.cons_ne_nil _ _, List.forall_mem_cons.mpr ⟨next, digits⟩⟩⟩, rfl⟩

end Tail

/-- A reader of decimal numbers that have a point: it accepts each row of digits and each two of them with a point
between, and it gives what their value is rounded to. -/
structure ReadsDecimals {α : Type} (read : List Char → Option α) (round : ℚ → α) : Prop where
  whole : ∀ w : DigitRow, read w.text = some (round (natural w.text))
  fraction : ∀ w f : DigitRow,
    read (w.text ++ '.' :: f.text) = some (round (natural w.text + natural f.text / 10 ^ f.text.length))

/-- Without its points and with a point for its comma, a numeral is a decimal number that has a point. -/
theorem ReadsDecimals.numeral {α : Type} {read : List Char → Option α} {round : ℚ → α} (reads : ReadsDecimals read round)
    (n : Numeral) : read (pointed n.text) = some (round n.value) := by
  rw [n.pointed_text]
  unfold Numeral.value Numeral.decimals
  cases n.fraction with
  | none =>
    have nothing : ((natural [] : ℕ) : ℚ) / 10 ^ ([] : List Char).length = 0 := by simp [natural]
    rw [Numeral.behindSign, Option.elim_none, Option.elim_none, List.append_nil, reads.whole, nothing, add_zero]
  | some f => exact reads.fraction n.whole f

theorem lexeme_digit {c : Char} (digit : c.isDigit = true) (rest : List Char) :
    lexeme c rest = .ok (.number (numberValue (c :: rest.take (numberTail false rest))), numberTail false rest + 1) := by
  rw [lexeme, if_neg (isDigit_ne digit (by decide)), if_pos digit]
  rfl

/-- No token but the sign itself begins with a sign that may stand in a numeral. -/
theorem lexeme_numeralSign {sign : Char} (isSign : IsNumeralSign sign) (rest : List Char) :
    lexeme sign rest = .ok (if sign = '.' then .period else .comma, 1) := by
  have alone (next : Option Char) : doubleSign? sign next = none := by
    have first : ∀ entry ∈ doubleSigns, ¬IsNumeralSign entry.1.1 := by
      unfold IsNumeralSign
      decide
    cases found : doubleSign? sign next with
    | none => rfl
    | some kind =>
      obtain ⟨d, inTable⟩ := mem_doubleSigns found
      exact absurd isSign (first _ inTable)
  rcases isSign with rfl | rfl
  · rw [lexeme, if_neg (by decide), if_neg (by decide), if_neg (by decide +kernel), sign?, alone]
    rfl
  · rw [lexeme, if_neg (by decide), if_neg (by decide), if_neg (by decide +kernel), sign?, alone]
    rfl

theorem lexeme_not_invalidNumber {c : Char} {rest : List Char} {flaw : Flaw} (found : lexeme c rest = .error flaw)
    (literal : String) : flaw.fault ≠ .invalidNumber literal := by
  unfold lexeme at found
  split at found
  · split at found <;> cases found <;> exact Fault.noConfusion
  · split at found
    · cases found
    · split at found
      · cases found
      · split at found <;> cases found
        exact Fault.noConfusion

/-- In a numeral a digit follows each sign. -/
theorem Numeral.digit_behind_sign (n : Numeral) {index : Nat} {sign : Char} (isSign : IsNumeralSign sign)
    (found : n.text[index]? = some sign) : ∃ d, n.text[index + 1]? = some d ∧ d.isDigit = true := by
  obtain ⟨c, more, spelled, digit, continues⟩ := n.continues
  rw [spelled] at found ⊢
  cases index with
  | zero => exact absurd (Option.some.inj found ▸ digit) isSign.noDigit
  | succ index => exact continues.digit_behind_sign isSign found

/-- A numeral does not reach a sign that no digit follows. -/
theorem Numeral.length_le_of_sign (n : Numeral) {behind : List Char} {index : Nat} {sign : Char} (isSign : IsNumeralSign sign)
    (found : (n.text ++ behind)[index]? = some sign) (noDigit : ∀ d ∈ (n.text ++ behind)[index + 1]?, d.isDigit = false) :
    n.text.length ≤ index := by
  by_contra within
  have inside : index < n.text.length := Nat.lt_of_not_le within
  rw [List.getElem?_append_left inside] at found
  obtain ⟨d, next, digit⟩ := n.digit_behind_sign isSign found
  have inside' : index + 1 < n.text.length := (List.getElem?_eq_some_iff.mp next).1
  rw [List.getElem?_append_left inside'] at noDigit
  rw [noDigit d next] at digit
  contradiction

/-- The longest numeral at the front of a text that begins with a digit. -/
theorem exists_longest_numeral {c : Char} (digit : c.isDigit = true) (rest : List Char) :
    ∃ n : Numeral, n.text = (c :: rest).take (numberTail false rest + 1) ∧
      ∀ m : Numeral, m.text <+: c :: rest → m.text <+: n.text := by
  obtain ⟨n, spelled⟩ := (continues_numberTail false rest).exists_numeral rfl digit
  have front : n.text = (c :: rest).take (numberTail false rest + 1) := spelled
  refine ⟨n, front, fun m other => ?_⟩
  obtain ⟨d, more, spelledOther, _, continues⟩ := m.continues
  have longest : more.length ≤ numberTail false rest := by
    rw [spelledOther, List.cons_prefix_cons] at other
    exact continues.length_le other.2
  have taken := numberTail_le false rest
  have shorter : m.text.length ≤ n.text.length := by
    rw [spelledOther, front, List.length_cons, List.length_take, List.length_cons]
    omega
  exact List.prefix_of_prefix_length_le other (front ▸ List.take_prefix _ _) shorter

/-- How a number is read at the front of a text: as a numeral with which no longer one begins. -/
structure Line.ReadsNumber (line : Line) (column : Nat) (text : List Char) (n : Numeral) (behind : List Char) : Prop where
  whole : text = n.text ++ behind
  longest : ∀ m : Numeral, m.text <+: text → m.text <+: n.text
  /-- The token covers the numeral and has its value. -/
  token : ∃ value : Decimal, value.value = n.value ∧ line.ReadsFirst column (.number value) n.text behind
  /-- A point or a comma that no digit follows is behind the numeral. -/
  leaves : ∀ index sign, IsNumeralSign sign → text[index]? = some sign →
    (∀ d ∈ text[index + 1]?, d.isDigit = false) → n.text.length ≤ index
  /-- One that is right behind the numeral is the next token. -/
  next : ∀ sign later, IsNumeralSign sign → behind = sign :: later →
    line.ReadsFirst (column + n.text.length) (if sign = '.' then .period else .comma) [sign] later

theorem Line.exists_readsNumber (line : Line) (column : Nat) {c : Char} (digit : c.isDigit = true) (rest : List Char) :
    ∃ n behind, line.ReadsNumber column (c :: rest) n behind := by
  obtain ⟨n, front, longest⟩ := exists_longest_numeral digit rest
  have found : lexeme c rest = .ok (.number (numberValue n.text), numberTail false rest + 1) := by
    rw [front, List.take_succ_cons]
    exact lexeme_digit digit rest
  have first := line.readsFirst (.of_ne (lexeme_not_blank found) (isDigit_ne digit (by decide))) column found
  have whole : c :: rest = n.text ++ (c :: rest).drop (numberTail false rest + 1) := by
    rw [front, List.take_append_drop]
  rw [← front] at first
  refine ⟨n, _, whole, longest, ⟨numberValue n.text, n.numberValue_text, first⟩, ?_, ?_⟩
  · intro index sign isSign there noDigit
    rw [whole] at there noDigit
    exact n.length_le_of_sign isSign there noDigit
  · intro sign later isSign behind
    have found := lexeme_numeralSign isSign later
    have noSlash : sign ≠ '/' := by rcases isSign with rfl | rfl <;> decide
    exact line.readsFirst (.of_ne (lexeme_not_blank found) noSlash) _ found

/-- A number is the longest numeral with which the rest of its line begins, and means what the numeral does. It can always
be read by whoever reads the decimal numbers that have a point, so no line fails at a number. -/
theorem Line.number_maximal {α : Type} {read : List Char → Option α} {round : ℚ → α} (reads : ReadsDecimals read round)
    (line : Line) (column : Nat) {c : Char} (digit : c.isDigit = true) (rest : List Char) :
    (∃ n behind, line.ReadsNumber column (c :: rest) n behind ∧ read (pointed n.text) = some (round n.value)) ∧
    ∀ column inComment text d, (line.tokensFrom column inComment text).1 = .error d →
      ∀ literal, d.fault ≠ .invalidNumber literal := by
  obtain ⟨n, behind, number⟩ := line.exists_readsNumber column digit rest
  refine ⟨⟨n, behind, number, reads.numeral n⟩, ?_⟩
  intro column inComment text d failed literal
  exact @tokensFrom_fault_forall (· ≠ .invalidNumber literal) line
    (fun _ _ _ found => lexeme_not_invalidNumber found literal) column inComment text d failed

/-- The bits of the double that is nearest to a rational number. -/
def nearestDouble (q : ℚ) : ℕ :=
  Binary64.ofQuotient q.num.natAbs q.den

/-- Reads a decimal number that may have a point, and gives the nearest double. -/
def readDouble (text : List Char) : Option ℕ :=
  let whole := text.takeWhile Char.isDigit
  if whole = [] then none
  else
    match text.dropWhile Char.isDigit with
    | [] => some (nearestDouble (natural whole))
    | sign :: fraction =>
      if sign = '.' ∧ fraction ≠ [] ∧ fraction.all Char.isDigit then
        some (nearestDouble (natural whole + natural fraction / 10 ^ fraction.length))
      else none

theorem readDouble_reads : ReadsDecimals readDouble nearestDouble where
  whole w := by
    have all : w.text.takeWhile Char.isDigit = w.text := List.takeWhile_eq_self_iff.mpr w.digits
    have nothing : w.text.dropWhile Char.isDigit = [] := List.dropWhile_eq_nil_iff.mpr w.digits
    rw [readDouble, all, nothing, if_neg w.nonempty]
  fraction w f := by
    have stops : ∀ d ∈ ('.' :: f.text).head?, d.isDigit = false := by
      rintro _ ⟨⟩
      decide
    rw [readDouble, takeWhile_append_stop w.digits stops, dropWhile_append_stop w.digits stops, if_neg w.nonempty]
    exact if_pos ⟨rfl, f.nonempty, List.all_eq_true.mpr f.digits⟩

/-- The numeral `1.234.5,50`. -/
def grouped : Numeral where
  first := ⟨['1'], List.cons_ne_nil _ _, List.all_eq_true.mp rfl⟩
  groups := [⟨['2', '3', '4'], List.cons_ne_nil _ _, List.all_eq_true.mp rfl⟩,
    ⟨['5'], List.cons_ne_nil _ _, List.all_eq_true.mp rfl⟩]
  fraction := some ⟨['5', '0'], List.cons_ne_nil _ _, List.all_eq_true.mp rfl⟩

theorem grouped_value : grouped.value = 24691 / 2 := by
  have whole : natural grouped.whole.text = 12345 := by decide
  have decimals : natural grouped.decimals = 50 ∧ grouped.decimals.length = 2 := by decide
  rw [Numeral.value, whole, decimals.1, decimals.2]
  norm_num

/-- The point that closes a block behind a number is no part of it. -/
theorem grouped_before_point :
    ReadsDecimals readDouble nearestDouble ∧ '1'.isDigit = true ∧
      (∃ value : Decimal, value.value = 24691 / 2 ∧
        Line.ReadsFirst ⟨"satz", 1, []⟩ 1 (.number value) "1.234.5,50".toList ['.']) ∧
      Line.ReadsFirst ⟨"satz", 1, []⟩ 11 .period ['.'] [] ∧
      readDouble "12345.50".toList = some (nearestDouble (24691 / 2)) := by
  obtain ⟨⟨n, behind, number, reads⟩, _⟩ :=
    Line.number_maximal readDouble_reads ⟨"satz", 1, []⟩ 1 (show '1'.isDigit = true by decide) ".234.5,50.".toList
  have covers : grouped.text <+: n.text := number.longest grouped ⟨['.'], rfl⟩
  have ends : n.text.length ≤ grouped.text.length := number.leaves 10 '.' (Or.inl rfl) rfl nofun
  have same : n.text = grouped.text := (List.IsPrefix.eq_of_length_le covers ends).symm
  -- The longest numeral reaches at least as far as this one, and not as far as the last point.
  obtain rfl : behind = ['.'] := by
    have split : grouped.text ++ ['.'] = n.text ++ behind := number.whole
    rw [same] at split
    exact (List.append_cancel_left split).symm
  have amount : n.value = 24691 / 2 := by rw [Numeral.value_congr same, grouped_value]
  obtain ⟨value, means, first⟩ := number.token
  have point := number.next '.' [] (Or.inl rfl) rfl
  rw [same] at first point
  rw [same, amount] at reads
  exact ⟨readDouble_reads, by decide, ⟨value, means.trans amount, first⟩, point, reads⟩

end Satzbau.Lexer

import Mathlib.Data.List.Induction
import Mathlib.Data.Nat.Digits.Defs
import Mathlib.Tactic.FieldSimp
import Mathlib.Tactic.Ring
import Satzbau.Lexer.Number

namespace Satzbau

/-- The rational number that a decimal number is. -/
def Decimal.value (d : Decimal) : ℚ :=
  d.digits / 10 ^ d.places

namespace Lexer

/-- A row of digits. -/
structure DigitRow where
  text : List Char
  nonempty : text ≠ []
  digits : ∀ c ∈ text, c.isDigit = true

/-- A written number: digits, groups of digits behind a point each, and perhaps digits behind a comma. -/
structure Numeral where
  first : DigitRow
  groups : List DigitRow
  fraction : Option DigitRow

/-- The number that digits are, the first of which counts most. -/
def natural (digits : List Char) : ℕ :=
  Nat.ofDigits 10 (digits.reverse.map digitValue)

namespace Numeral

/-- The digits behind a sign, if there are any. -/
def behindSign (sign : Char) (row : Option DigitRow) : List Char :=
  row.elim [] fun row => sign :: row.text

def text (n : Numeral) : List Char :=
  n.first.text ++ (n.groups.flatMap (fun group => '.' :: group.text) ++ behindSign ',' n.fraction)

/-- The digits before the comma. -/
def whole (n : Numeral) : DigitRow where
  text := n.first.text ++ n.groups.flatMap DigitRow.text
  nonempty := List.append_ne_nil_of_left_ne_nil n.first.nonempty _
  digits c member := by
    rcases List.mem_append.mp member with inFirst | inGroups
    · exact n.first.digits c inFirst
    · obtain ⟨group, _, inGroup⟩ := List.mem_flatMap.mp inGroups
      exact group.digits c inGroup

/-- The digits behind the comma. -/
def decimals (n : Numeral) : List Char :=
  n.fraction.elim [] DigitRow.text

/-- The number that is written when the points are left out and the comma is a decimal point. -/
def value (n : Numeral) : ℚ :=
  natural n.whole.text + natural n.decimals / 10 ^ n.decimals.length

end Numeral

/-- A text without its points, and with points in the place of its commas. -/
def pointed (text : List Char) : List Char :=
  (text.filter (· ≠ '.')).map fun c => if c = ',' then '.' else c

theorem natural_append (digits more : List Char) :
    natural (digits ++ more) = natural digits * 10 ^ more.length + natural more := by
  unfold natural
  rw [List.reverse_append, List.map_append, Nat.ofDigits_append, List.length_map, List.length_reverse]
  ring

theorem naturalOfDigits_eq (digits : List Char) : naturalOfDigits digits = natural digits := by
  induction digits using List.reverseRecOn with
  | nil => rfl
  | append_singleton digits c ih =>
    have last : natural [c] = digitValue c := Nat.ofDigits_singleton
    have step : naturalOfDigits (digits ++ [c]) = 10 * naturalOfDigits digits + digitValue c := List.foldl_concat ..
    rw [step, ih, natural_append, last, List.length_singleton]
    ring

variable {row : List Char}

theorem isDigit_ne {c sign : Char} (digit : c.isDigit = true) (noDigit : sign.isDigit = false) : c ≠ sign := by
  rintro rfl
  rw [digit] at noDigit
  contradiction

theorem filter_digits (digits : ∀ c ∈ row, c.isDigit = true) {p : Char → Bool} (all : ∀ c, c.isDigit = true → p c = true) :
    row.filter p = row :=
  List.filter_eq_self.mpr fun c member => all c (digits c member)

theorem pointed_append (text more : List Char) : pointed (text ++ more) = pointed text ++ pointed more := by
  rw [pointed, List.filter_append, List.map_append]
  rfl

theorem pointed_digits (digits : ∀ c ∈ row, c.isDigit = true) : pointed row = row := by
  have kept : row.filter (· ≠ '.') = row :=
    filter_digits digits fun c digit => decide_eq_true (isDigit_ne digit (by decide))
  have same : ∀ c ∈ row, (if c = ',' then '.' else c) = c := by
    intro c member
    rw [if_neg (isDigit_ne (digits c member) (by decide))]
  rw [pointed, kept, List.map_congr_left same, List.map_id']

namespace Numeral

theorem behindSign_isDigit {sign : Char} (noDigit : sign.isDigit = false) (row : Option DigitRow) :
    (behindSign sign row).filter Char.isDigit = row.elim [] DigitRow.text := by
  have other : ¬sign.isDigit = true := by simp [noDigit]
  cases row with
  | none => rfl
  | some row => exact (List.filter_cons_of_neg other).trans (filter_digits row.digits fun _ digit => digit)

theorem pointed_behindComma (row : Option DigitRow) : pointed (behindSign ',' row) = behindSign '.' row := by
  cases row with
  | none => rfl
  | some row => exact congrArg ('.' :: ·) (pointed_digits row.digits)

/-- What leaves out the point before each group leaves out the points of all groups. -/
theorem groups_eq {change : List Char → List Char} (nil : change [] = [])
    (append : ∀ text more, change (text ++ more) = change text ++ change more)
    (group : ∀ row : DigitRow, change ('.' :: row.text) = row.text) (groups : List DigitRow) :
    change (groups.flatMap fun group => '.' :: group.text) = groups.flatMap DigitRow.text := by
  induction groups with
  | nil => exact nil
  | cons first later ih => rw [List.flatMap_cons, List.flatMap_cons, append, group, ih]

theorem pointed_groups (groups : List DigitRow) :
    pointed (groups.flatMap fun group => '.' :: group.text) = groups.flatMap DigitRow.text :=
  groups_eq rfl pointed_append (fun row => pointed_digits row.digits) groups

theorem pointed_text (n : Numeral) : pointed n.text = n.whole.text ++ behindSign '.' n.fraction := by
  unfold text
  rw [pointed_append, pointed_append, pointed_digits n.first.digits, pointed_groups, pointed_behindComma,
    ← List.append_assoc]
  rfl

theorem filter_groups (groups : List DigitRow) :
    (groups.flatMap fun group => '.' :: group.text).filter Char.isDigit = groups.flatMap DigitRow.text :=
  @groups_eq (List.filter Char.isDigit) rfl List.filter_append (fun row => filter_digits row.digits fun _ digit => digit) groups

theorem filter_text (n : Numeral) : n.text.filter Char.isDigit = n.whole.text ++ n.decimals := by
  unfold text
  rw [List.filter_append, List.filter_append, filter_digits n.first.digits fun _ digit => digit, filter_groups,
    behindSign_isDigit (by decide), ← List.append_assoc]
  rfl

/-- There is no comma before the fraction. -/
theorem dropWhile_text (n : Numeral) : n.text.dropWhile (· ≠ ',') = behindSign ',' n.fraction := by
  have noComma {row : DigitRow} : ∀ c ∈ row.text, decide (c ≠ ',') = true := fun c member =>
    decide_eq_true (isDigit_ne (row.digits c member) (by decide))
  have groups : ∀ c ∈ n.groups.flatMap (fun group => '.' :: group.text), decide (c ≠ ',') = true := by
    intro c member
    obtain ⟨group, _, inGroup⟩ := List.mem_flatMap.mp member
    rcases List.mem_cons.mp inGroup with rfl | inRow
    · decide
    · exact noComma c inRow
  unfold text
  rw [List.dropWhile_append_of_pos noComma, List.dropWhile_append_of_pos groups]
  cases n.fraction with
  | none => rfl
  | some row => exact List.dropWhile_cons_of_neg (by decide)

theorem numberValue_text (n : Numeral) : (numberValue n.text).value = n.value := by
  have digits : (numberValue n.text).digits = natural n.whole.text * 10 ^ n.decimals.length + natural n.decimals := by
    rw [numberValue, filter_text, naturalOfDigits_eq, natural_append]
  have places : (numberValue n.text).places = n.decimals.length := by
    rw [numberValue, dropWhile_text, behindSign_isDigit (by decide)]
    rfl
  rw [Decimal.value, value, digits, places]
  push_cast
  field_simp

/-- The value of a numeral is decided by how it is written. -/
theorem value_congr {n m : Numeral} (same : n.text = m.text) : n.value = m.value := by
  rw [← n.numberValue_text, same, m.numberValue_text]

end Numeral

end Lexer

end Satzbau

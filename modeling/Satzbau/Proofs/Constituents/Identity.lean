import Satzbau.Proofs.Constituents.Listing
import Satzbau.Proofs.Parsing.NumberedDefinitions
import Satzbau.Proofs.Text

namespace Satzbau

/-- Where everything that occurs has an id of its own, an id stands twice only where a role is followed by the
phrase that it shares with its value. -/
theorem Carries.eq_of_id {cs : List Constituent} {os : List Occurrence} (carries : Carries cs os)
    (distinct : (idsOf os).Nodup) {i j : Nat} (before : i < j) {first second : Constituent} {id : NodeId}
    (atFirst : cs[i]? = some first) (atSecond : cs[j]? = some second) (firstId : first.id? = some id)
    (secondId : second.id? = some id) :
    ∃ a, first = .role a ∧ second = .phrase a.phrase ∧ j = i + 1 ∧
      a.value.bind Expression.leadingProperty? = some a.phrase := by
  induction carries generalizing i j with
  | nil => contradiction
  | plain nothing _ ih =>
    obtain ⟨j, rfl⟩ := Nat.exists_eq_add_one_of_ne_zero (Nat.ne_of_gt (Nat.zero_lt_of_lt before))
    cases i with
    | zero =>
      cases atFirst
      rw [Constituent.id?, nothing] at firstId
      contradiction
    | succ i =>
      obtain ⟨a, isRole, isPhrase, next, leads⟩ := ih distinct (Nat.lt_of_succ_lt_succ before) atFirst atSecond
      exact ⟨a, isRole, isPhrase, congrArg Nat.succ next, leads⟩
  | @own c o cs os carried later ih =>
    obtain ⟨new, distinct⟩ := List.nodup_cons.mp distinct
    obtain ⟨j, rfl⟩ := Nat.exists_eq_add_one_of_ne_zero (Nat.ne_of_gt (Nat.zero_lt_of_lt before))
    cases i with
    | zero =>
      cases atFirst
      rw [Constituent.id?, carried] at firstId
      cases firstId
      exact absurd (later.mem_ids (List.mem_of_getElem? atSecond) secondId) new
    | succ i =>
      obtain ⟨a, isRole, isPhrase, next, leads⟩ := ih distinct (Nat.lt_of_succ_lt_succ before) atFirst atSecond
      exact ⟨a, isRole, isPhrase, congrArg Nat.succ next, leads⟩
  | @shared a cs os leads later ih =>
    obtain ⟨new, distinct⟩ := List.nodup_cons.mp distinct
    obtain ⟨j, rfl⟩ := Nat.exists_eq_add_one_of_ne_zero (Nat.ne_of_gt (Nat.zero_lt_of_lt before))
    cases i with
    | zero =>
      cases atFirst
      cases j with
      | zero =>
        cases atSecond
        exact ⟨a, rfl, rfl, rfl, leads⟩
      | succ j =>
        cases firstId
        exact absurd (later.mem_ids (List.mem_of_getElem? atSecond) secondId) new
    | succ i =>
      obtain ⟨j, rfl⟩ := Nat.exists_eq_add_one_of_ne_zero (Nat.ne_of_gt (Nat.zero_lt_of_lt (Nat.lt_of_succ_lt_succ before)))
      cases i with
      | zero =>
        cases atFirst
        cases firstId
        exact absurd (later.mem_ids (List.mem_of_getElem? atSecond) secondId) new
      | succ i =>
        obtain ⟨a, isRole, isPhrase, next, leads⟩ :=
          ih distinct (Nat.lt_of_succ_lt_succ (Nat.lt_of_succ_lt_succ before)) atFirst atSecond
        exact ⟨a, isRole, isPhrase, congrArg (· + 2) next, leads⟩

/-- The ids of a program tell its phrases and calls apart. Only the phrase with which an argument names its role
may have its id twice: where it is also the property with which the value of the argument begins, and there it is
the same phrase. -/
theorem TokenStream.ids_tell_apart {stream : TokenStream} {p : Program} (parsed : stream.program = .ok p) {i j : Nat}
    (before : i < j) {first second : Constituent} {id : NodeId} (atFirst : p.constituents[i]? = some first)
    (atSecond : p.constituents[j]? = some second) (firstId : first.id? = some id) (secondId : second.id? = some id) :
    ∃ a, first = .role a ∧ second = .phrase a.phrase ∧ j = i + 1 ∧
      a.value.bind Expression.leadingProperty? = some a.phrase :=
  (Carries.program p).eq_of_id (nodup_ids parsed) before atFirst atSecond firstId secondId

/-- A call with a role that is the beginning of its value, and with one that has its value behind it. -/
def readingTheLine : String :=
  "lies die Zeile des Buches mit der Zahl 1\n"

theorem readingTheLine_shares :
    ∃ p first second, (TokenStream.ofText .none ⟨"satz"⟩ readingTheLine).program = .ok p ∧
      p.constituents.map Constituent.id? = [some 0, none, some 1, some 1, some 2, none, some 3, none] ∧
      p.constituents[2]? = some first ∧ p.constituents[3]? = some second ∧
      ∃ a, first = .role a ∧ second = .phrase a.phrase ∧ a.value.bind Expression.leadingProperty? = some a.phrase := by
  have stream := TokenStream.ofText_eq .none ⟨"satz"⟩ readingTheLine (by decide +kernel)
  have computed : ((TokenStream.ofText .none ⟨"satz"⟩ readingTheLine).program.map fun p =>
      p.constituents.map Constituent.id?).toOption =
        some [some 0, none, some 1, some 1, some 2, none, some 3, none] := by
    rw [stream]
    decide +kernel
  obtain ⟨p, parsed, viewed⟩ := exists_ok_of_view computed
  have known (k : Nat) : p.constituents[k]?.map Constituent.id? =
      [some 0, none, some 1, some 1, some 2, none, some 3, none][k]? := by
    rw [← List.getElem?_map, viewed]
  obtain ⟨first, atFirst, firstId⟩ := Option.map_eq_some_iff.mp (known 2)
  obtain ⟨second, atSecond, secondId⟩ := Option.map_eq_some_iff.mp (known 3)
  obtain ⟨a, isRole, isPhrase, _, leads⟩ :=
    TokenStream.ids_tell_apart parsed (by decide) atFirst atSecond firstId secondId
  exact ⟨p, first, second, parsed, viewed, atFirst, atSecond, a, isRole, isPhrase, leads⟩

end Satzbau

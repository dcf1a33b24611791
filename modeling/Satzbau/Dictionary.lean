import Satzbau.Collation
import Satzbau.Declension
import Satzbau.Diagnostic

namespace Satzbau

open Collation

/-- The known declensions, in the order of their nominatives. -/
structure Dictionary where
  entries : List Declension
deriving DecidableEq, Repr, Inhabited

namespace Dictionary

def empty : Dictionary :=
  ⟨[]⟩

/-- Puts an entry before the first one whose nominative is not smaller, none if its nominative is
already there. -/
def insertBefore (entry : Declension) : List Declension → Option (List Declension)
  | [] => some [entry]
  | first :: later =>
    match compareWords first.nominative entry.nominative with
    | .lt => (insertBefore entry later).map (first :: ·)
    | .eq => none
    | .gt => some (entry :: first :: later)

def insert (d : Dictionary) (entry : Declension) : Except Fault Dictionary :=
  match insertBefore entry d.entries with
  | some entries => .ok ⟨entries⟩
  | none => .error (.duplicateDeclension entry.nominative)

def get? (d : Dictionary) (nominative : String) : Option Declension :=
  d.entries.find? fun entry => entry.nominative == nominative

/-- Halves the entries with indices from `low` up to `high`. An entry is met when its nominative
and the word are alike as far as the shorter of them goes; it is the answer if the word is one of
its forms. -/
def searchBetween (entries : List Declension) (word : String) (low high : Nat) : Option Declension :=
  if low < high then
    let middle := low + (high - low) / 2
    match entries[middle]? with
    | none => none
    | some entry =>
      match compareFronts word entry.nominative with
      | .lt => searchBetween entries word low middle
      | .gt => searchBetween entries word (middle + 1) high
      | .eq =>
        if entry.contains word then some entry
        else if compareWords word entry.nominative = .lt then searchBetween entries word low middle
        else searchBetween entries word (middle + 1) high
  else none
termination_by high - low

/-- The entries from the first one whose nominative does not sort before a word, umlauts aside. -/
def entriesFrom (d : Dictionary) (word : String) : List Declension :=
  d.entries.dropWhile fun entry => compareFolded entry.nominative word = .lt

/-- Looks among the entries whose nominatives begin with the word. -/
def searchLonger (d : Dictionary) (word : String) : Option Declension :=
  ((d.entriesFrom word).takeWhile fun entry => startsWithFolded entry.nominative word).find?
    fun entry => entry.contains word

/-- The proper beginnings of a word, the longest first. -/
def stems (word : String) : List String :=
  (List.range (word.length - 1)).reverse.map fun n => String.ofList (word.toList.take (n + 1))

/-- Looks among the entries whose nominatives are beginnings of the word, the longest first. -/
def searchStems (d : Dictionary) (word : String) : Option Declension :=
  (stems word).findSome? fun stem =>
    ((d.entriesFrom stem).takeWhile fun entry => equalFolded entry.nominative stem).find?
      fun entry => entry.contains word

/-- The entry that has a word among its forms. -/
def lookup (d : Dictionary) (word : String) : Except Fault Declension :=
  match (searchBetween d.entries word 0 d.entries.length).or
      ((d.searchLonger word).or (d.searchStems word)) with
  | some entry => .ok entry
  | none => .error (.unknownWord word)

end Dictionary

end Satzbau

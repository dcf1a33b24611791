namespace Satzbau.Collation

/-- A vowel without its umlaut. -/
def fold : Char → Char
  | 'ä' => 'a'
  | 'ö' => 'o'
  | 'ü' => 'u'
  | 'Ä' => 'A'
  | 'Ö' => 'O'
  | 'Ü' => 'U'
  | c => c

def folded (word : String) : List Char :=
  word.toList.map fold

/-- Compares two words without regard to umlauts. -/
def compareFolded (a b : String) : Ordering :=
  compare (folded a) (folded b)

/-- The order of the dictionary: umlauts count only between words that are else equal. -/
def compareWords (a b : String) : Ordering :=
  (compareFolded a b).then (compare a.toList b.toList)

/-- Compares the fronts of two words, each cut to the length of the shorter one. -/
def compareFronts (a b : String) : Ordering :=
  let length := min a.length b.length
  compare ((folded a).take length) ((folded b).take length)

def startsWithFolded (word front : String) : Bool :=
  (folded front).isPrefixOf (folded word)

def equalFolded (a b : String) : Bool :=
  folded a == folded b

end Satzbau.Collation

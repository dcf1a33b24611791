namespace Satzbau

/-- The pieces of a text between slashes, at least one. -/
def segments : List Char → List (List Char)
  | [] => [[]]
  | c :: rest =>
    if c = '/' then [] :: segments rest
    else
      match segments rest with
      | [] => [[c]]
      | first :: others => (c :: first) :: others

/-- A path as it was written. -/
structure Path where
  written : String
deriving DecidableEq, Repr, Inhabited

/-- A meaningful piece of a path. -/
inductive Path.Part
  | root
  | here
  | up
  | name (text : String)
deriving DecidableEq, Repr

namespace Path

def isAbsolute (p : Path) : Bool :=
  p.written.toList.head? == some '/'

/-- No file can be asked for by a path with a zero character. -/
def holdsZero (p : Path) : Bool :=
  p.written.toList.contains '\x00'

/-- The segments of a path, one for each step of a walk. -/
def steps (p : Path) : List String :=
  (segments p.written.toList).map String.ofList

/-- Empty segments and inner dots say nothing. -/
def isSilent (segment : List Char) : Bool :=
  segment == [] || segment == ['.']

def partOfSegment (segment : List Char) : Part :=
  if segment = ['.', '.'] then .up else .name (String.ofList segment)

/-- The parts of a path. A leading dot is one of them, so `./a` and `a` differ, while `a//b`, `a/./b`
and `a/b/` are equal. -/
def parts (p : Path) : List Part :=
  let pieces := segments p.written.toList
  let named := (pieces.filter fun segment => !isSilent segment).map partOfSegment
  if p.isAbsolute then .root :: named
  else if pieces.head? = some ['.'] then .here :: named
  else named

/-- Whether two spellings differ only in silent segments. -/
def equiv (p q : Path) : Bool :=
  p.parts == q.parts

/-- Drops the silent segments at the end of a list of segments. -/
def trimmed (pieces : List (List Char)) : List (List Char) :=
  (pieces.reverse.dropWhile isSilent).reverse

def joinSegments (pieces : List (List Char)) : String :=
  String.ofList (['/'].intercalate pieces)

/-- The path without its last part, none for the root and for the empty path. What is left keeps
its spelling. -/
def parent? (p : Path) : Option Path :=
  match p.isAbsolute, segments p.written.toList with
  | true, _ :: body =>
    match trimmed body with
    | [] => none
    | named => some ⟨"/" ++ joinSegments (trimmed named.dropLast)⟩
  | _, first :: body =>
    match first, trimmed body with
    | [], [] => none
    | _, [] => some ⟨""⟩
    | _, named => some ⟨joinSegments (first :: trimmed named.dropLast)⟩
  | _, [] => none

/-- A path read from a directory. An absolute path stands for itself. -/
def join (directory inner : Path) : Path :=
  if inner.isAbsolute then inner
  else if directory.written.toList.getLast?.all (· == '/') then ⟨directory.written ++ inner.written⟩
  else ⟨directory.written ++ "/" ++ inner.written⟩

end Path

end Satzbau

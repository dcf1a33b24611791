namespace Satzbau

/-- A place in a text. Lines and columns count from 1, columns in characters. -/
structure Position where
  line : Nat
  column : Nat
deriving DecidableEq, Repr, Inhabited

/-- Earlier lines first, then earlier columns. -/
def Position.compare (a b : Position) : Ordering :=
  (Ord.compare a.line b.line).then (Ord.compare a.column b.column)

def Position.text (p : Position) : String :=
  s!"{p.line}:{p.column}"

/-- A stretch of text; `stop` is the first place behind it. -/
structure Span where
  start : Position
  stop : Position
deriving DecidableEq, Repr, Inhabited

def Span.onLine (line first last : Nat) : Span :=
  ⟨⟨line, first⟩, ⟨line, last⟩⟩

/-- The empty span before the first character of a text. -/
def Span.atStart : Span :=
  Span.onLine 1 1 1

/-- From the start of one span to the end of another. -/
def Span.to (a b : Span) : Span :=
  ⟨a.start, b.stop⟩

def Span.line (s : Span) : Nat :=
  s.start.line

def Span.column (s : Span) : Nat :=
  s.start.column

def Span.isEmpty (s : Span) : Bool :=
  s.start == s.stop

/-- A span is reported by its start alone. -/
def Span.text (s : Span) : String :=
  s.start.text

end Satzbau

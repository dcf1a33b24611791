import Satzbau.Parser.Definition

namespace Satzbau

namespace Parser

/-- The parsers for an input of less than some number of items. -/
def inner : Nat → Inner
  | 0 => .none
  | size + 1 =>
    let inner := inner size
    { expression := binary inner
      operators := operators inner
      conversions := conversions inner
      phrase := phrase inner
      items := items inner (expression inner)
      arguments := arguments inner
      groups := groups inner
      statements := statements inner
      alternatives := alternatives inner
      parameters := parameters inner
      headerGroups := headerGroups inner
      members := members inner
      program := program inner }

/-- Runs a parser that is given what it needs to read all that is left. -/
def complete {α : Type} (p : Inner → Parser α) : Parser α := fun scope state =>
  p (inner state.items.length) scope state

end Parser

/-- Reads a program. The first fault in the order of the tokens is the answer. -/
def TokenStream.program (stream : TokenStream) : Except Diagnostic Program :=
  (Parser.complete Parser.program ⟨[], stream.fileEnd⟩ ⟨stream.items, 0⟩).map Prod.fst

end Satzbau

import Satzbau.Proofs.Parsing.Continued
import Satzbau.Proofs.Progress.Definitions
import Satzbau.Proofs.Text

namespace Satzbau

namespace Parser

variable {α : Type} {limit : Nat}

/-- One more layer of parsers, on top of those that it asks for whatever stands inside or behind. -/
def Inner.next (inner : Inner) : Inner where
  expression := Parser.binary inner
  operators := Parser.operators inner
  conversions := Parser.conversions inner
  phrase := Parser.phrase inner
  items := Parser.items inner (Parser.expression inner)
  arguments := Parser.arguments inner
  groups := Parser.groups inner
  statements := Parser.statements inner
  alternatives := Parser.alternatives inner
  parameters := Parser.parameters inner
  headerGroups := Parser.headerGroups inner
  members := Parser.members inner
  program := Parser.program inner

/-- Layers of parsers, with whatever at the bottom. -/
def Inner.layers (bottom : Inner) : Nat → Inner
  | 0 => bottom
  | depth + 1 => (bottom.layers depth).next

theorem inner_eq_layers (size : Nat) : inner size = Inner.none.layers size := by
  induction size with
  | zero => rfl
  | succ size ih => rw [Inner.layers, ← ih]; rfl

theorem Inner.layers_add (bottom : Inner) (deeper depth : Nat) :
    bottom.layers (deeper + depth) = (bottom.layers deeper).layers depth := by
  induction depth with
  | zero => rfl
  | succ depth ih => rw [← Nat.add_assoc, Inner.layers, ih]; rfl

namespace Inner.InStep

variable {inner inner' : Inner}

/-- A layer asks the one below only where a token less is left. -/
theorem next (h : inner.InStep limit inner') : inner.next.InStep (limit + 1) inner'.next where
  expression least := h.ofBinary least
  operators least left := h.ofOperators least left
  conversions value := h.ofConversions value
  phrase determiner kind noun := h.ofPhrase determiner kind noun
  items := h.ofItems (h.ofBinary 0)
  arguments := h.ofArguments
  groups := h.ofGroups
  statements expected other := h.ofStatements expected other
  alternatives := h.ofAlternatives
  parameters := h.ofParameters
  headerGroups := h.ofHeaderGroups
  members := h.ofMembers
  program := h.ofProgram

theorem ofZero (inner inner' : Inner) : inner.InStep 0 inner' where
  expression _ := .ofZero
  operators _ _ := .ofZero
  conversions _ := .ofZero
  phrase _ _ _ := .ofZero
  items := .ofZero
  arguments := .ofZero
  groups := .ofZero
  statements _ _ := .ofZero
  alternatives := .ofZero
  parameters := .ofZero
  headerGroups := .ofZero
  members := .ofZero
  program := .ofZero

theorem ofNone : Inner.none.InStep limit Inner.none where
  expression _ := .unexpected _
  operators _ _ := .unexpected _
  conversions _ := .unexpected _
  phrase _ _ _ := .unexpected _
  items := .unexpected _
  arguments := .unexpected _
  groups := .unexpected _
  statements _ _ := .unexpected _
  alternatives := .unexpected _
  parameters := .unexpected _
  headerGroups := .unexpected _
  members := .unexpected _
  program := .unexpected _

/-- As many layers as items are left are enough: what is at the bottom is never asked. -/
theorem layers (bottom bottom' : Inner) (depth : Nat) : (bottom.layers depth).InStep depth (bottom'.layers depth) := by
  induction depth with
  | zero => exact ofZero _ _
  | succ depth ih => exact ih.next

/-- The layers of the parser take tokens from the front, wherever they stand. -/
theorem self (size : Nat) : (Parser.inner size).InStep limit (Parser.inner size) := by
  induction size generalizing limit with
  | zero => exact ofNone
  | succ size ih =>
    cases limit with
    | zero => exact ofZero _ _
    | succ limit => exact ih.next

end Inner.InStep

/-- A parser that takes at least one token wherever it does not fail, if the input ends with the end of a file for
ever. -/
def Consumes (p : Parser α) : Prop :=
  ∀ scope s a t, scope.fileEnd.kind = .fileEnd → p scope s = .ok (a, t) → s.Took true t

theorem InStep.consumes {p : Parser α} (inStep : ∀ limit, InStep (limit + 1) true (fun _ => True) p p) : Consumes p :=
  fun scope s a t endless run => (inStep s.items.length scope s endless (Nat.lt_succ_self _) fun _ _ => trivial).2 a t run

theorem consumes_eat {kind : TokenKind} (inside : kind ≠ .fileEnd) {scope : Scope} (endless : scope.fileEnd.kind = .fileEnd)
    {s t : State} (run : eat kind scope s = .ok (true, t)) : s.Took true t := by
  obtain ⟨found, middle, looked, rest⟩ := bind_eq_ok run
  obtain ⟨rfl, saw⟩ := Looks.at? kind scope s found middle looked
  cases found with
  | false => cases rest
  | true =>
    obtain ⟨token, _, taken, returned⟩ := bind_eq_ok rest
    cases returned
    have inStep : InStep (middle.items.length + 1) true (fun token => token.kind = kind) advance advance :=
      .advance fun _ isKind => isKind ▸ inside
    exact (inStep scope middle endless (Nat.lt_succ_self _) fun seen atFront => saw seen atFront rfl).2 token t taken

/-- Skipping the ends of lines takes one of them after the other. -/
theorem skipLineEnds_eq {scope : Scope} (endless : scope.fileEnd.kind = .fileEnd) (s : State) :
    skipLineEnds scope s = (do if ← eat .lineEnd then skipLineEnds : Parser Unit) scope s := by
  rw [eat_bind]
  have looked {token : Token} (seen : peek scope s = .ok (token, s)) :
      at? .lineEnd scope s = .ok (token.kind == .lineEnd, s) := bind_ok seen
  have stays {token : Token} (seen : peek scope s = .ok (token, s)) (other : token.kind ≠ .lineEnd) :
      skipLineEnds scope s = (at? .lineEnd >>= fun found => if found then advance >>= fun _ => skipLineEnds else pure ()) scope s := by
    rw [skipLineEnds_elsewhere seen other, bind_ok (looked seen), beq_eq_false_iff_ne.mpr other]
    rfl
  obtain ⟨items, id⟩ := s
  match items with
  | [] => exact stays rfl (by simp [endless])
  | .error fault :: _ => rfl
  | .ok token :: rest =>
    by_cases kind : token.kind = .lineEnd
    · have seen : peek scope ⟨.ok token :: rest, id⟩ = .ok (token, ⟨.ok token :: rest, id⟩) := rfl
      rw [bind_ok (looked seen), beq_iff_eq.mpr kind, if_pos rfl, bind_ok (advance_ok seen)]
      have same : State.skipped ⟨.ok token :: rest, id⟩ = State.skipped ⟨rest, id⟩ :=
        congrArg (State.mk · id) (List.dropWhile_cons_of_pos (beq_iff_eq.mpr kind))
      exact skipLineEnds_congr same
    · exact stays rfl kind

end Parser

namespace TokenStream

open Satzbau.Parser

/-- Reading a program ends, and it goes on only by taking tokens. For an input that ends with the end of a file for
ever, as many layers of parsers as there are items are enough, whatever is below them: it is never asked. A statement,
a definition, an expression, an argument, a parameter or a member of an implementation takes at least one token. One
layer, all its loops included, asks the layer below for the next round or for what stands inside only when it has taken
a token: two lower layers that do the same wherever fewer items are left cannot be told apart. And ends of lines are
skipped one by one. -/
theorem program_ends (stream : TokenStream) (endless : stream.fileEnd.kind = .fileEnd) :
    (∀ (bottom : Inner) (depth : Nat), stream.items.length ≤ depth →
      (Parser.program (bottom.layers depth) ⟨[], stream.fileEnd⟩ ⟨stream.items, 0⟩).map Prod.fst = stream.program) ∧
    (∀ size, Consumes (statement (inner size)) ∧ Consumes (function (inner size)) ∧
      Consumes (classDefinition (inner size)) ∧ Consumes (implementation (inner size)) ∧ Consumes declension ∧
      (∀ least, Consumes (binary (inner size) least)) ∧ Consumes (argument (inner size)) ∧ Consumes parameter ∧
      Consumes (conversionDefinition (inner size))) ∧
    (∀ (limit : Nat) (lower lower' : Inner), lower.InStep limit lower' → lower.next.InStep (limit + 1) lower'.next) ∧
    ∀ scope s, scope.fileEnd.kind = .fileEnd →
      skipLineEnds scope s = (do if ← eat .lineEnd then skipLineEnds : Parser Unit) scope s ∧
      ∀ t, eat .lineEnd scope s = .ok (true, t) → s.Took true t := by
  refine ⟨fun bottom depth enough => ?_, fun size => ?_, fun limit lower lower' same => same.next,
    fun scope s endless => ⟨skipLineEnds_eq endless s, fun t => consumes_eat (by simp) endless⟩⟩
  · -- The upper layers are as many as items are left; those below them count as the bottom.
    obtain ⟨deeper, rfl⟩ := Nat.exists_eq_add_of_le' enough
    have inStep : Parser.InStep (stream.items.length + 1) false (fun _ => True) _ _ :=
      (Inner.InStep.layers (bottom.layers deeper) .none stream.items.length).ofProgram
    have same := (inStep ⟨[], stream.fileEnd⟩ ⟨stream.items, 0⟩ endless (Nat.lt_succ_self _) fun _ _ => trivial).1
    rw [bottom.layers_add, same, ← inner_eq_layers]
    rfl
  · have self (limit : Nat) := @Inner.InStep.self limit size
    exact ⟨InStep.consumes fun limit => (self limit).ofStatement, InStep.consumes fun limit => (self limit).ofFunction,
      InStep.consumes fun limit => (self limit).ofClassDefinition, InStep.consumes fun limit => (self limit).ofImplementation,
      InStep.consumes fun _ => .declension, fun least => InStep.consumes fun limit => (self limit).ofBinary least,
      InStep.consumes fun limit => (self limit).ofArgument, InStep.consumes fun _ => .parameter,
      InStep.consumes fun limit => (self limit).ofConversionDefinition⟩

/-- A loop over the elements of a property. -/
def readingLines : TokenStream :=
  ofText .none ⟨"satz"⟩ "für jedes Buch in der Bücherei: lies die Zeile des Buches.\n"

/-- Fourteen layers read the loop, though what is below them takes nothing and calls that a program. -/
theorem readingLines_ends :
    readingLines.fileEnd.kind = .fileEnd ∧ readingLines.items.length ≤ 14 ∧
    (Parser.program (Inner.layers { Inner.none with program := Pure.pure .empty } 14) ⟨[], readingLines.fileEnd⟩
      ⟨readingLines.items, 0⟩).map Prod.fst = readingLines.program ∧
    ∃ read left, statement (inner 14) ⟨[], readingLines.fileEnd⟩ ⟨readingLines.items, 0⟩ = .ok (read, left) ∧
      State.Took true ⟨readingLines.items, 0⟩ left := by
  have stream : readingLines = _ := ofText_eq .none ⟨"satz"⟩ _ (by decide +kernel)
  have endless : readingLines.fileEnd.kind = .fileEnd := by rw [stream]; rfl
  have short : readingLines.items.length ≤ 14 := by rw [stream]; decide +kernel
  have computed : ((statement (inner 14) ⟨[], readingLines.fileEnd⟩ ⟨readingLines.items, 0⟩).map fun _ => ()).toOption =
      some () := by
    rw [stream]
    decide +kernel
  obtain ⟨⟨read, left⟩, parsed, _⟩ := exists_ok_of_view computed
  have ends := program_ends readingLines endless
  exact ⟨endless, short, ends.1 _ 14 short, read, left, parsed, (ends.2.1 14).1 _ _ read left endless parsed⟩

end TokenStream

end Satzbau

import Satzbau.Proofs.Internal.Faults
import Satzbau.Proofs.Parsing.Extension
import Satzbau.Proofs.Parsing.TopLevel

namespace Satzbau

namespace Parser

variable {α β : Type}

/-- Where no item that is left is a fault of the compiler, a parser does not fail by one and leaves
none behind. -/
def Careful (p : Parser α) : Prop :=
  ∀ scope s, CleanItems s.items →
    NoInternal (p scope s) ∧ ∀ a t, p scope s = .ok (a, t) → CleanItems t.items

namespace Careful

theorem pure (a : α) : Careful (Pure.pure a : Parser α) := by
  intro scope s clean
  refine ⟨.ok _, fun b t run => ?_⟩
  cases run
  exact clean

theorem throw {d : Diagnostic} (blames : ¬d.IsInternal) : Careful (throw d : Parser α) :=
  fun _ _ _ => ⟨.error blames, nofun⟩

theorem fail {f : β → Parser α} {d : Diagnostic} (blames : ¬d.IsInternal) : Careful (MonadExcept.throw d >>= f) :=
  fun _ _ _ => ⟨.error blames, nofun⟩

/-- The parser behind another one has to be careful with what that one gives in the same place. -/
theorem bindOn {p : Parser β} {f : β → Parser α} (first : Careful p) {scope : Scope} {s : State} (clean : CleanItems s.items)
    (next : ∀ b t, p scope s = .ok (b, t) → CleanItems t.items →
      NoInternal (f b scope t) ∧ ∀ a u, f b scope t = .ok (a, u) → CleanItems u.items) :
    NoInternal ((p >>= f) scope s) ∧ ∀ a t, (p >>= f) scope s = .ok (a, t) → CleanItems t.items := by
  obtain ⟨blames, leaves⟩ := first scope s clean
  constructor
  · have spelled : (p >>= f) scope s = (p scope s >>= fun step => f step.1 scope step.2) := rfl
    rw [spelled]
    exact blames.bind fun step run => (next step.1 step.2 run (leaves _ _ run)).1
  · intro a t run
    obtain ⟨b, middle, runFirst, rest⟩ := bind_eq_ok run
    exact (next b middle runFirst (leaves b middle runFirst)).2 a t rest

theorem bind {p : Parser β} {f : β → Parser α} (first : Careful p) (next : ∀ b, Careful (f b)) : Careful (p >>= f) :=
  fun scope _ clean => first.bindOn clean fun b t _ cleanLater => next b scope t cleanLater

theorem map {p : Parser β} (f : β → α) (careful : Careful p) : Careful (f <$> p) := by
  rw [map_eq_pure_bind]
  exact bind careful fun b => pure (f b)

theorem read {f : Scope → Parser α} (next : ∀ scope, Careful (f scope)) : Careful (MonadReaderOf.read >>= f) :=
  fun scope s clean => next scope scope s clean

theorem within {p : Parser α} (construct : Construct) (careful : Careful p) : Careful (Parser.within construct p) :=
  fun scope s clean => careful { scope with around := construct :: scope.around } s clean

theorem peek : Careful Parser.peek := by
  intro scope s clean
  unfold Parser.peek
  split
  · exact ⟨.ok _, fun _ _ run => by cases run; exact clean⟩
  · exact ⟨.ok _, fun _ _ run => by cases run; exact clean⟩
  · rename_i fault later items
    exact ⟨.error (clean (.error fault) (by simp [items]) fault rfl), nofun⟩

theorem peekSecond : Careful Parser.peekSecond := by
  intro scope s clean
  unfold Parser.peekSecond
  split
  · exact ⟨.ok _, fun _ _ run => by cases run; exact clean⟩
  · exact ⟨.ok _, fun _ _ run => by cases run; exact clean⟩
  · rename_i fault later items
    exact ⟨.error (clean (.error fault) (by simp [items]) fault rfl), nofun⟩
  · rename_i token fault later items
    exact ⟨.error (clean (.error fault) (by simp [items]) fault rfl), nofun⟩
  · exact ⟨.ok _, fun _ _ run => by cases run; exact clean⟩

theorem modify {f : State → State} (fewer : ∀ s, ∀ item ∈ (f s).items, item ∈ s.items) :
    Careful (modify f : Parser PUnit) := by
  intro scope s clean
  refine ⟨.ok _, fun a t run item member => ?_⟩
  cases run
  exact clean item (fewer s item member)

theorem advance : Careful Parser.advance := by
  unfold Parser.advance
  exact bind peek fun token => bind (modify fun _ _ => List.mem_of_mem_tail) fun _ => pure _

theorem skipLineEnds : Careful Parser.skipLineEnds := by
  unfold Parser.skipLineEnds
  exact bind (modify fun _ _ member => (List.dropWhile_suffix _).subset member) fun _ =>
    bind peek fun _ => pure _

theorem freshId : Careful Parser.freshId := by
  intro scope s clean
  refine ⟨.ok _, fun id t run => ?_⟩
  cases run
  exact clean

theorem nounPhrase (determiner : Option Token) (noun : Token) : Careful (Parser.nounPhrase determiner noun) :=
  bind freshId fun _ => pure _

theorem require (token : Token) (constructs : List Construct) (required : String) :
    Careful (Parser.require token constructs required) := by
  unfold Parser.require
  refine read fun scope => ?_
  split
  · exact throw nofun
  · exact pure _

theorem requireOwner (token : Token) (kind : Determiner) : Careful (Parser.requireOwner token kind) := by
  unfold Parser.requireOwner
  split
  · exact require token _ _
  · exact require token _ _
  · exact pure _

theorem unexpected (expected : String) : Careful (Parser.unexpected expected : Parser α) :=
  bind peek fun _ => throw nofun

theorem at? (kind : TokenKind) : Careful (Parser.at? kind) :=
  bind peek fun _ => pure _

theorem eat (kind : TokenKind) : Careful (Parser.eat kind) := by
  unfold Parser.eat
  refine bind (at? kind) fun found => ?_
  split
  · exact bind advance fun _ => pure _
  · exact pure _

theorem expect (kind : TokenKind) (expected : String) : Careful (Parser.expect kind expected) := by
  unfold Parser.expect
  refine bind (at? kind) fun found => ?_
  split
  · exact advance
  · exact unexpected expected

theorem expectNoun : Careful Parser.expectNoun :=
  expect .noun _

theorem expectDeterminer : Careful Parser.expectDeterminer := by
  unfold Parser.expectDeterminer
  refine bind peek fun token => ?_
  split
  · exact bind advance fun _ => pure _
  · exact throw nofun

theorem determinedNoun : Careful Parser.determinedNoun :=
  bind expectDeterminer fun _ => bind expectNoun fun _ => nounPhrase _ _

theorem optionalWord : Careful Parser.optionalWord := by
  unfold Parser.optionalWord
  refine bind (at? .word) fun found => ?_
  split
  · exact bind advance fun _ => pure _
  · exact pure _

theorem endStatement (close : TokenKind) : Careful (Parser.endStatement close) := by
  unfold Parser.endStatement
  refine bind peek fun token => ?_
  split
  · exact bind advance fun _ => pure _
  · split
    · exact throw nofun
    · exact pure _

theorem atPreposition : Careful Parser.atPreposition := by
  unfold Parser.atPreposition
  refine bind peek fun token => ?_
  split
  · exact bind peekSecond fun _ => pure _
  · exact bind peekSecond fun _ => pure _
  · exact bind peekSecond fun _ => pure _
  · exact pure _

theorem atOwner : Careful Parser.atOwner :=
  bind peek fun _ => pure _

theorem atAssignment : Careful Parser.atAssignment := by
  unfold Parser.atAssignment
  refine bind peek fun token => ?_
  split
  · exact pure _
  · exact pure _
  · exact pure _

theorem atOtherwise : Careful Parser.atOtherwise := by
  unfold Parser.atOtherwise
  refine bind peek fun token => ?_
  split
  · exact pure _
  · split
    · exact bind peekSecond fun _ => pure _
    · exact pure _

end Careful

/-- What the parsers for the inside of a construct read is read carefully, and what they put behind
an operand leaves it the first one. -/
structure Inner.Careful (inner : Inner) : Prop where
  expression : ∀ least, Parser.Careful (inner.expression least)
  operators : ∀ least left, Parser.Careful (inner.operators least left)
  conversions : ∀ value, Parser.Careful (inner.conversions value)
  phrase : ∀ determiner kind noun, Parser.Careful (inner.phrase determiner kind noun)
  items : Parser.Careful inner.items
  arguments : Parser.Careful inner.arguments
  groups : Parser.Careful inner.groups
  statements : ∀ close expected, Parser.Careful (inner.statements close expected)
  alternatives : Parser.Careful inner.alternatives
  parameters : Parser.Careful inner.parameters
  headerGroups : Parser.Careful inner.headerGroups
  members : Parser.Careful inner.members
  program : Parser.Careful inner.program
  operatorsKeep : ∀ least left scope, Gives scope (inner.operators least left) (·.firstOperand = left.firstOperand)
  conversionsKeep : ∀ value scope, Gives scope (inner.conversions value) (·.firstOperand = value.firstOperand)

end Parser

end Satzbau

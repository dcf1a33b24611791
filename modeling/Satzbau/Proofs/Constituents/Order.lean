import Satzbau.Proofs.Constituents.KeptDefinitions
import Satzbau.Proofs.Constituents.Nodes
import Satzbau.Proofs.Parsing.TopLevel
import Satzbau.Proofs.Respelling.Queues

namespace Satzbau

theorem MembersSpelled.perm {methods : List FunctionDefinition} {conversions : List ConversionDefinition} {places : List Slot}
    (spelled : MembersSpelled methods conversions places) :
    places.Perm (slotsOf (methods.flatMap FunctionDefinition.constituents ++
      conversions.flatMap ConversionDefinition.constituents)) := by
  induction spelled with
  | nil => exact .refl _
  | method f _ ih =>
    rw [List.flatMap_cons, List.append_assoc, slotsOf_append]
    exact ih.append_left _
  | conversion c _ ih =>
    refine (ih.append_left _).trans ?_
    simpa using List.perm_append_comm_assoc (slotsOf c.constituents) _ _

theorem MembersSpelled.infix_of_method {f : FunctionDefinition} {methods : List FunctionDefinition}
    {conversions : List ConversionDefinition} {places : List Slot} (spelled : MembersSpelled methods conversions places)
    (member : f ∈ methods) : slotsOf f.constituents <:+: places := by
  induction spelled with
  | nil => contradiction
  | method g _ ih =>
    rcases List.mem_cons.mp member with rfl | inLater
    · exact List.infix_append_of_infix_left List.infix_rfl
    · exact List.infix_append_of_infix_right (ih inLater)
  | conversion c _ ih => exact List.infix_append_of_infix_right (ih member)

theorem MembersSpelled.infix_of_conversion {c : ConversionDefinition} {methods : List FunctionDefinition}
    {conversions : List ConversionDefinition} {places : List Slot} (spelled : MembersSpelled methods conversions places)
    (member : c ∈ conversions) : slotsOf c.constituents <:+: places := by
  induction spelled with
  | nil => contradiction
  | method f _ ih => exact List.infix_append_of_infix_right (ih member)
  | conversion other _ ih =>
    rcases List.mem_cons.mp member with rfl | inLater
    · exact List.infix_append_of_infix_left List.infix_rfl
    · exact List.infix_append_of_infix_right (ih inLater)

namespace Definition.Spelled

variable {d : Definition} {here : List Slot}

theorem perm (spelled : d.Spelled here) : here.Perm (slotsOf d.constituents) := by
  cases spelled with
  | function f => exact .refl _
  | noun c => exact .refl _
  | implementation i members => exact (members.perm.append_left i.owner.slots).cons _
  | declension d => exact .refl _

/-- What stands within a definition stands together in its text. -/
theorem infix_of_child {child : Node} (spelled : d.Spelled here) (member : child ∈ Node.ofDefinition d) :
    slotsOf child.constituents <:+: here := by
  cases spelled with
  | function f => exact slotsOf_within (Node.infix_definition member)
  | noun c => exact slotsOf_within (Node.infix_definition member)
  | implementation i members =>
    refine List.infix_append_of_infix_right ?_
    rcases List.mem_append.mp member with within | within
    · obtain ⟨f, inside, inBody⟩ := List.mem_flatMap.mp within
      exact (slotsOf_within (List.infix_append_of_infix_right (Node.infix_block inBody))).trans
        (members.infix_of_method inside)
    · obtain ⟨c, inside, inBody⟩ := List.mem_flatMap.mp within
      exact (slotsOf_within (List.infix_cons (List.infix_cons (Node.infix_block inBody)))).trans
        (members.infix_of_conversion inside)
  | declension d => contradiction

/-- Whatever a walk meets within a definition stands together in its text. -/
theorem infix_of_visit {α : Type} (pass : Node → α → α) (inherited : α) {visit : α × Node} (spelled : d.Spelled here)
    (met : visit ∈ Node.visits pass inherited (.definition d)) :
    (∃ d, visit.2 = .definition d) ∨ slotsOf visit.2.constituents <:+: here := by
  rw [Node.visits_eq] at met
  rcases List.mem_cons.mp met with rfl | below
  · exact Or.inl ⟨d, rfl⟩
  · obtain ⟨⟨child, member⟩, _, deeper⟩ := List.mem_flatMap.mp below
    exact Or.inr ((slotsOf_within (Node.infix_of_visit pass _ deeper)).trans (spelled.infix_of_child member))

end Definition.Spelled

namespace Program.Spelled

variable {p : Program} {order : List Slot}

theorem perm (spelled : p.Spelled order) : order.Perm (slotsOf p.constituents) := by
  induction spelled with
  | empty => exact .refl _
  | definition first _ ih =>
    refine (first.perm.append ih).trans ?_
    simp [Program.constituents]
  | statement s _ ih =>
    refine (ih.append_left _).trans ?_
    simpa [Program.constituents, blockConstituents] using List.perm_append_comm_assoc (slotsOf s.constituents) _ _

/-- Whatever a walk meets below the definitions stands together in the text. -/
theorem infix_of_visit {α : Type} (pass : Node → α → α) (inherited : α) {visit : α × Node} (spelled : p.Spelled order)
    (met : visit ∈ p.visits pass inherited) :
    (∃ d, visit.2 = .definition d) ∨ slotsOf visit.2.constituents <:+: order := by
  induction spelled with
  | empty => contradiction
  | @definition d p here places first later ih =>
    have split : visit ∈ Node.visits pass inherited (.definition d) ∨ visit ∈ p.visits pass inherited := by
      simpa [Program.visits, Program.nodes] using met
    rcases split with atFirst | inLater
    · exact (first.infix_of_visit pass inherited atFirst).imp_right List.infix_append_of_infix_left
    · exact (ih inLater).imp_right List.infix_append_of_infix_right
  | @statement s p places later ih =>
    have split : visit ∈ Node.visits pass inherited (.statement s) ∨ visit ∈ p.visits pass inherited := by
      simp only [Program.visits, Program.nodes, Node.ofBlock, List.map_cons, List.flatMap_append, List.flatMap_cons,
        List.mem_append] at met ⊢
      tauto
    rcases split with atFirst | inLater
    · exact Or.inr (List.infix_append_of_infix_left (slotsOf_within (Node.infix_of_visit pass inherited atFirst)))
    · exact (ih inLater).imp_right List.infix_append_of_infix_right

end Program.Spelled

namespace Parser

variable {α β : Type} {scope : Scope} {s : State}

/-- Whether a parser reads from a state up to the end of the input. -/
def Stops (scope : Scope) (s : State) (p : Parser α) : Prop :=
  ∀ a t, p scope s = .ok (a, t) → ∃ token, peek scope t = .ok (token, t) ∧ token.kind = .fileEnd

namespace Stops

theorem bind {p : Parser α} {f : α → Parser β} (next : ∀ a middle, Stops scope middle (f a)) :
    Stops scope s (p >>= f) := by
  intro b t run
  obtain ⟨a, middle, _, rest⟩ := bind_eq_ok run
  exact next a middle b t rest

theorem before {p : Parser α} {f : α → β} (stops : Stops scope s p) : Stops scope s (do return f (← p)) := by
  intro b t run
  obtain ⟨a, _, runFirst, returned⟩ := bind_eq_ok run
  cases returned
  exact stops a t runFirst

theorem ofProgram {inner : Inner} (later : ∀ s, Stops scope s inner.program) : Stops scope s (program inner) := by
  unfold Parser.program
  refine bind fun _ _ p t run => ?_
  obtain ⟨token, here, seen, decided⟩ := bind_eq_ok run
  obtain ⟨rfl, _⟩ := peek_eq_ok seen
  suffices stops : Stops scope here _ from stops p t decided
  split
  · rename_i atEnd
    rintro _ _ ⟨⟩
    exact ⟨token, seen, atEnd⟩
  · exact bind fun _ _ => bind fun _ _ => before (later _)
  · exact bind fun _ _ => bind fun _ _ => before (later _)
  · exact bind fun _ _ => bind fun _ _ => before (later _)
  · exact bind fun _ _ => bind fun _ _ => before (later _)
  · exact bind fun _ _ => bind fun _ _ => before (later _)

theorem ofInner (size : Nat) : Stops scope s (program (inner size)) := by
  induction size generalizing s with
  | zero => exact ofProgram fun _ => bind fun _ _ _ _ impossible => by contradiction
  | succ size ih => exact ofProgram fun _ => ih

end Stops

end Parser

namespace TokenStream

variable {stream : TokenStream} {p : Program}

/-- The end of a file stands at the end of all that is read and nowhere else. -/
theorem IsRead.ends (read : stream.IsRead) :
    stream.fileEnd.kind = .fileEnd ∧ ∀ token, .ok token ∈ stream.items → token.kind ≠ .fileEnd := by
  have inside {items : List (Except Diagnostic Token)} (closed : items = [] ∨ ∃ close, Parser.State.Closed close ⟨items, 0⟩) :
      ∀ token, .ok token ∈ items → token.kind ≠ .fileEnd := by
    rcases closed with rfl | ⟨close, closed⟩
    · exact nofun
    · exact closed.inside
  cases read with
  | ofQueue files queue =>
    obtain ⟨closed, atEnd⟩ := Source.readQueue_closed files queue (Source.fileEnd ⟨""⟩ 0) 0 rfl
    exact ⟨atEnd, inside closed⟩
  | ofText files path text =>
    obtain ⟨closed, atEnd⟩ := Source.readQueue_closed files _ (Source.fileEnd path (Source.linesOf path text).length) 0 rfl
    exact ⟨atEnd, inside (Source.closed_append (Source.readLines_closed _ _ 0) closed)⟩

/-- The tokens of an input that ends once have the places of the program that is read of it. -/
theorem program_spelled (atEnd : stream.fileEnd.kind = .fileEnd)
    (inside : ∀ token, .ok token ∈ stream.items → token.kind ≠ .fileEnd) (parsed : stream.program = .ok p) :
    ∃ tokens order, stream.items = tokens.map .ok ∧ Fills tokens order ∧ p.Spelled order := by
  obtain ⟨t, run⟩ := program_eq_ok.mp parsed
  obtain ⟨tokens, order, items, fills, spelled⟩ :=
    (Parser.Inner.Keeps.ofInner stream.items.length).ofProgram _ _ p t atEnd (fun _ _ => (trivial : True)) run
  obtain ⟨last, seen, ends⟩ := Parser.Stops.ofInner _ p t run
  have left : t.items = [] := by
    unfold Parser.peek at seen
    split at seen
    · assumption
    · rename_i split
      cases seen
      exact absurd ends (inside last (by simp [show stream.items = _ from items, split]))
    · contradiction
  rw [left, List.append_nil] at items
  exact ⟨tokens, order, items, fills, spelled⟩

/-- Every token that says something has one place in the program that is read, and every place has one token. In
every statement and in every expression they stand in the order of the text, and the first one is the first token of
the expression. -/
theorem IsRead.program_keeps_tokens (read : stream.IsRead) (parsed : stream.program = .ok p) :
    ∃ tokens order, stream.items = tokens.map .ok ∧ Fills tokens order ∧ order.Perm (slotsOf p.constituents) ∧
      (∀ depth s, (depth, .statement s) ∈ p.walk → slotsOf s.constituents <:+: order) ∧
      ∀ depth e, (depth, .expression e) ∈ p.walk → slotsOf e.constituents <:+: order ∧
        (slotsOf e.constituents).head? = some (.token e.firstToken) := by
  obtain ⟨atEnd, inside⟩ := read.ends
  obtain ⟨tokens, order, items, fills, spelled⟩ := program_spelled atEnd inside parsed
  have together {depth : Nat} {node : Node} (met : (depth, node) ∈ p.walk) :
      (∃ d, node = .definition d) ∨ slotsOf node.constituents <:+: order :=
    spelled.infix_of_visit (fun _ depth => depth + 1) 0 met
  refine ⟨tokens, order, items, fills, spelled.perm, fun depth s met => ?_, fun depth e met => ⟨?_, ?_⟩⟩
  · exact (together met).resolve_left fun ⟨_, impossible⟩ => by contradiction
  · exact (together met).resolve_left fun ⟨_, impossible⟩ => by contradiction
  · obtain ⟨later, front⟩ := e.slots_begin
    rw [front, List.head?_cons]

end TokenStream

/-- A declension that is spelled out, and a loop with a role that is the beginning of its value. -/
def readingTheBooks : String :=
  "Deklination Neutrum Singular(Buch, Buches, Buch, Buch) Plural(Bücher, Bücher, Büchern, Bücher)\n" ++
    "für jedes Buch in der Bücherei: lies die Zeile des Buches.\n"

def Slot.spelling : Slot → String
  | token t => t.text
  | form text => text
  | loopIn => "in"

theorem readingTheBooks_kept :
    ∃ p tokens order, (TokenStream.ofText .none ⟨"satz"⟩ readingTheBooks).program = .ok p ∧
      (slotsOf p.constituents).map Slot.spelling =
        ["Deklination", "Buch", "Buches", "Buch", "Buch", "Bücher", "Bücher", "Büchern", "Bücher",
          "für", "jedes", "Buch", "in", "der", "Bücherei", "lies", "die", "Zeile", "des", "Buches"] ∧
      (TokenStream.ofText .none ⟨"satz"⟩ readingTheBooks).items = tokens.map .ok ∧ Fills tokens order ∧
      order.Perm (slotsOf p.constituents) := by
  have stream := TokenStream.ofText_eq .none ⟨"satz"⟩ readingTheBooks (by decide +kernel)
  have computed : ((TokenStream.ofText .none ⟨"satz"⟩ readingTheBooks).program.map fun p =>
      (slotsOf p.constituents).map Slot.spelling).toOption =
        some ["Deklination", "Buch", "Buches", "Buch", "Buch", "Bücher", "Bücher", "Büchern", "Bücher",
          "für", "jedes", "Buch", "in", "der", "Bücherei", "lies", "die", "Zeile", "des", "Buches"] := by
    rw [stream]
    decide +kernel
  obtain ⟨p, parsed, viewed⟩ := exists_ok_of_view computed
  obtain ⟨tokens, order, items, fills, same, _⟩ := TokenStream.IsRead.program_keeps_tokens (.ofText ..) parsed
  exact ⟨p, tokens, order, parsed, viewed, items, fills, same⟩

end Satzbau

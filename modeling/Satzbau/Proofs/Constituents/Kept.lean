import Satzbau.Proofs.Constituents.Listing
import Satzbau.Proofs.Parsing.Extension
import Satzbau.Proofs.Parsing.Written

namespace Satzbau

/-- The kinds of tokens that say something by themselves: words, nouns, determiners, operators and literals.
All others only hold a program together. -/
def TokenKind.isContent : TokenKind → Bool
  | .word | .noun | .determiner _ | .operator _ | .number _ | .string _ | .boolean _ => true
  | _ => false

/-- The place of a token in a program. -/
inductive Slot
  | token (t : Token)
  /-- The place of a noun of which only the spelling is kept. -/
  | form (text : String)
  /-- The place of the `in` of a loop. -/
  | loopIn

def NounPhrase.slots (p : NounPhrase) : List Slot :=
  p.determiner.toList.map .token ++ [.token p.noun]

/-- The places of tokens in a constituent. A role that its value repeats has none of its own. -/
def Constituent.slots : Constituent → List Slot
  | token t => [.token t]
  | phrase p => p.slots
  | role a => if Argument.sharesPhrase a.phrase a.value then [] else a.phrase.slots
  | call _ => []
  | form text => [.form text]
  | loopIn => [.loopIn]

/-- The places of tokens in some constituents, in the order of the text. -/
def slotsOf (cs : List Constituent) : List Slot :=
  cs.flatMap Constituent.slots

@[simp] theorem slotsOf_nil : slotsOf [] = [] := rfl

@[simp] theorem slotsOf_cons (c : Constituent) (later : List Constituent) :
    slotsOf (c :: later) = c.slots ++ slotsOf later := rfl

@[simp] theorem slotsOf_append (first later : List Constituent) :
    slotsOf (first ++ later) = slotsOf first ++ slotsOf later :=
  List.flatMap_append

@[simp] theorem slotsOf_tokens (ts : List Token) : slotsOf (ts.map .token) = ts.map .token := by
  induction ts with
  | nil => rfl
  | cons t later ih => rw [List.map_cons, slotsOf_cons, ih]; rfl

/-- Tokens in the places of a program, one in each place and in the order of the text. A token that says
something has a place; of the others some have one, such as `ich` and `wenn`. -/
inductive Fills : List Token → List Slot → Prop
  | nil : Fills [] []
  | placeless {t : Token} {ts : List Token} {slots : List Slot} (silent : t.kind.isContent = false)
      (later : Fills ts slots) : Fills (t :: ts) slots
  | token {t : Token} {ts : List Token} {slots : List Slot} (later : Fills ts slots) :
      Fills (t :: ts) (.token t :: slots)
  | form {t : Token} {ts : List Token} {slots : List Slot} (noun : t.kind = .noun) (later : Fills ts slots) :
      Fills (t :: ts) (.form t.text :: slots)
  | loopIn {t : Token} {ts : List Token} {slots : List Slot} (word : t.kind = .word) (text : t.text = "in")
      (later : Fills ts slots) : Fills (t :: ts) (.loopIn :: slots)

namespace Fills

theorem append {ts ts' : List Token} {slots slots' : List Slot} (first : Fills ts slots) (later : Fills ts' slots') :
    Fills (ts ++ ts') (slots ++ slots') := by
  induction first with
  | nil => exact later
  | placeless silent _ ih => exact .placeless silent ih
  | token _ ih => exact .token ih
  | form noun _ ih => exact .form noun ih
  | loopIn word text _ ih => exact .loopIn word text ih

theorem silent {ts : List Token} (all : ∀ t ∈ ts, t.kind.isContent = false) : Fills ts [] := by
  induction ts with
  | nil => exact .nil
  | cons t later ih =>
    obtain ⟨first, others⟩ := List.forall_mem_cons.mp all
    exact .placeless first (ih others)

end Fills

namespace Parser

variable {α β : Type}

/-- What a parser does with the places of the tokens that were read before it and of those that it reads: `kept`
holds of its result and of all these places, in the order of the text. `front` is what is known of the token at
the front. -/
def Keeps (front : Token → Prop) (given : List Slot) (p : Parser α) (kept : α → List Slot → Prop) : Prop :=
  ∀ scope s a t, scope.fileEnd.kind = .fileEnd → (∀ token, peek scope s = .ok (token, s) → front token) →
    p scope s = .ok (a, t) →
    ∃ read new, s.items = read.map .ok ++ t.items ∧ Fills read new ∧ kept a (given ++ new)

/-- Where a result has just some places. -/
def Just (slots : α → List Slot) (a : α) (places : List Slot) : Prop :=
  places = slots a

namespace Keeps

variable {front : Token → Prop} {given : List Slot} {kept : α → List Slot → Prop}

theorem pure {a : α} (known : kept a given) : Keeps front given (Pure.pure a) kept := by
  intro scope s b t _ _ run
  cases run
  exact ⟨[], [], rfl, .nil, by rwa [List.append_nil]⟩

theorem throw (fault : Diagnostic) : Keeps front given (throw fault) kept := by
  intro scope s a t _ _ run
  contradiction

theorem fail {f : β → Parser α} (fault : Diagnostic) : Keeps front given (MonadExcept.throw fault >>= f) kept := by
  intro scope s a t _ _ run
  contradiction

/-- A parser that takes over the places that were read last, before one that takes over those before them and
what the first one made. -/
theorem share {before : List Slot} {p : Parser β} {f : β → Parser α} {kept₁ : β → List Slot → Prop}
    (first : Keeps front given p kept₁)
    (next : ∀ b places, kept₁ b places → Keeps (fun _ => True) (before ++ places) (f b) kept) :
    Keeps front (before ++ given) (p >>= f) kept := by
  intro scope s a t atEnd atFront run
  obtain ⟨b, middle, runFirst, rest⟩ := bind_eq_ok run
  obtain ⟨read, new, items, fills, known⟩ := first scope s b middle atEnd atFront runFirst
  obtain ⟨read', new', items', fills', known'⟩ := next b _ known scope middle a t atEnd (fun _ _ => trivial) rest
  refine ⟨read ++ read', new ++ new', ?_, fills.append fills', ?_⟩
  · rw [items, items', List.map_append, List.append_assoc]
  · simpa only [List.append_assoc] using known'

theorem bindAny {p : Parser β} {f : β → Parser α} {kept₁ : β → List Slot → Prop} (first : Keeps front [] p kept₁)
    (next : ∀ b places, kept₁ b places → Keeps (fun _ => True) (given ++ places) (f b) kept) :
    Keeps front given (p >>= f) kept := by
  have shared := share first next
  rwa [List.append_nil] at shared

theorem bind {p : Parser β} {f : β → Parser α} {slots : β → List Slot} (first : Keeps front [] p (Just slots))
    (next : ∀ b, Keeps (fun _ => True) (given ++ slots b) (f b) kept) : Keeps front given (p >>= f) kept :=
  bindAny first fun b _ known => known ▸ next b

theorem pass {p : Parser β} {f : β → Parser α} {slots : β → List Slot} (first : Keeps front given p (Just slots))
    (next : ∀ b, Keeps (fun _ => True) (slots b) (f b) kept) : Keeps front given (p >>= f) kept :=
  show Keeps front ([] ++ given) (p >>= f) kept from share first fun b _ known => known ▸ next b

theorem look {p : Parser β} {f : β → Parser α} {knows : β → Token → Prop} (looks : Looks p knows)
    (next : ∀ b, Keeps (fun token => front token ∧ knows b token) given (f b) kept) :
    Keeps front given (p >>= f) kept := by
  intro scope s a t atEnd atFront run
  obtain ⟨b, middle, runFirst, rest⟩ := bind_eq_ok run
  obtain ⟨rfl, known⟩ := looks scope s b middle runFirst
  exact next b scope middle a t atEnd (fun token seen => ⟨atFront token seen, known token seen⟩) rest

theorem read {f : Scope → Parser α} (next : ∀ scope, Keeps front given (f scope) kept) :
    Keeps front given (MonadReaderOf.read >>= f) kept := by
  intro scope s a t atEnd atFront run
  obtain ⟨b, middle, runFirst, rest⟩ := bind_eq_ok run
  cases runFirst
  exact next scope scope s a t atEnd atFront rest

theorem within {p : Parser α} (construct : Construct) (keeps : Keeps front given p kept) :
    Keeps front given (Parser.within construct p) kept :=
  fun scope s a t atEnd atFront run =>
    keeps { scope with around := construct :: scope.around } s a t atEnd atFront run

theorem anywhere {p : Parser α} (keeps : Keeps (fun _ => True) given p kept) : Keeps front given p kept :=
  fun scope s a t atEnd _ run => keeps scope s a t atEnd (fun _ _ => trivial) run

/-- The token at the front is taken, for a place for which it is fit. The end of the input is not taken. -/
theorem advance {slots : Token → List Slot}
    (fits : ∀ token, front token → token.kind ≠ .fileEnd → Fills [token] (slots token))
    (atFileEnd : ∀ token, front token → token.kind = .fileEnd → slots token = []) :
    Keeps front [] advance (Just slots) := by
  intro scope s token t atEnd atFront run
  obtain ⟨seen, rfl⟩ := advance_eq_ok run
  have known := atFront token seen
  obtain ⟨items, rfl⟩ | ⟨later, items⟩ : (s.items = [] ∧ token = scope.fileEnd) ∨ ∃ later, s.items = .ok token :: later := by
    unfold peek at seen
    split at seen
    · rename_i empty
      cases seen
      exact Or.inl ⟨empty, rfl⟩
    · rename_i split
      cases seen
      exact Or.inr ⟨_, split⟩
    · contradiction
  · refine ⟨[], [], by rw [items]; rfl, .nil, ?_⟩
    rw [Just, atFileEnd _ known atEnd]
    rfl
  · by_cases ends : token.kind = .fileEnd
    · refine ⟨[token], [], by rw [items]; rfl, .placeless (by rw [ends]; rfl) .nil, ?_⟩
      rw [Just, atFileEnd token known ends]
      rfl
    · exact ⟨[token], slots token, by rw [items]; rfl, fits token known ends, rfl⟩

/-- A token that was seen at the front is kept. -/
theorem take (inside : ∀ token, front token → token.kind ≠ .fileEnd) :
    Keeps front [] Parser.advance (Just fun token => [.token token]) :=
  advance (fun _ _ _ => .token .nil) fun token known ends => absurd ends (inside token known)

/-- A token that says nothing is passed over. -/
theorem drop (silent : ∀ token, front token → token.kind.isContent = false) :
    Keeps front [] Parser.advance (Just fun _ => []) :=
  advance (fun token known _ => .placeless (silent token known) .nil) fun _ _ _ => rfl

theorem freshId : Keeps front [] freshId (Just fun _ => []) := by
  intro scope s id t _ _ run
  cases run
  exact ⟨[], [], rfl, .nil, rfl⟩

/-- Naming a phrase reads nothing. -/
theorem name {determiner : Option Token} {noun : Token} {f : NounPhrase → Parser α}
    (next : ∀ id, Keeps front given (f ⟨id, determiner, noun⟩) kept) :
    Keeps front given (nounPhrase determiner noun >>= f) kept := by
  intro scope s a t atEnd atFront run
  obtain ⟨phrase, middle, named, rest⟩ := bind_eq_ok run
  cases named
  exact next s.nextId scope { s with nextId := s.nextId + 1 } a t atEnd
    (fun token seen => atFront token (peek_of_items seen rfl)) rest

theorem unexpected (expected : String) : Keeps front given (Parser.unexpected expected) kept :=
  .look .peek fun _ => .throw _

theorem eat {kind : TokenKind} (silent : kind.isContent = false) : Keeps front [] (eat kind) (Just fun _ => []) := by
  unfold Parser.eat
  refine .look (.at? kind) fun found => ?_
  split
  · rename_i there
    exact .bind (.drop fun token known => known.2 there ▸ silent) fun _ => .pure rfl
  · exact .pure rfl

/-- A token that is asked for and says nothing. -/
theorem skip {kind : TokenKind} (silent : kind.isContent = false) (expected : String) :
    Keeps front [] (expect kind expected) (Just fun _ => []) := by
  unfold Parser.expect
  refine .look (.at? kind) fun found => ?_
  split
  · rename_i there
    exact .drop fun token known => known.2 there ▸ silent
  · exact .unexpected expected

theorem expect {kind : TokenKind} (inside : kind ≠ .fileEnd) (expected : String) :
    Keeps front [] (Parser.expect kind expected) (Just fun token => [.token token]) := by
  unfold Parser.expect
  refine .look (.at? kind) fun found => ?_
  split
  · rename_i there
    exact .take fun token known => known.2 there ▸ inside
  · exact .unexpected expected

theorem expectNoun : Keeps front [] expectNoun (Just fun token => [.token token]) :=
  .expect (by simp) _

/-- A noun of which only the spelling is kept. -/
theorem expectForm : Keeps front [] Parser.expectNoun (Just fun token => [.form token.text]) := by
  unfold Parser.expectNoun Parser.expect
  refine .look (.at? _) fun found => ?_
  split
  · rename_i there
    refine .advance (fun token known _ => .form (known.2 there) .nil) fun token known ends => ?_
    rw [known.2 there] at ends
    contradiction
  · exact .unexpected _

theorem inside_of_determiner {token : Token} {kind : Determiner} (isDeterminer : token.determiner? = some kind) :
    token.kind ≠ .fileEnd := by
  intro ends
  rw [Token.determiner?, ends] at isDeterminer
  contradiction

theorem expectDeterminer : Keeps front [] expectDeterminer (Just fun found => [.token found.1]) := by
  unfold Parser.expectDeterminer
  refine .look .peek fun token => ?_
  split
  · rename_i kind isDeterminer
    exact .bind (.take fun other known => known.2 ▸ inside_of_determiner isDeterminer) fun _ => .pure rfl
  · exact .throw _

theorem optionalWord : Keeps front [] optionalWord (Just fun found => found.toList.map .token) := by
  unfold Parser.optionalWord
  refine .look (.at? .word) fun found => ?_
  split
  · rename_i there
    exact .bind (.take fun token known => by rw [known.2 there]; simp) fun _ => .pure rfl
  · exact .pure rfl

theorem skipLineEnds : Keeps front [] skipLineEnds (Just fun _ => []) := by
  intro scope s _ t _ _ run
  obtain ⟨rfl, _⟩ := skipLineEnds_eq_ok run
  have dropped (items : List (Except Diagnostic Token)) :
      ∃ read : List Token, items = read.map .ok ++ items.dropWhile isLineEnd ∧ ∀ t ∈ read, t.kind.isContent = false := by
    induction items with
    | nil => exact ⟨[], rfl, nofun⟩
    | cons item later ih =>
      cases ends : isLineEnd item with
      | false => exact ⟨[], by rw [List.dropWhile_cons_of_neg (by simp [ends])]; rfl, nofun⟩
      | true =>
        obtain ⟨read, same, silent⟩ := ih
        cases item with
        | error fault => contradiction
        | ok token =>
          have kind : token.kind = .lineEnd := beq_iff_eq.mp ends
          refine ⟨token :: read, ?_, List.forall_mem_cons.mpr ⟨by rw [kind]; rfl, silent⟩⟩
          rw [List.dropWhile_cons_of_pos ends, List.map_cons, List.cons_append, ← same]
  obtain ⟨read, same, silent⟩ := dropped s.items
  exact ⟨read, [], same, .silent silent, rfl⟩

theorem endStatement (close : TokenKind) : Keeps front [] (endStatement close) (Just fun _ => []) := by
  unfold Parser.endStatement
  refine .look .peek fun token => ?_
  split
  · rename_i atLineEnd
    exact .bind (.drop fun other known => by rw [known.2, atLineEnd]; rfl) fun _ => .pure rfl
  · split
    · exact .throw _
    · exact .pure rfl

end Keeps

end Parser

/-- The places of the tokens of methods and conversions, in an order in which a text may have them. -/
inductive MembersSpelled : List FunctionDefinition → List ConversionDefinition → List Slot → Prop
  | nil : MembersSpelled [] [] []
  | method (f : FunctionDefinition) {methods : List FunctionDefinition} {conversions : List ConversionDefinition}
      {places : List Slot} (later : MembersSpelled methods conversions places) :
      MembersSpelled (f :: methods) conversions (slotsOf f.constituents ++ places)
  | conversion (c : ConversionDefinition) {methods : List FunctionDefinition} {conversions : List ConversionDefinition}
      {places : List Slot} (later : MembersSpelled methods conversions places) :
      MembersSpelled methods (c :: conversions) (slotsOf c.constituents ++ places)

/-- The places of the tokens of a definition, in an order in which a text may have them. -/
inductive Definition.Spelled : Definition → List Slot → Prop
  | function (f : FunctionDefinition) : Spelled (.function f) (slotsOf f.constituents)
  | noun (c : ClassDefinition) : Spelled (.noun c) (slotsOf (Definition.noun c).constituents)
  | implementation (i : ImplementationDefinition) {places : List Slot}
      (members : MembersSpelled i.methods i.conversions places) :
      Spelled (.implementation i) (.token i.token :: i.owner.slots ++ places)
  | declension (d : DeclensionDefinition) : Spelled (.declension d) (slotsOf (Definition.declension d).constituents)

/-- The places of the tokens of a program, in an order in which a text may have them: its definitions and its
statements each in their own order, but mixed. -/
inductive Program.Spelled : Program → List Slot → Prop
  | empty : Spelled .empty []
  | definition {d : Definition} {p : Program} {here places : List Slot} (first : d.Spelled here)
      (later : Spelled p places) : Spelled { p with definitions := d :: p.definitions } (here ++ places)
  | statement (s : Statement) {p : Program} {places : List Slot} (later : Spelled p places) :
      Spelled { p with statements := s :: p.statements } (slotsOf s.constituents ++ places)

namespace Parser

/-- What the parsers for the inside of a construct do with the places of tokens. -/
structure Inner.Keeps (inner : Inner) : Prop where
  delivers : inner.Delivers fun _ => True
  expression : ∀ least, Parser.Keeps (fun _ => True) [] (inner.expression least) (Just fun e => slotsOf e.constituents)
  operators : ∀ least left, Parser.Keeps (fun _ => True) (slotsOf left.constituents) (inner.operators least left)
    (Just fun e => slotsOf e.constituents)
  conversions : ∀ value, Parser.Keeps (fun _ => True) (slotsOf value.constituents) (inner.conversions value)
    (Just fun e => slotsOf e.constituents)
  phrase : ∀ determiner kind noun, Parser.Keeps (fun _ => True) [.token determiner, .token noun]
    (inner.phrase determiner kind noun) (Just fun e => slotsOf e.constituents)
  items : Parser.Keeps (fun _ => True) [] inner.items (Just fun items => slotsOf (itemConstituents items))
  arguments : Parser.Keeps (fun _ => True) [] inner.arguments
    (Just fun arguments => slotsOf (argumentConstituents arguments))
  groups : Parser.Keeps (fun _ => True) [] inner.groups (Just fun groups => slotsOf (groupConstituents groups))
  statements : ∀ close expected, close.isContent = false →
    Parser.Keeps (fun _ => True) [] (inner.statements close expected) (Just fun block => slotsOf (blockConstituents block))
  alternatives : Parser.Keeps (fun _ => True) [] inner.alternatives
    (Just fun found => slotsOf (branchConstituents found.1 ++ otherwiseConstituents found.2))
  parameters : Parser.Keeps (fun _ => True) [] inner.parameters
    (Just fun parameters => slotsOf (parameters.flatMap Parameter.constituents))
  headerGroups : Parser.Keeps (fun _ => True) [] inner.headerGroups
    (Just fun groups => slotsOf (headerGroupConstituents groups))
  members : Parser.Keeps (fun _ => True) [] inner.members fun found => MembersSpelled found.1 found.2
  program : Parser.Keeps (fun _ => True) [] inner.program Program.Spelled

end Parser

end Satzbau

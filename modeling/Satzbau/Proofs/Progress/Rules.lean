import Satzbau.Proofs.Constituents.KeptStatements
import Satzbau.Proofs.Preceding.Rules

namespace Satzbau.Parser

variable {α β : Type}

/-- Only tokens from the front were taken, at least one if `uses` says so. -/
def State.Took (uses : Bool) (s t : State) : Prop :=
  ∃ read : List Token, s.items = read.map .ok ++ t.items ∧ (uses = true → read ≠ [])

theorem State.Took.nothing (s : State) : s.Took false s :=
  ⟨[], rfl, nofun⟩

theorem State.Took.trans {s t u : State} {first second uses : Bool} (took : s.Took first t) (later : t.Took second u)
    (taken : uses = true → first = true ∨ second = true) : s.Took uses u := by
  obtain ⟨read, items, nonempty⟩ := took
  obtain ⟨more, items', nonempty'⟩ := later
  refine ⟨read ++ more, by rw [items, items', List.map_append, List.append_assoc], fun isTaken empty => ?_⟩
  obtain ⟨rfl, rfl⟩ := List.append_eq_nil_iff.mp empty
  rcases taken isTaken with isUsed | isUsed
  · exact nonempty isUsed rfl
  · exact nonempty' isUsed rfl

theorem State.Took.length_le {s t : State} {uses : Bool} (took : s.Took uses t) : t.items.length ≤ s.items.length := by
  obtain ⟨read, items, _⟩ := took
  rw [items, List.length_append]
  exact Nat.le_add_left ..

theorem State.Took.length_lt {s t : State} (took : s.Took true t) : t.items.length < s.items.length := by
  obtain ⟨read, items, nonempty⟩ := took
  have some := List.length_pos_iff.mpr (nonempty rfl)
  rw [items, List.length_append, List.length_map]
  omega

/-- Two parsers that do the same wherever fewer than `limit` items are left, if the input ends with the end of a
file for ever. They take tokens from the front and nothing else, and where they do not fail at least one of them
if `uses` says so. `front` is what is known of the token at the front. -/
def InStep (limit : Nat) (uses : Bool) (front : Token → Prop) (p q : Parser α) : Prop :=
  ∀ scope s, scope.fileEnd.kind = .fileEnd → s.items.length < limit →
    (∀ token, peek scope s = .ok (token, s) → front token) →
      p scope s = q scope s ∧ ∀ a t, p scope s = .ok (a, t) → s.Took uses t

namespace InStep

variable {limit : Nat} {uses : Bool} {front : Token → Prop} {p q : Parser α}

theorem seen {front' : Token → Prop} (inStep : InStep limit uses front p q)
    (better : ∀ token, front' token → front token) : InStep limit uses front' p q :=
  fun scope s endless short sees => inStep scope s endless short fun token saw => better token (sees token saw)

theorem anywhere (inStep : InStep limit uses (fun _ => True) p q) : InStep limit uses front p q :=
  inStep.seen fun _ _ => trivial

theorem less {shorter : Nat} (inStep : InStep limit uses front p q) (fits : shorter ≤ limit) :
    InStep shorter uses front p q :=
  fun scope s endless short => inStep scope s endless (Nat.lt_of_lt_of_le short fits)

/-- Nothing is asked of parsers where fewer than no items are left. -/
theorem ofZero : InStep 0 uses front p q :=
  fun _ _ _ short => absurd short (Nat.not_lt_zero _)

theorem pure (a : α) : InStep limit false front (Pure.pure a) (Pure.pure a) := by
  intro scope s _ _ _
  refine ⟨rfl, fun b t run => ?_⟩
  cases run
  exact .nothing _

theorem throw (fault : Diagnostic) : InStep limit uses front (throw fault : Parser α) (throw fault) :=
  fun _ _ _ _ _ => ⟨rfl, nofun⟩

theorem fail {f g : β → Parser α} (fault : Diagnostic) :
    InStep limit uses front (MonadExcept.throw fault >>= f) (MonadExcept.throw fault >>= g) :=
  fun _ _ _ _ _ => ⟨rfl, nofun⟩

theorem within (construct : Construct) (inStep : InStep limit uses front p q) :
    InStep limit uses front (Parser.within construct p) (Parser.within construct q) :=
  fun scope s endless short sees => inStep { scope with around := construct :: scope.around } s endless short sees

/-- A parser that takes the tokens which it keeps is in step with itself. -/
theorem ofKeeps {p : Parser α} {given : List Slot} {kept : α → List Slot → Prop} (keeps : Keeps front given p kept) :
    InStep limit false front p p := by
  intro scope s endless _ sees
  refine ⟨rfl, fun a t run => ?_⟩
  obtain ⟨read, _, items, _⟩ := keeps scope s a t endless sees run
  exact ⟨read, items, nofun⟩

section bind

variable {p' q' : Parser β} {f g : β → Parser α} {uses' : Bool} {limit' : Nat}

/-- Two parsers, one after the other. A token that the first one takes leaves fewer items to the second. -/
theorem sequence (first : InStep limit uses' front p' q') (next : ∀ b, InStep limit' uses (fun _ => True) (f b) (g b))
    (fits : limit ≤ limit' ∨ uses' = true ∧ limit ≤ limit' + 1) {takes : Bool}
    (taken : takes = true → uses' = true ∨ uses = true) : InStep limit takes front (p' >>= f) (q' >>= g) := by
  intro scope s endless short sees
  obtain ⟨same, took⟩ := first scope s endless short sees
  cases outcome : p' scope s with
  | error fault =>
    rw [bind_error outcome, bind_error (same ▸ outcome)]
    exact ⟨rfl, nofun⟩
  | ok step =>
    obtain ⟨b, t⟩ := step
    have tookFirst := took b t outcome
    -- Either the second parser may see as many items as the first, or the first has taken one of them.
    have short' : t.items.length < limit' := by
      have shorter := tookFirst.length_le
      rcases fits with fits | ⟨rfl, fits⟩
      · omega
      · have := tookFirst.length_lt
        omega
    obtain ⟨same', took'⟩ := next b scope t endless short' fun _ _ => trivial
    rw [bind_ok outcome, bind_ok (same ▸ outcome)]
    exact ⟨same', fun a u run => tookFirst.trans (took' a u run) taken⟩

/-- Something behind a parser that may take nothing. -/
theorem bind (first : InStep limit false front p' q') (next : ∀ b, InStep limit uses (fun _ => True) (f b) (g b)) :
    InStep limit uses front (p' >>= f) (q' >>= g) :=
  sequence first next (Or.inl (Nat.le_refl _)) Or.inr

/-- Something behind a parser that takes what has to be taken. -/
theorem take (first : InStep limit uses front p' q') (next : ∀ b, InStep limit false (fun _ => True) (f b) (g b)) :
    InStep limit uses front (p' >>= f) (q' >>= g) :=
  sequence first next (Or.inl (Nat.le_refl _)) Or.inl

/-- Something behind a parser that takes a token: fewer items are left to it. -/
theorem after (first : InStep (limit + 1) true front p' q')
    (next : ∀ b, InStep limit false (fun _ => True) (f b) (g b)) :
    InStep (limit + 1) uses front (p' >>= f) (q' >>= g) :=
  sequence first next (Or.inr ⟨rfl, Nat.le_refl _⟩) fun _ => Or.inl rfl

/-- A look at the token at the front tells the parsers behind it the same. -/
theorem look {p' : Parser β} {knows : β → Token → Prop} (looks : Looks p' knows)
    (next : ∀ b, InStep limit uses (fun token => front token ∧ knows b token) (f b) (g b)) :
    InStep limit uses front (p' >>= f) (p' >>= g) := by
  intro scope s endless short sees
  cases outcome : p' scope s with
  | error fault =>
    rw [bind_error outcome, bind_error outcome]
    exact ⟨rfl, nofun⟩
  | ok step =>
    obtain ⟨b, t⟩ := step
    obtain ⟨rfl, saw⟩ := looks _ _ _ _ outcome
    rw [bind_ok outcome, bind_ok outcome]
    exact next b scope t endless short fun token atFront => ⟨sees token atFront, saw token atFront⟩

theorem read {f g : Scope → Parser α} (next : ∀ scope, InStep limit uses front (f scope) (g scope)) :
    InStep limit uses front (MonadReaderOf.read >>= f) (MonadReaderOf.read >>= g) :=
  fun scope => next scope scope

/-- What a parser made is put into something else. -/
theorem map (f : β → α) (inStep : InStep limit uses front p' q') : InStep limit uses front (f <$> p') (f <$> q') := by
  rw [map_eq_pure_bind, map_eq_pure_bind]
  exact take inStep fun _ => pure _

end bind

/-- The token at the front is taken, unless it is the end of the file. -/
theorem advance (inside : ∀ token, front token → token.kind ≠ .fileEnd) :
    InStep limit uses front advance advance := by
  intro scope s endless _ sees
  refine ⟨rfl, fun token t run => ?_⟩
  obtain ⟨atFront, rfl⟩ := advance_eq_ok run
  have isInside := inside token (sees token atFront)
  unfold Parser.peek at atFront
  split at atFront
  · cases atFront
    exact absurd endless isInside
  · rename_i items
    cases atFront
    exact ⟨[token], by rw [items]; rfl, fun _ => List.cons_ne_nil _ _⟩
  · contradiction

/-- The token that was seen at the front is taken. -/
theorem advanceAt {token : Token} (inside : token.kind ≠ .fileEnd) :
    InStep limit uses (fun other => front other ∧ other = token) Parser.advance Parser.advance :=
  advance fun _ isSeen => isSeen.2 ▸ inside

/-- A token of a kind that was seen at the front is taken. -/
theorem advanceIf {found : Bool} {kind : TokenKind} (there : found = true) (inside : kind ≠ .fileEnd) :
    InStep limit uses (fun other => front other ∧ (found = true → other.kind = kind)) Parser.advance Parser.advance :=
  advance fun _ isSeen => isSeen.2 there ▸ inside

theorem freshId : InStep limit false front freshId freshId := by
  intro scope s _ _ _
  refine ⟨rfl, fun a t run => ?_⟩
  cases run
  exact ⟨[], rfl, nofun⟩

/-- Naming a phrase leaves the token at the front. -/
theorem name {determiner : Option Token} {noun : Token} {f g : NounPhrase → Parser α}
    (next : ∀ id, InStep limit uses front (f ⟨id, determiner, noun⟩) (g ⟨id, determiner, noun⟩)) :
    InStep limit uses front (nounPhrase determiner noun >>= f) (nounPhrase determiner noun >>= g) :=
  fun scope s endless short sees => next s.nextId scope { s with nextId := s.nextId + 1 } endless short
    fun token atFront => sees token (peek_of_items atFront rfl)

theorem nounPhrase (determiner : Option Token) (noun : Token) :
    InStep limit false front (nounPhrase determiner noun) (nounPhrase determiner noun) :=
  bind freshId fun _ => pure _

theorem unexpected (expected : String) :
    InStep limit uses front (unexpected expected : Parser α) (unexpected expected) :=
  look .peek fun _ => throw _

theorem unexpectedThen {expected : String} {f g : β → Parser α} :
    InStep limit uses front (Parser.unexpected expected >>= f) (Parser.unexpected expected >>= g) := by
  unfold Parser.unexpected
  rw [bind_assoc, bind_assoc]
  exact look .peek fun _ => fail _

/-- Something behind a token that is taken if it is there. -/
theorem eat {f g : Bool → Parser α} {kind : TokenKind} {limit' : Nat} (inside : kind ≠ .fileEnd)
    (fits : limit ≤ limit' + 1) (found : InStep limit' false (fun _ => True) (f true) (g true))
    (missing : InStep limit uses front (f false) (g false)) :
    InStep limit uses front (eat kind >>= f) (eat kind >>= g) := by
  rw [eat_bind, eat_bind]
  refine look (.at? kind) fun isThere => ?_
  cases isThere with
  | true => exact sequence (@advanceIf limit true front true kind rfl inside) (fun _ => found) (Or.inr ⟨rfl, fits⟩) fun _ => Or.inl rfl
  | false => exact missing.seen fun _ => And.left

theorem expect {kind : TokenKind} (inside : kind ≠ .fileEnd) (expected : String) :
    InStep limit uses front (expect kind expected) (expect kind expected) := by
  unfold Parser.expect
  refine look (.at? kind) fun found => ?_
  split
  · rename_i there
    exact advanceIf there inside
  · exact unexpected _

theorem expectNoun : InStep limit uses front expectNoun expectNoun :=
  expect (by simp) _

theorem expectDeterminer : InStep limit uses front expectDeterminer expectDeterminer := by
  unfold Parser.expectDeterminer
  refine look .peek fun token => ?_
  split
  · rename_i kind isDeterminer
    exact take (advanceAt (Keeps.inside_of_determiner isDeterminer)) fun _ => pure _
  · exact throw _

theorem optionalWord : InStep limit false front optionalWord optionalWord :=
  ofKeeps .optionalWord

theorem skipLineEnds : InStep limit false front skipLineEnds skipLineEnds :=
  ofKeeps .skipLineEnds

theorem endStatement (close : TokenKind) : InStep limit false front (endStatement close) (endStatement close) :=
  ofKeeps (.endStatement close)

end InStep

end Satzbau.Parser

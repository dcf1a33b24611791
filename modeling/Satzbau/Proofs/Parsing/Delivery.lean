import Satzbau.Parser.Run
import Satzbau.Proofs.Roles

namespace Satzbau.Parser

variable {α β : Type}

theorem bind_eq_ok {p : Parser α} {f : α → Parser β} {scope : Scope} {s t : State} {b : β}
    (run : (p >>= f) scope s = .ok (b, t)) :
    ∃ a middle, p scope s = .ok (a, middle) ∧ f a scope middle = .ok (b, t) := by
  replace run : (p scope s >>= fun step => f step.1 scope step.2) = .ok (b, t) := run
  cases first : p scope s with
  | error fault => rw [first] at run; contradiction
  | ok step =>
    rw [first] at run
    exact ⟨step.1, step.2, rfl, run⟩

theorem peek_eq_ok {scope : Scope} {s t : State} {token : Token} (run : peek scope s = .ok (token, t)) :
    t = s ∧ (.ok token ∈ s.items ∨ token = scope.fileEnd) := by
  unfold peek at run
  split at run
  · cases run
    exact ⟨rfl, Or.inr rfl⟩
  · rename_i found
    cases run
    exact ⟨rfl, Or.inl (by simp [found])⟩
  · contradiction

theorem advance_eq_ok {scope : Scope} {s t : State} {token : Token} (run : advance scope s = .ok (token, t)) :
    peek scope s = .ok (token, s) ∧ t = { s with items := s.items.tail } := by
  obtain ⟨found, middle, seen, rest⟩ := bind_eq_ok run
  obtain ⟨rfl, _⟩ := peek_eq_ok seen
  obtain ⟨_, _, modified, returned⟩ := bind_eq_ok rest
  cases modified
  cases returned
  exact ⟨seen, rfl⟩

/-- A parser that only looks ahead, and what its answer says about the token at the front. -/
def Looks (p : Parser α) (knows : α → Token → Prop) : Prop :=
  ∀ scope s a t, p scope s = .ok (a, t) → t = s ∧ ∀ token, peek scope s = .ok (token, s) → knows a token

theorem Looks.peek : Looks peek (fun found token => token = found) := by
  intro scope s found t run
  obtain ⟨rfl, _⟩ := peek_eq_ok run
  refine ⟨rfl, fun token again => ?_⟩
  rw [again] at run
  cases run
  rfl

theorem Looks.bind {p : Parser α} {f : α → Parser β} {knows : α → Token → Prop} {knows' : β → Token → Prop}
    (first : Looks p knows) (next : ∀ a, Looks (f a) fun b token => knows a token → knows' b token) :
    Looks (p >>= f) knows' := by
  intro scope s b t run
  obtain ⟨a, middle, look, rest⟩ := bind_eq_ok run
  obtain ⟨rfl, known⟩ := first scope s a middle look
  obtain ⟨rfl, known'⟩ := next a scope middle b t rest
  exact ⟨rfl, fun token atFront => known' token atFront (known token atFront)⟩

theorem Looks.return {knows : α → Token → Prop} {a : α} (known : ∀ token, knows a token) :
    Looks (Pure.pure a : Parser α) knows := by
  intro scope s b t run
  cases run
  exact ⟨rfl, fun token _ => known token⟩

theorem Looks.peekSecond : Looks peekSecond (fun _ _ => True) := by
  intro scope s found t run
  unfold Parser.peekSecond at run
  refine ⟨?_, fun _ _ => trivial⟩
  split at run
  · cases run; rfl
  · cases run; rfl
  · contradiction
  · contradiction
  · cases run; rfl

theorem Looks.at? (kind : TokenKind) : Looks (at? kind) (fun found token => found = true → token.kind = kind) := by
  refine .bind .peek fun token => .return fun other same found => ?_
  rw [same]
  exact beq_iff_eq.mp found

theorem Looks.atPreposition :
    Looks atPreposition fun found token => found = true → token.kind.introducesGroup := by
  refine .bind .peek fun token => ?_
  split
  · rename_i kind
    exact .bind .peekSecond fun _ => .return fun _ _ same _ => same ▸ Or.inl kind
  · rename_i kind
    exact .bind .peekSecond fun _ => .return fun _ _ same _ => same ▸ Or.inr (Or.inl kind)
  · rename_i kind
    exact .bind .peekSecond fun _ => .return fun _ _ same _ => same ▸ Or.inr (Or.inr kind)
  · exact .return fun _ _ found => by contradiction

/-- The verb of an assignment. -/
def Assigns (token : Token) : Prop :=
  token.kind = .keyword .is ∨ token.kind = .keyword .are

theorem Looks.atAssignment : Looks atAssignment fun found token => found = true → Assigns token := by
  refine .bind .peek fun token => ?_
  split
  · rename_i kind
    exact .return fun _ same _ => same ▸ Or.inl kind
  · rename_i kind
    exact .return fun _ same _ => same ▸ Or.inr kind
  · exact .return fun _ _ found => by contradiction

theorem Looks.atOwner : Looks atOwner fun _ _ => True :=
  .bind .peek fun _ => .return fun _ _ => trivial

theorem Looks.require (token : Token) (constructs : List Construct) (required : String) :
    Looks (require token constructs required) fun _ _ => True := by
  intro scope s a t run
  unfold Parser.require at run
  obtain ⟨around, middle, read, rest⟩ := bind_eq_ok run
  cases read
  split at rest
  · contradiction
  · cases rest
    exact ⟨rfl, fun _ _ => trivial⟩

theorem Looks.requireSelf (token : Token) : Looks (requireSelf token) fun _ _ => True :=
  Looks.require token _ _

theorem Looks.requireMethodBlock (token : Token) : Looks (requireMethodBlock token) fun _ _ => True :=
  Looks.require token _ _

theorem Looks.requireOwner (token : Token) (kind : Determiner) :
    Looks (requireOwner token kind) fun _ _ => True := by
  unfold Parser.requireOwner
  split
  · exact .requireSelf token
  · exact .requireMethodBlock token
  · exact .return fun _ => trivial

/-- What is known of the tokens that are still to be read, and of the one behind them all. -/
def Holds (fact : Token → Prop) (scope : Scope) (s : State) : Prop :=
  fact scope.fileEnd ∧ ∀ token, .ok token ∈ s.items → fact token

theorem Holds.peek {fact : Token → Prop} {scope : Scope} {s t : State} {token : Token}
    (holds : Holds fact scope s) (run : Parser.peek scope s = .ok (token, t)) : fact token := by
  obtain ⟨_, inside | rfl⟩ := peek_eq_ok run
  · exact holds.2 token inside
  · exact holds.1

theorem Holds.tail {fact : Token → Prop} {scope : Scope} {s t : State} (holds : Holds fact scope s)
    (subset : ∀ item ∈ t.items, item ∈ s.items) : Holds fact scope t :=
  ⟨holds.1, fun token inside => holds.2 token (subset _ inside)⟩

theorem range'_join {low middle high : Nat} (first : low ≤ middle) (second : middle ≤ high) :
    List.range' low (middle - low) ++ List.range' middle (high - middle) = List.range' low (high - low) := by
  obtain ⟨m, rfl⟩ := Nat.exists_eq_add_of_le first
  obtain ⟨n, rfl⟩ := Nat.exists_eq_add_of_le second
  rw [Nat.add_sub_cancel_left, Nat.add_sub_cancel_left, Nat.add_assoc, Nat.add_sub_cancel_left]
  exact List.range'_append_1

/-- What a parser makes of the ids it was given and of those it hands out. `ids` are the ids of its
result; they are the given ones and the new ones, each once. If a fact holds of all tokens, then the
result is good; `front` is what is known of the token at the front. -/
def Delivers (fact : Token → Prop) (front : Token → Prop) (given : List NodeId) (p : Parser α)
    (ids : α → List NodeId) (good : α → Prop) : Prop :=
  ∀ scope s a t, Holds fact scope s → (∀ token, peek scope s = .ok (token, s) → front token) →
    p scope s = .ok (a, t) →
    (∀ item ∈ t.items, item ∈ s.items) ∧ s.nextId ≤ t.nextId ∧
      (ids a).Perm (given ++ List.range' s.nextId (t.nextId - s.nextId)) ∧ good a

namespace Delivers

variable {fact front : Token → Prop} {given : List NodeId} {ids : α → List NodeId} {good : α → Prop}

theorem pure {a : α} (same : (ids a).Perm given) (isGood : good a) :
    Delivers fact front given (Pure.pure a) ids good := by
  intro scope s b t _ _ run
  cases run
  exact ⟨fun _ inside => inside, Nat.le_refl _, by simpa using same, isGood⟩

theorem throw (fault : Diagnostic) : Delivers fact front given (throw fault) ids good := by
  intro scope s a t _ _ run
  contradiction

theorem fail {f : β → Parser α} (fault : Diagnostic) :
    Delivers fact front given (MonadExcept.throw fault >>= f) ids good := by
  intro scope s a t _ _ run
  contradiction

/-- A parser that is given some of the ids, before a parser that is given the others and what the
first one made. -/
theorem share {before : List NodeId} {p : Parser β} {f : β → Parser α} {ids₁ : β → List NodeId}
    {good₁ : β → Prop} (first : Delivers fact front given p ids₁ good₁)
    (next : ∀ b, good₁ b → Delivers fact (fun _ => True) (before ++ ids₁ b) (f b) ids good) :
    Delivers fact front (before ++ given) (p >>= f) ids good := by
  intro scope s a t holds atFront run
  obtain ⟨b, middle, runFirst, rest⟩ := bind_eq_ok run
  obtain ⟨subset, grows, numbered, isGood⟩ := first scope s b middle holds atFront runFirst
  obtain ⟨subset', grows', numbered', isGood'⟩ :=
    next b isGood scope middle a t (holds.tail subset) (fun _ _ => trivial) rest
  refine ⟨fun item inside => subset item (subset' item inside), Nat.le_trans grows grows', ?_, isGood'⟩
  rw [← range'_join grows grows']
  refine numbered'.trans ?_
  rw [List.append_assoc, List.append_assoc, ← List.append_assoc given]
  exact List.Perm.append_left before (numbered.append_right _)

theorem bind {p : Parser β} {f : β → Parser α} {ids₁ : β → List NodeId} {good₁ : β → Prop}
    (first : Delivers fact front [] p ids₁ good₁)
    (next : ∀ b, good₁ b → Delivers fact (fun _ => True) (given ++ ids₁ b) (f b) ids good) :
    Delivers fact front given (p >>= f) ids good := by
  have shared := share first next
  rwa [List.append_nil] at shared

theorem pass {p : Parser β} {f : β → Parser α} {ids₁ : β → List NodeId} {good₁ : β → Prop}
    (first : Delivers fact front given p ids₁ good₁)
    (next : ∀ b, good₁ b → Delivers fact (fun _ => True) (ids₁ b) (f b) ids good) :
    Delivers fact front given (p >>= f) ids good :=
  @share _ _ fact front given ids good [] p f ids₁ good₁ first next

theorem look {p : Parser β} {f : β → Parser α} {knows : β → Token → Prop} (looks : Looks p knows)
    (next : ∀ b, Delivers fact (fun token => front token ∧ knows b token) given (f b) ids good) :
    Delivers fact front given (p >>= f) ids good := by
  intro scope s a t holds atFront run
  obtain ⟨b, middle, runFirst, rest⟩ := bind_eq_ok run
  obtain ⟨rfl, known⟩ := looks scope s b middle runFirst
  exact next b scope middle a t holds (fun token seen => ⟨atFront token seen, known token seen⟩) rest

theorem read {f : Scope → Parser α} (next : ∀ scope, Delivers fact front given (f scope) ids good) :
    Delivers fact front given (MonadReaderOf.read >>= f) ids good := by
  intro scope s a t holds atFront run
  obtain ⟨b, middle, runFirst, rest⟩ := bind_eq_ok run
  cases runFirst
  exact next scope scope s a t holds atFront rest

theorem map {p : Parser β} {f : β → α} {ids₁ : β → List NodeId} {good₁ : β → Prop}
    (delivers : Delivers fact front given p ids₁ good₁) (same : ∀ b, (ids (f b)).Perm (ids₁ b))
    (better : ∀ b, good₁ b → good (f b)) : Delivers fact front given (f <$> p) ids good := by
  intro scope s a t holds atFront run
  rw [map_eq_pure_bind] at run
  obtain ⟨b, middle, runFirst, returned⟩ := bind_eq_ok run
  cases returned
  obtain ⟨subset, grows, numbered, isGood⟩ := delivers scope s b t holds atFront runFirst
  exact ⟨subset, grows, (same b).trans numbered, better b isGood⟩

theorem anywhere {p : Parser α} (delivers : Delivers fact (fun _ => True) given p ids good) :
    Delivers fact front given p ids good :=
  fun scope s a t holds _ run => delivers scope s a t holds (fun _ _ => trivial) run

theorem weaken {p : Parser α} {ids' : α → List NodeId} {good' : α → Prop}
    (delivers : Delivers fact front given p ids good) (same : ∀ a, (ids' a).Perm (ids a))
    (better : ∀ a, good a → good' a) : Delivers fact front given p ids' good' := by
  intro scope s a t holds atFront run
  obtain ⟨subset, grows, numbered, isGood⟩ := delivers scope s a t holds atFront run
  exact ⟨subset, grows, (same a).trans numbered, better a isGood⟩

theorem regroup {p : Parser α} {given' : List NodeId} (same : given.Perm given')
    (delivers : Delivers fact front given' p ids good) : Delivers fact front given p ids good := by
  intro scope s a t holds atFront run
  obtain ⟨subset, grows, numbered, isGood⟩ := delivers scope s a t holds atFront run
  exact ⟨subset, grows, numbered.trans (same.symm.append_right _), isGood⟩

theorem within {p : Parser α} (construct : Construct) (delivers : Delivers fact front given p ids good) :
    Delivers fact front given (Parser.within construct p) ids good :=
  fun scope s a t holds atFront run =>
    delivers { scope with around := construct :: scope.around } s a t holds atFront run

theorem advance : Delivers fact front [] Parser.advance (fun _ => []) fun token => front token ∧ fact token := by
  intro scope s token t holds atFront run
  obtain ⟨seen, rfl⟩ := advance_eq_ok run
  exact ⟨fun item => List.mem_of_mem_tail, Nat.le_refl _, by simp, atFront token seen, holds.peek seen⟩

theorem freshId : Delivers fact front [] Parser.freshId (fun id => [id]) fun _ => True := by
  intro scope s a t _ _ run
  cases run
  refine ⟨fun _ inside => inside, Nat.le_succ _, ?_, trivial⟩
  simp

end Delivers

end Satzbau.Parser

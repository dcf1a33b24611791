import Satzbau.Proofs.Constituents.Order
import Satzbau.Proofs.Pointing.Places

namespace Satzbau

variable {fact : Location → Prop}

/-- What comes of a step of an analysis: something good, or a fault whose places all are of some kind. -/
inductive Yields {α : Type} (fact : Location → Prop) (good : α → Prop) : Except Diagnostic α → Prop
  | ok {a : α} (isGood : good a) : Yields fact good (.ok a)
  | error {d : Diagnostic} (points : d.PointsAt fact) : Yields fact good (.error d)

namespace Yields

variable {α β : Type} {good : α → Prop} {good' : β → Prop}

theorem points {x : Except Diagnostic α} {d : Diagnostic} (yields : Yields fact good x) (failed : x = .error d) :
    d.PointsAt fact := by
  subst failed
  cases yields with
  | error points => exact points

theorem bind {x : Except Diagnostic α} {f : α → Except Diagnostic β} (first : Yields fact good x)
    (next : ∀ a, good a → Yields fact good' (f a)) : Yields fact good' (x >>= f) := by
  cases first with
  | ok isGood => exact next _ isGood
  | error points => exact .error points

theorem pure {a : α} (isGood : good a) : Yields fact good (Pure.pure a) :=
  .ok isGood

theorem throw {place : Location} {fault : Fault} (known : fact place) (plain : fault.first? = none) :
    Yields fact good (MonadExcept.throw (.located place fault) : Except Diagnostic α) :=
  .error (.located known plain)

theorem mapM {f : β → Except Diagnostic α} {xs : List β} (each : ∀ x ∈ xs, Yields fact (fun _ => True) (f x)) :
    Yields fact (fun _ => True) (xs.mapM f) := by
  induction xs with
  | nil => exact .pure trivial
  | cons x later ih =>
    rw [List.mapM_cons]
    refine .bind (each x (List.mem_cons_self ..)) fun y _ => ?_
    exact .bind (ih fun z member => each z (List.mem_cons_of_mem x member)) fun ys _ => .pure trivial

/-- What every step keeps is kept by all of them. -/
theorem foldlM {f : α → β → Except Diagnostic α} {s : α} {xs : List β} (start : good s)
    (each : ∀ s, good s → ∀ x ∈ xs, Yields fact good (f s x)) : Yields fact good (xs.foldlM f s) := by
  induction xs generalizing s with
  | nil => exact .pure start
  | cons x later ih =>
    rw [List.foldlM_cons]
    exact .bind (each s start x (List.mem_cons_self ..)) fun t isGood =>
      ih isGood fun s known y member => each s known y (List.mem_cons_of_mem x member)

end Yields

/-- Whether the tokens of a phrase are at places of some kind. -/
structure NounPhrase.IsAt (fact : Location → Prop) (p : NounPhrase) : Prop where
  noun : fact p.location
  determiner : ∀ t, p.determiner = some t → fact t.location

/-- Whether all tokens of some constituents are at places of some kind. -/
def TokensAt (fact : Location → Prop) (cs : List Constituent) : Prop :=
  ∀ t, .token t ∈ slotsOf cs → fact t.location

section

variable {cs later : List Constituent}

@[simp] theorem tokensAt_nil : TokensAt fact [] :=
  nofun

@[simp] theorem tokensAt_append : TokensAt fact (cs ++ later) ↔ TokensAt fact cs ∧ TokensAt fact later := by
  simp [TokensAt, or_imp, forall_and]

@[simp] theorem tokensAt_flatMap {α : Type} {f : α → List Constituent} {xs : List α} :
    TokensAt fact (xs.flatMap f) ↔ ∀ x ∈ xs, TokensAt fact (f x) := by
  induction xs with
  | nil => simp
  | cons x others ih => simp [ih]

@[simp] theorem tokensAt_token {t : Token} :
    TokensAt fact (.token t :: cs) ↔ fact t.location ∧ TokensAt fact cs := by
  simp [TokensAt, Constituent.slots]

@[simp] theorem tokensAt_call {c : Call} : TokensAt fact (.call c :: cs) ↔ TokensAt fact cs := by
  simp [TokensAt, Constituent.slots]

@[simp] theorem tokensAt_loopIn : TokensAt fact (.loopIn :: cs) ↔ TokensAt fact cs := by
  simp [TokensAt, Constituent.slots]

theorem slots_isAt {p : NounPhrase} : (∀ t, .token t ∈ p.slots → fact t.location) ↔ p.IsAt fact := by
  simp only [NounPhrase.slots, List.mem_append, List.mem_map, Option.mem_toList, Slot.token.injEq, exists_eq_right,
    List.mem_singleton]
  exact ⟨fun known => ⟨known _ (Or.inr rfl), fun t named => known t (Or.inl named)⟩,
    fun isAt t inPhrase => inPhrase.elim (isAt.determiner t) fun isNoun => isNoun ▸ isAt.noun⟩

@[simp] theorem tokensAt_phrase {p : NounPhrase} :
    TokensAt fact (.phrase p :: cs) ↔ p.IsAt fact ∧ TokensAt fact cs := by
  rw [← slots_isAt]
  simp [TokensAt, Constituent.slots, or_imp, forall_and]

theorem TokensAt.within (known : TokensAt fact cs) (within : later <:+: cs) : TokensAt fact later :=
  fun t member => known t ((slotsOf_within within).subset member)

/-- A role that has no place of its own has that of the property with which its value begins. -/
theorem TokensAt.argument {a : Argument} (known : TokensAt fact a.constituents) :
    a.phrase.IsAt fact ∧ TokensAt fact (valueConstituents a.value) := by
  obtain ⟨phrase, value⟩ := a
  rw [Argument.constituents] at known
  have atValue : TokensAt fact (valueConstituents value) := fun t member => known t (List.mem_append_right _ member)
  refine ⟨?_, atValue⟩
  by_cases shares : Argument.sharesPhrase phrase value = true
  · cases value with
    | none => contradiction
    | some e =>
      obtain ⟨behind, begins⟩ := e.constituents_of_leadingProperty? (beq_iff_eq.mp shares)
      rw [valueConstituents, begins, tokensAt_phrase] at atValue
      exact atValue.1
  · refine slots_isAt.mp fun t member => known t (List.mem_append_left _ ?_)
    rwa [Constituent.slots, if_neg shares]

end

namespace Program

variable {p : Program}

theorem tokensAt_definition (known : TokensAt fact p.constituents) {d : Definition} (member : d ∈ p.definitions) :
    TokensAt fact d.constituents :=
  tokensAt_flatMap.mp (tokensAt_append.mp known).1 d member

/-- What holds of the tokens of a program holds of those of all that a walk meets. -/
theorem tokensAt_visit {α : Type} {pass : Node → α → α} {inherited : α} {visit : α × Node}
    (known : TokensAt fact p.constituents) (met : visit ∈ p.visits pass inherited) : TokensAt fact visit.2.constituents := by
  obtain ⟨node, outermost, below⟩ := List.mem_flatMap.mp met
  have within := Node.infix_of_visit pass inherited below
  rcases List.mem_append.mp outermost with atDefinition | atStatement
  · obtain ⟨d, member, rfl⟩ := List.mem_map.mp atDefinition
    exact (tokensAt_definition known member).within within
  · exact known.within (within.trans (List.infix_append_of_infix_right (Node.infix_block atStatement)))

end Program

theorem Fills.mem {ts : List Token} {slots : List Slot} (fills : Fills ts slots) {t : Token} (member : .token t ∈ slots) :
    t ∈ ts := by
  induction fills with
  | nil => contradiction
  | placeless _ _ ih => exact List.mem_cons_of_mem _ (ih member)
  | token _ ih =>
    rcases List.mem_cons.mp member with same | inLater
    · exact Slot.token.inj same ▸ List.mem_cons_self ..
    · exact List.mem_cons_of_mem _ (ih inLater)
  | form _ _ ih => exact List.mem_cons_of_mem _ (ih ((List.mem_cons.mp member).resolve_left nofun))
  | loopIn _ _ _ ih => exact List.mem_cons_of_mem _ (ih ((List.mem_cons.mp member).resolve_left nofun))

/-- The tokens of a program are those that were read. -/
theorem TokenStream.IsRead.program_tokensAt {stream : TokenStream} {p : Program} (read : stream.IsRead)
    (parsed : stream.program = .ok p) (known : ∀ t, .ok t ∈ stream.items → fact t.location) :
    TokensAt fact p.constituents := by
  obtain ⟨atEnd, inside⟩ := read.ends
  obtain ⟨tokens, order, items, fills, spelled⟩ := program_spelled atEnd inside parsed
  intro t member
  refine known t ?_
  rw [items]
  exact List.mem_map_of_mem (fills.mem (spelled.perm.mem_iff.mpr member))

end Satzbau

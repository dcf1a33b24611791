import Satzbau.Proofs.Parsing.Delivery

namespace Satzbau

/-- Whether the object of a header is the subject itself. -/
def FunctionHeader.IsReflexive (h : FunctionHeader) : Prop :=
  ∃ token, h.object = .reflexive token

namespace Parser

variable {α β : Type} {scope : Scope}

/-- What holds of all that a parser gives in a scope. -/
def Gives (scope : Scope) (p : Parser α) (good : α → Prop) : Prop :=
  ∀ s a t, p scope s = .ok (a, t) → good a

theorem Gives.bind {p : Parser α} {f : α → Parser β} {good : α → Prop} {good' : β → Prop} (first : Gives scope p good)
    (next : ∀ a, good a → Gives scope (f a) good') : Gives scope (p >>= f) good' := by
  intro s b t run
  obtain ⟨a, middle, runFirst, runNext⟩ := bind_eq_ok run
  exact next a (first s a middle runFirst) middle b t runNext

theorem Gives.any (p : Parser α) : Gives scope p fun _ => True :=
  fun _ _ _ _ => trivial

theorem Gives.pure {a : α} {good : α → Prop} (known : good a) : Gives scope (pure a) good := by
  intro s b t run
  cases run
  exact known

theorem Gives.throw (fault : Diagnostic) {good : α → Prop} : Gives scope (throw fault : Parser α) good := by
  intro s a t run
  contradiction

theorem Gives.unexpected (expected : String) {good : α → Prop} : Gives scope (unexpected expected) good :=
  .bind (.any _) fun _ _ => .throw _

theorem Gives.within {construct : Construct} {p : Parser α} {good : α → Prop}
    (gives : Gives { scope with around := construct :: scope.around } p good) : Gives scope (within construct p) good :=
  gives

/-- A check that passes has found one of the constructs that it asks for. -/
theorem Gives.require (token : Token) (constructs : List Construct) (required : String) :
    Gives scope (require token constructs required) fun _ => scope.around.any constructs.contains = true := by
  intro s a t run
  unfold Parser.require at run
  obtain ⟨around, middle, read, rest⟩ := bind_eq_ok run
  cases read
  cases inside : scope.around.any constructs.contains with
  | true => rfl
  | false =>
    rw [inside] at rest
    contradiction

/-- A header has a reflexive object only within a method. -/
theorem Gives.headerObject (outside : .method ∉ scope.around) :
    Gives scope headerObject fun object => ∀ token, object ≠ .reflexive token := by
  have reflexive : Gives scope (do
      let token ← advance
      Parser.require token [.method] "a method definition"
      return .reflexive token : Parser (ObjectRole Parameter)) fun object => ∀ token, object ≠ .reflexive token := by
    refine .bind (.any _) fun token _ => .bind (.require _ _ _) fun _ found => ?_
    obtain ⟨c, member, same⟩ := List.any_eq_true.mp found
    rw [List.mem_singleton.mp (List.contains_iff_mem.mp same)] at member
    exact absurd member outside
  unfold Parser.headerObject
  refine .bind (.any _) fun token _ => ?_
  split
  · exact .bind (.any _) fun _ _ => .pure nofun
  · exact reflexive
  · exact reflexive
  · exact .pure nofun

theorem Gives.header (inner : Inner) (outside : .method ∉ scope.around) :
    Gives scope (header inner) fun h => ¬h.IsReflexive := by
  unfold Parser.header
  refine .bind (.any _) fun _ _ => .bind (.any _) fun result _ => .bind (.any _) fun verb _ => ?_
  refine .bind (.headerObject outside) fun object known => .bind (.any _) fun groups _ => ?_
  refine .bind (.any _) fun suffix _ => .pure ?_
  rintro ⟨token, same⟩
  exact known token same

theorem Gives.map {p : Parser α} {f : α → β} {good : α → Prop} {good' : β → Prop} (gives : Gives scope p good)
    (known : ∀ a, good a → good' (f a)) : Gives scope (f <$> p) good' := by
  intro s b t run
  obtain ⟨a, middle, first, returned⟩ := bind_eq_ok (show (p >>= fun a => Pure.pure (f a)) scope s = _ from run)
  cases returned
  exact known a (gives s a _ first)

end Parser

theorem TokenStream.program_eq_ok {stream : TokenStream} {p : Program} :
    stream.program = .ok p ↔ ∃ t, Parser.program (Parser.inner stream.items.length) ⟨[], stream.fileEnd⟩
      ⟨stream.items, 0⟩ = .ok (p, t) := by
  show (Parser.program (Parser.inner stream.items.length) ⟨[], stream.fileEnd⟩ ⟨stream.items, 0⟩).map Prod.fst =
    .ok p ↔ _
  cases Parser.program (Parser.inner stream.items.length) ⟨[], stream.fileEnd⟩ ⟨stream.items, 0⟩ with
  | error fault => exact ⟨nofun, nofun⟩
  | ok step =>
    constructor
    · rintro ⟨⟩
      exact ⟨step.2, rfl⟩
    · rintro ⟨t, same⟩
      cases same
      rfl

end Satzbau

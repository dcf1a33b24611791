import Satzbau.Proofs.Defining.Functions
import Satzbau.Proofs.Journal

namespace Satzbau

section Steps

variable {ε α β : Type}

/-- What a step gives, another step gives as well. -/
def StaysOk (x y : Except ε α) : Prop :=
  ∀ r, x = .ok r → y = .ok r

theorem StaysOk.refl (x : Except ε α) : StaysOk x x :=
  fun _ same => same

theorem StaysOk.bind {x y : Except ε α} {f g : α → Except ε β} (first : StaysOk x y) (next : ∀ r, StaysOk (f r) (g r)) :
    StaysOk (x >>= f) (y >>= g) := by
  intro s given
  obtain ⟨r, run, rest⟩ := ok_of_bind given
  rw [first r run]
  exact next r s rest

theorem StaysOk.mapM {f g : α → Except ε β} (each : ∀ x, StaysOk (f x) (g x)) (xs : List α) :
    StaysOk (xs.mapM f) (xs.mapM g) := by
  induction xs with
  | nil => exact .refl _
  | cons x later ih =>
    rw [List.mapM_cons, List.mapM_cons]
    exact .bind (each x) fun y => .bind ih fun ys => .refl _

theorem StaysOk.foldlM {f g : β → α → Except ε β} (each : ∀ s x, StaysOk (f s x) (g s x)) (s : β) (xs : List α) :
    StaysOk (xs.foldlM f s) (xs.foldlM g s) := by
  induction xs generalizing s with
  | nil => exact .refl _
  | cons x later ih =>
    rw [List.foldlM_cons, List.foldlM_cons]
    exact .bind (each s x) fun t => ih t

end Steps

/-- Annotations that are kept while others come to them. -/
def Annotations.KeptIn (a b : Annotations) : Prop :=
  ∀ id reading, a.get? id = some reading → b.get? id = some reading

theorem Annotations.Grew.keptIn {ids : List NodeId} {a b : Annotations} (grew : Annotations.Grew ids a b) : a.KeptIn b :=
  fun _ _ known => grew.get?_of_some known

variable {a b : Annotations} (kept : a.KeptIn b)

include kept

namespace Annotations

theorem KeptIn.phrase (p : NounPhrase) : StaysOk (a.phrase p) (b.phrase p) := by
  intro reading given
  unfold Annotations.phrase at given ⊢
  cases known : a.get? p.id with
  | none =>
    rw [known] at given
    contradiction
  | some other =>
    rw [known] at given
    rw [kept p.id other known]
    exact given

theorem KeptIn.typeName (p : NounPhrase) : StaysOk (a.typeName p) (b.typeName p) :=
  .bind (kept.phrase p) fun _ => .refl _

end Annotations

namespace Signature

theorem canonicalPhrase_staysOk (p : NounPhrase) : StaysOk (canonicalPhrase a p) (canonicalPhrase b p) :=
  .bind (kept.phrase p) fun _ => .refl _

theorem canonicalObject_staysOk (o : ObjectRole NounPhrase) : StaysOk (canonicalObject a o) (canonicalObject b o) := by
  cases o with
  | absent => exact .refl _
  | thing p => exact .bind (canonicalPhrase_staysOk kept p) fun _ => .refl _
  | reflexive token => exact .refl _

theorem canonicalGroup_staysOk (g : PrepositionGroup NounPhrase) : StaysOk (canonicalGroup a g) (canonicalGroup b g) :=
  .bind (.mapM (canonicalPhrase_staysOk kept) g.items) fun _ => .refl _

theorem ofRoles_staysOk (verb : Token) (object : ObjectRole NounPhrase) (groups : List (PrepositionGroup NounPhrase))
    (suffix : Option Token) : StaysOk (ofRoles a verb object groups suffix) (ofRoles b verb object groups suffix) :=
  .bind (canonicalObject_staysOk kept object) fun _ => .bind (.mapM (canonicalGroup_staysOk kept) groups) fun _ => .refl _

end Signature

namespace Definitions

theorem defineClass_staysOk (definitions : Definitions) (index : Nat) (c : ClassDefinition) :
    StaysOk (defineClass a definitions index c) (defineClass b definitions index c) :=
  .bind (kept.typeName c.name) fun _ => .refl _

theorem defineFunction_staysOk (definitions : Definitions) (index : Nat) (f : FunctionDefinition) :
    StaysOk (defineFunction a definitions index f) (defineFunction b definitions index f) :=
  .bind (Signature.ofRoles_staysOk kept _ _ _ _) fun _ => .refl _

theorem defineMethod_staysOk (index : Nat) (c : ClassEntry) (entry : FunctionDefinition × Nat) :
    StaysOk (defineMethod a index c entry) (defineMethod b index c entry) :=
  .bind (Signature.ofRoles_staysOk kept _ _ _ _) fun _ => .refl _

theorem defineConversion_staysOk (index : Nat) (c : ClassEntry) (entry : ConversionDefinition × Nat) :
    StaysOk (defineConversion a index c entry) (defineConversion b index c entry) :=
  .bind (kept.typeName entry.1.target) fun _ => .refl _

theorem defineImplementation_staysOk (definitions : Definitions) (index : Nat) (i : ImplementationDefinition) :
    StaysOk (defineImplementation a definitions index i) (defineImplementation b definitions index i) := by
  refine .bind (kept.typeName i.owner) fun name => ?_
  split
  · exact .refl _
  · exact .bind (.foldlM (defineMethod_staysOk kept index) _ _) fun withMethods =>
      .bind (.foldlM (defineConversion_staysOk kept index) _ _) fun _ => .refl _

theorem defineIfClass_staysOk (definitions : Definitions) (entry : Definition × Nat) :
    StaysOk (defineIfClass a definitions entry) (defineIfClass b definitions entry) := by
  unfold defineIfClass
  split
  · exact defineClass_staysOk kept definitions entry.2 _
  · exact .refl _

theorem defineUnlessClass_staysOk (definitions : Definitions) (entry : Definition × Nat) :
    StaysOk (defineUnlessClass a definitions entry) (defineUnlessClass b definitions entry) := by
  unfold defineUnlessClass
  split
  · exact defineFunction_staysOk kept definitions entry.2 _
  · exact defineImplementation_staysOk kept definitions entry.2 _
  · exact .refl _
  · exact .refl _

theorem callSignature_staysOk (c : Call) : StaysOk (callSignature a c) (callSignature b c) :=
  .bind (Signature.ofRoles_staysOk kept _ _ _ _) fun _ => .refl _

end Definitions

end Satzbau

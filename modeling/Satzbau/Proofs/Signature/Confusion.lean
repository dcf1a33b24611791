import Satzbau.Proofs.Signature.Canonical
import Satzbau.Proofs.Text

namespace Satzbau

variable {p p' : Program} {dictionary dictionary' : Dictionary} {a a' : Annotations}

/-- Any two functions, methods or calls of checked programs have signatures, and these have the same
text exactly if they have the same structure or if the one has the suffix `sich` where the other has
a reflexive object, and both have nothing else. -/
theorem Program.IsChecked.signature_text_eq_iff (known : p.IsChecked dictionary a) (known' : p'.IsChecked dictionary' a')
    {r r' : Roles} (member : r ∈ p.roles) (member' : r' ∈ p'.roles) :
    ∃ s t, r.signature a = .ok s ∧ r'.signature a' = .ok t ∧
      (s.text = t.text ↔ s.Alike t ∨ s.Confused t ∨ t.Confused s) := by
  have written := known.written r member
  have written' := known'.written r' member'
  have noted := known.noted r member
  have noted' := known'.noted r' member'
  exact ⟨r.canonical a, r'.canonical a', Roles.signature_eq_canonical written noted,
    Roles.signature_eq_canonical written' noted',
    Signature.text_eq_text_iff (Roles.canonical_wellFormed written noted) (Roles.canonical_wellFormed written' noted')⟩

def person : Declension :=
  ⟨.feminine, ⟨"Person", "Person", "Person", "Person"⟩, ⟨"Personen", "Personen", "Personen", "Personen"⟩⟩

/-- A function whose suffix is `sich`, and a call with a reflexive object. -/
def washing : String :=
  "Verb wasche sich:\n  intern\n.\nNomen Person:\n  wasche mich\n.\n"

/-- The text and the suffix of a signature. -/
def Signature.textAndSuffix (s : Signature) : String × Option String :=
  (s.text, s.suffix)

/-- A call with a reflexive object has the signature of a function that takes no object. -/
theorem washing_confused :
    ∃ (p : Program) (a : Annotations), p.IsChecked ⟨[person]⟩ a ∧ ∃ r ∈ p.roles, ∃ r' ∈ p.roles, ∃ s t, r.signature a = .ok s ∧
      r'.signature a = .ok t ∧ s.text = t.text ∧ (s.Confused t ∨ t.Confused s) := by
  have stream := TokenStream.ofText_eq .none ⟨"satz"⟩ washing (by decide +kernel)
  have computed : ((TokenStream.ofText .none ⟨"satz"⟩ washing).program.bind fun p =>
      (p.annotations ⟨[person]⟩).map fun a =>
        p.roles.map fun r => (r.signature a).toOption.map Signature.textAndSuffix).toOption =
      some [some ("wasche sich", some "sich"), some ("wasche sich", none)] := by
    rw [stream]
    decide +kernel
  obtain ⟨p, a, parsed, checked, spelled⟩ := exists_ok_of_map computed
  have known : p.IsChecked ⟨[person]⟩ a := ⟨⟨_, .ofText .none ⟨"satz"⟩ washing, parsed⟩, checked⟩
  obtain ⟨r, others, roles, ofFirst, rest⟩ := List.map_eq_cons_iff.mp spelled
  obtain ⟨r', _, rfl, ofSecond, _⟩ := List.map_eq_cons_iff.mp rest
  have member : r ∈ p.roles := by simp [roles]
  have member' : r' ∈ p.roles := by simp [roles]
  obtain ⟨s, t, signed, signed', sameText⟩ := known.signature_text_eq_iff known member member'
  rw [signed] at ofFirst
  rw [signed'] at ofSecond
  obtain ⟨text, suffix⟩ := Prod.mk.inj (Option.some.inj ofFirst)
  obtain ⟨text', suffix'⟩ := Prod.mk.inj (Option.some.inj ofSecond)
  refine ⟨p, a, known, r, member, r', member', s, t, signed, signed', text.trans text'.symm, ?_⟩
  obtain alike | confused := sameText.mp (text.trans text'.symm)
  · have same := alike.suffix
    rw [suffix, suffix'] at same
    contradiction
  · exact confused

end Satzbau

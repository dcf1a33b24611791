import Satzbau.Proofs.Lookup.Insertion

namespace Satzbau.Dictionary

open Collation

variable {d grown : Dictionary} {e entry found other : Declension} {word : String} {fault : Fault}

/-- An entry that a larger dictionary gives for a word that is no form of the new entry was there before. -/
theorem lookup_before (built : d.Built) (inserted : d.insert entry = .ok grown) (unrelated : word ∉ entry.forms)
    (after : grown.lookup word = .ok other) : other ∈ d.entries ∧ word ∈ other.forms ∧ d.InReach other word := by
  obtain ⟨member, isForm, alike, first⟩ := lookup_eq_ok (built.insert inserted).ordered after
  obtain rfl | old := (mem_of_insert inserted).mp member
  · exact absurd isForm unrelated
  · exact ⟨old, isForm, alike, fun empty nonempty o among => first empty nonempty o ((mem_of_insert inserted).mpr (Or.inr among))⟩

/-- An unknown word stays unknown. -/
theorem lookup_error_insert (built : d.Built) (inserted : d.insert entry = .ok grown) (unrelated : word ∉ entry.forms)
    (missed : d.lookup word = .error fault) : grown.lookup word = .error fault := by
  obtain ⟨never, rfl⟩ := lookup_eq_error_iff.mp missed
  refine lookup_eq_error_iff.mpr ⟨fun other after => ?_, rfl⟩
  obtain ⟨member, isForm, reach⟩ := lookup_before built inserted unrelated after
  obtain ⟨found, known⟩ := exists_lookup built.ordered member isForm reach
  exact never found known

/-- A new entry takes out of reach only an entry without a nominative, and only if the word does not
sort before the new one. -/
theorem InReach.insert (inserted : d.insert entry = .ok grown) (reach : d.InReach e word)
    (kept : e.nominative ≠ "" ∨ compareWords word entry.nominative = .lt) : grown.InReach e word := by
  refine ⟨reach.1, fun empty nonempty o member different => ?_⟩
  obtain rfl | old := (mem_of_insert inserted).mp member
  · exact kept.resolve_left (not_not_intro empty)
  · exact reach.2 empty nonempty o old different

theorem exists_lookup_insert (built : d.Built) (inserted : d.insert entry = .ok grown)
    (before : d.lookup word = .ok found) (kept : found.nominative ≠ "" ∨ compareWords word entry.nominative = .lt) :
    ∃ other, grown.lookup word = .ok other := by
  obtain ⟨member, isForm, reach⟩ := lookup_eq_ok built.ordered before
  exact exists_lookup (built.insert inserted).ordered ((mem_of_insert inserted).mpr (Or.inr member)) isForm
    (reach.insert inserted kept)

def band : Declension :=
  ⟨.neuter, ⟨"Band", "Bandes", "Band", "Band"⟩, ⟨"Bande", "Bande", "Banden", "Bande"⟩⟩

def bande : Declension :=
  ⟨.feminine, ⟨"Bande", "Bande", "Bande", "Bande"⟩, ⟨"Banden", "Banden", "Banden", "Banden"⟩⟩

def apple : Declension :=
  ⟨.masculine, ⟨"Apfel", "Apfels", "Apfel", "Apfel"⟩, ⟨"Äpfel", "Äpfel", "Äpfeln", "Äpfel"⟩⟩

def bands : Dictionary :=
  ⟨[band, bande]⟩

theorem bands_built : bands.Built :=
  .insert (.insert .empty (rfl : empty.insert bande = .ok ⟨[bande]⟩)) (rfl : insert ⟨[bande]⟩ band = .ok bands)

/-- What an entry does to a word that is none of its forms: an unknown word stays unknown, a word that
only one entry in reach has stays with this entry, and a word that several have goes to one of them. An
entry without a nominative can get lost. -/
theorem lookup_insert_unrelated (built : d.Built) (inserted : d.insert entry = .ok grown) (unrelated : word ∉ entry.forms) :
    (∀ fault, d.lookup word = .error fault → grown.lookup word = .error fault) ∧
      ∀ found, d.lookup word = .ok found →
        (∀ other, grown.lookup word = .ok other → other ∈ d.entries ∧ word ∈ other.forms ∧ d.InReach other word) ∧
        (∀ fault, grown.lookup word = .error fault →
          fault = .unknownWord word ∧ found.nominative = "" ∧ compareWords word entry.nominative ≠ .lt) ∧
        ((∀ o ∈ d.entries, word ∈ o.forms → d.InReach o word → o = found) → found.nominative ≠ "" →
          grown.lookup word = .ok found) := by
  have old : ∀ other, grown.lookup word = .ok other → other ∈ d.entries ∧ word ∈ other.forms ∧ d.InReach other word :=
    fun other after => lookup_before built inserted unrelated after
  refine ⟨fun fault missed => lookup_error_insert built inserted unrelated missed, fun found before =>
    ⟨old, fun fault lost => ?_, fun only nonempty => ?_⟩⟩
  · obtain ⟨never, rfl⟩ := lookup_eq_error_iff.mp lost
    have outside : ¬(found.nominative ≠ "" ∨ compareWords word entry.nominative = .lt) := fun kept =>
      let ⟨other, after⟩ := exists_lookup_insert built inserted before kept
      never other after
    rw [not_or, not_not] at outside
    exact ⟨rfl, outside⟩
  · obtain ⟨other, after⟩ := exists_lookup_insert built inserted before (Or.inl nonempty)
    obtain ⟨member, isForm, reach⟩ := old other after
    rw [after, only other member isForm reach]

/-- A form that no other entry in reach has stays with its entry. -/
theorem buildings_lookup_museum : buildings.Built ∧ buildings.insert apple = .ok ⟨[apple, house, museum]⟩ ∧
    "Museum" ∉ apple.forms ∧ buildings.lookup "Museum" = .ok museum ∧
    lookup ⟨[apple, house, museum]⟩ "Museum" = .ok museum := by
  have before : buildings.lookup "Museum" = .ok museum := by decide +kernel
  have only : ∀ o ∈ buildings.entries, "Museum" ∈ o.forms → o = museum := by decide
  have inserted : buildings.insert apple = .ok ⟨[apple, house, museum]⟩ := rfl
  have unrelated : "Museum" ∉ apple.forms := by decide
  have after := (lookup_insert_unrelated buildings_built inserted unrelated).2 museum before
  exact ⟨buildings_built, inserted, unrelated, before,
    after.2.2 (fun o member isForm _ => only o member isForm) (by decide)⟩

/-- A form that two entries have goes from one to the other as an entry without it comes in. -/
theorem bands_lookup_moves : bands.Built ∧ bands.insert apple = .ok ⟨[apple, band, bande]⟩ ∧ "Bande" ∉ apple.forms ∧
    bands.lookup "Bande" = .ok bande ∧ lookup ⟨[apple, band, bande]⟩ "Bande" = .ok band ∧ bande ≠ band := by
  have before : bands.lookup "Bande" = .ok bande := by decide +kernel
  have after : lookup ⟨[apple, band, bande]⟩ "Bande" = .ok band := by decide +kernel
  exact ⟨bands_built, rfl, by decide, before, after, by decide⟩

end Satzbau.Dictionary

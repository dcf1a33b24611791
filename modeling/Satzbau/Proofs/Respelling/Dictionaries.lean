import Satzbau.Loading
import Satzbau.Proofs.Lookup.Entries
import Satzbau.Proofs.Respelling.Programs

namespace Satzbau

open Collation

namespace Dictionary

/-- A dictionary into which some entries were put. -/
structure Gains (d : Dictionary) (entries : List Declension) (grown : Dictionary) : Prop where
  perm : grown.entries.Perm (entries ++ d.entries)
  ordered : Ordered d.entries → Ordered grown.entries

variable {d middle grown : Dictionary} {entries later : List Declension} {entry : Declension} {blamed : Token}

theorem Gains.refl (d : Dictionary) : d.Gains [] d :=
  ⟨.refl _, id⟩

theorem Gains.insertAt (inserted : d.insertAt blamed entry = .ok grown) : d.Gains [entry] grown := by
  unfold Dictionary.insertAt at inserted
  split at inserted
  · rename_i found
    cases inserted
    have grows := insert_eq_ok found
    exact ⟨insertBefore_perm grows, fun ordered => insertBefore_ordered ordered grows⟩
  · contradiction

theorem Gains.trans (first : d.Gains entries middle) (behind : middle.Gains later grown) : d.Gains (entries ++ later) grown := by
  refine ⟨?_, fun ordered => behind.ordered (first.ordered ordered)⟩
  rw [List.append_assoc]
  exact behind.perm.trans ((first.perm.append_left later).trans (List.perm_append_comm_assoc ..))

theorem Gains.foldlM {pairs : List (Token × Declension)}
    (inserted : pairs.foldlM (fun dictionary (token, entry) => dictionary.insertAt token entry) d = .ok grown) :
    d.Gains (pairs.map Prod.snd) grown := by
  induction pairs generalizing d with
  | nil =>
    cases inserted
    exact .refl _
  | cons pair others ih =>
    obtain ⟨token, entry⟩ := pair
    rw [List.foldlM_cons] at inserted
    dsimp only at inserted
    cases first : d.insertAt token entry with
    | error fault =>
      rw [first] at inserted
      contradiction
    | ok middle =>
      rw [first] at inserted
      exact Gains.trans (.insertAt first) (ih inserted)

/-- Entries can be put in if no two of them have the same nominative. -/
theorem exists_foldlM_insertAt {pairs : List (Token × Declension)}
    (distinct : ((pairs.map Prod.snd ++ d.entries).map Declension.nominative).Nodup) :
    ∃ grown, pairs.foldlM (fun dictionary (token, entry) => dictionary.insertAt token entry) d = .ok grown := by
  induction pairs generalizing d with
  | nil => exact ⟨d, rfl⟩
  | cons pair others ih =>
    obtain ⟨token, entry⟩ := pair
    cases first : d.insertAt token entry with
    | ok middle =>
      have same : (others.map Prod.snd ++ middle.entries).Perm (((token, entry) :: others).map Prod.snd ++ d.entries) :=
        ((Gains.insertAt first).perm.append_left _).trans (List.perm_append_comm_assoc ..)
      obtain ⟨grown, rest⟩ := ih ((same.map _).nodup_iff.mpr distinct)
      refine ⟨grown, ?_⟩
      rw [List.foldlM_cons]
      dsimp only
      rw [first]
      exact rest
    | error fault =>
      unfold Dictionary.insertAt Dictionary.insert at first
      cases found : insertBefore entry d.entries with
      | some grown =>
        rw [found] at first
        contradiction
      | none =>
        obtain ⟨o, among, same⟩ := insertBefore_eq_none found
        refine absurd ?_ (List.nodup_cons.mp distinct).1
        exact same ▸ List.mem_map_of_mem (List.mem_append_right (others.map Prod.snd) among)

/-- A dictionary does not depend on the order of the declensions. -/
theorem ofInline_of_perm {pairs : List (Token × Declension)} (ordered : Ordered d.entries)
    (perm : d.entries.Perm (pairs.map Prod.snd)) : ofInline pairs = .ok d := by
  have distinct : ((pairs.map Prod.snd ++ Dictionary.empty.entries).map Declension.nominative).Nodup := by
    rw [show Dictionary.empty.entries = [] from rfl, List.append_nil]
    exact (perm.map _).nodup_iff.mp ordered.nodup
  obtain ⟨⟨entries⟩, inserted⟩ := exists_foldlM_insertAt distinct
  have gains := Gains.foldlM inserted
  have same := (gains.ordered .nil).eq_of_perm ordered ((List.append_nil (pairs.map Prod.snd) ▸ gains.perm).trans perm.symm)
  obtain ⟨entries'⟩ := d
  cases same
  exact inserted

end Dictionary

/-- The declensions that a definition spells out. -/
def Definition.inline (d : Definition) : List (Token × Declension) :=
  (⟨[d], []⟩ : Program).inlineDeclensions

theorem Program.inlineDeclensions_cons (d : Definition) (rest : Program) :
    ({ rest with definitions := d :: rest.definitions } : Program).inlineDeclensions = d.inline ++ rest.inlineDeclensions := by
  unfold Definition.inline inlineDeclensions declensions
  rw [← List.filterMap_append, ← List.filterMap_append, List.singleton_append]

namespace Program.Respelled

variable {answers : String → Declension → Prop} {p p' : Program}

/-- Nothing is left to a service. -/
theorem lookupRequests_eq_nil (respelled : p.Respelled answers p') : p'.lookupRequests = [] := by
  obtain ⟨definitions, statements⟩ := p
  obtain ⟨definitions', statements'⟩ := p'
  obtain ⟨-, related⟩ := respelled
  dsimp only at related
  induction related with
  | nil => rfl
  | cons first _ ih =>
    rw [lookupRequests_cons _ ⟨_, statements'⟩, ih, List.append_nil]
    cases first with
    | kept asksNothing => exact asksNothing
    | spelled => rfl

/-- What was left to a service is spelled out beside the rest, if the service knows one answer for each word. -/
theorem inlineDeclensions_perm (single : ∀ word entry entry', answers word entry → answers word entry' → entry = entry')
    (respelled : p.Respelled answers p') {entries : List Declension}
    (answered : List.Forall₂ (fun r entry => answers r.word.text entry) p.lookupRequests entries) :
    (p'.inlineDeclensions.map Prod.snd).Perm (entries ++ p.inlineDeclensions.map Prod.snd) := by
  obtain ⟨definitions, statements⟩ := p
  obtain ⟨definitions', statements'⟩ := p'
  obtain ⟨-, related⟩ := respelled
  dsimp only at related
  induction related generalizing entries with
  | nil =>
    cases answered
    exact .nil
  | @cons d d' others others' first _ ih =>
    rw [lookupRequests_cons d ⟨others, statements⟩] at answered
    rw [inlineDeclensions_cons d ⟨others, statements⟩, inlineDeclensions_cons d' ⟨others', statements'⟩, List.map_append,
      List.map_append]
    cases first with
    | kept asksNothing =>
      rw [asksNothing] at answered
      exact ((ih answered).append_left _).trans (List.perm_append_comm_assoc ..)
    | @spelled statement statement' word entry answer =>
      obtain ⟨entry', later, answer', behind, rfl⟩ := List.forall₂_cons_left_iff.mp answered
      obtain rfl := single word.text entry entry' answer answer'
      exact (ih behind).cons entry

end Program.Respelled

end Satzbau

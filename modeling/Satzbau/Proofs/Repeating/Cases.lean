import Mathlib.Data.List.Flatten
import Satzbau.Proofs.Repeating.Readings
import Satzbau.Proofs.Signature.Canonical

namespace Satzbau

variable {dictionary : Dictionary} {a b : Annotations}

/-- The first of the cases that a preposition governs in which all its roles can be read. -/
def PrepositionGroup.firstFit? (dictionary : Dictionary) (g : PrepositionGroup NounPhrase) : Option Case :=
  (Preposition.cases? g.preposition.text).bind fun cases =>
    cases.find? fun c => g.items.all fun p => (Agreement.annotate dictionary p (.single c) .all).isOk

theorem PrepositionGroup.items_sublist {α : Type} {g : PrepositionGroup α} {groups : List (PrepositionGroup α)}
    (member : g ∈ groups) : g.items.Sublist (groups.flatMap items) := by
  have only : [g].flatMap items = g.items := List.flatMap_singleton ..
  rw [← only]
  exact (List.singleton_sublist.mpr member).flatMap items

/-- Roles as a check leaves them: an object is read in the accusative, and the roles of a preposition in
the first case that fits all of them. -/
structure Roles.Settled (dictionary : Dictionary) (a : Annotations) (r : Roles) : Prop where
  object : ∀ p ∈ r.object.toList, p.NotedIn dictionary a .accusative
  groups : ∀ g ∈ r.groups, ∃ c, g.firstFit? dictionary = some c ∧ ∀ p ∈ g.items, p.NotedIn dictionary a c

theorem isOk_iff_exists {ε α : Type} {x : Except ε α} : x.isOk = true ↔ ∃ r, x = .ok r := by
  cases x with
  | ok r => exact ⟨fun _ => ⟨r, rfl⟩, fun _ => rfl⟩
  | error fault => exact ⟨nofun, nofun⟩

namespace Checker

/-- Checks that pass in the same cases settle on the same case. -/
theorem settledCase?_eq_firstFit? {α : Type} {check : Case → List α → Checking Unit} {g : PrepositionGroup α}
    {phrase : α → NounPhrase} (passes : ∀ c, ((check c g.items).run .empty).1.isOk = true ↔
      ∀ x ∈ g.items, ∃ reading, Agreement.annotate dictionary (phrase x) (.single c) .all = .ok reading) :
    g.settledCase? check = (g.map phrase).firstFit? dictionary := by
  unfold PrepositionGroup.settledCase? PrepositionGroup.firstFit? firstCase?
  congr 1
  funext cases
  congr 1
  funext c
  rw [Bool.eq_iff_iff, passes c, List.all_eq_true]
  constructor
  · intro each p member
    obtain ⟨x, inside, rfl⟩ := List.mem_map.mp member
    exact isOk_iff_exists.mpr (each x inside)
  · intro each x inside
    exact isOk_iff_exists.mp (each (phrase x) (List.mem_map_of_mem inside))

theorem settledCase?_parameters {g : PrepositionGroup Parameter}
    (distinct : (idsOf (g.items.flatMap Parameter.occurrences)).Nodup) :
    g.settledCase? (checkParameters dictionary) = (g.map Parameter.phrase).firstFit? dictionary := by
  refine settledCase?_eq_firstFit? fun c => ?_
  rw [(checkParameters_settles c g.items).isOk_iff (distinct.sublist (phraseIds_sublist _)) fun _ _ => rfl]
  constructor
  · rintro ⟨_, agree⟩ p inside
    obtain ⟨reading, read⟩ := agree p inside
    exact ⟨reading, Judgement.free_reads.mp read⟩
  · intro each
    refine ⟨(), fun p inside => ?_⟩
    obtain ⟨reading, read⟩ := each p inside
    exact ⟨reading, Judgement.free_reads.mpr read⟩

theorem argumentsAgree_bare {J : Judgement} {c : Case} (items : List NounPhrase) :
    argumentsAgree J c (items.map Argument.bare) ↔ ∀ p ∈ items, ∃ reading, J.reads p (.single c) .all reading := by
  induction items with
  | nil => exact ⟨fun _ p inside => absurd inside List.not_mem_nil, fun _ => trivial⟩
  | cons p later ih =>
    rw [List.map_cons, List.forall_mem_cons, ← ih]
    constructor
    · rintro ⟨⟨reading, read, _⟩, others⟩
      exact ⟨⟨reading, read⟩, others⟩
    · rintro ⟨⟨reading, read⟩, others⟩
      exact ⟨⟨reading, read, trivial⟩, others⟩

theorem settledCase?_bare {g : PrepositionGroup NounPhrase}
    (distinct : (idsOf (argumentOccurrences (g.items.map Argument.bare))).Nodup) :
    (g.map Argument.bare).settledCase? (checkArguments dictionary) = g.firstFit? dictionary := by
  have same : (g.map Argument.bare).map Argument.phrase = g := by
    show PrepositionGroup.mk g.preposition ((g.items.map Argument.bare).map Argument.phrase) = g
    rw [List.map_map]
    exact congrArg (PrepositionGroup.mk g.preposition) (List.map_id g.items)
  have fit := @settledCase?_eq_firstFit? dictionary _ (checkArguments dictionary) (g.map Argument.bare) Argument.phrase
  rw [same] at fit
  refine fit fun c => ?_
  show ((checkArguments dictionary c (g.items.map Argument.bare)).run .empty).1.isOk = true ↔ _
  rw [(checkArguments_settles c (g.items.map Argument.bare)).isOk_iff (distinct.sublist (phraseIds_sublist _)) fun _ _ => rfl]
  constructor
  · rintro ⟨_, agree⟩ x inside
    obtain ⟨p, among, rfl⟩ := List.mem_map.mp inside
    obtain ⟨reading, read⟩ := (argumentsAgree_bare g.items).mp agree p among
    exact ⟨reading, Judgement.free_reads.mp read⟩
  · intro each
    refine ⟨(), (argumentsAgree_bare g.items).mpr fun p inside => ?_⟩
    obtain ⟨reading, read⟩ := each (Argument.bare p) (List.mem_map_of_mem inside)
    exact ⟨reading, Judgement.free_reads.mpr read⟩

end Checker

/-- The roles of a header that agrees are settled. -/
theorem FunctionHeader.Agrees.settled {h : FunctionHeader} (agrees : h.Agrees (.noted dictionary a))
    (distinct : (idsOf h.occurrences).Nodup) : h.roles.Settled dictionary a where
  object := agrees.noted.object
  groups := by
    intro group member
    obtain ⟨g, inside, rfl⟩ := List.mem_map.mp member
    obtain ⟨cases, known, c, governed, settled, atItems⟩ := agrees.groups g inside
    have inParameters : g.items.Sublist h.parameters :=
      (PrepositionGroup.items_sublist inside).trans (List.sublist_append_right _ _)
    have inHeader : (g.items.flatMap Parameter.occurrences).Sublist h.occurrences :=
      (inParameters.flatMap _).trans (List.sublist_append_right _ _)
    replace settled : g.settledCase? (Checker.checkParameters dictionary) = some c := settled
    rw [Checker.settledCase?_parameters (distinct.sublist (inHeader.map _))] at settled
    refine ⟨c, settled, fun phrase inItems => ?_⟩
    obtain ⟨p, among, rfl⟩ := List.mem_map.mp inItems
    exact atItems p among

/-- The roles of a call without values are settled if the call agrees. -/
theorem Roles.settled_call {r : Roles} {id : NodeId} (agrees : (r.call id).Agrees (.noted dictionary a))
    (distinct : (idsOf (r.call id).occurrences).Nodup) : r.Settled dictionary a where
  object := by
    have noted := agrees.noted.object
    rw [Roles.roles_call] at noted
    exact noted
  groups := by
    intro g member
    have inside : g.map Argument.bare ∈ r.groups.map (.map Argument.bare) := List.mem_map_of_mem member
    obtain ⟨cases, known, c, governed, settled, atItems⟩ := groupsAgree.mem agrees.2 _ inside
    have inArguments : (g.items.map Argument.bare).Sublist (r.call id).arguments :=
      (PrepositionGroup.items_sublist inside).trans (List.sublist_append_right _ _)
    have inCall : (argumentOccurrences (g.items.map Argument.bare)).Sublist (r.call id).occurrences := by
      rw [argumentOccurrences_eq, Call.occurrences_eq]
      exact (inArguments.flatMap _).cons _
    replace settled : (g.map Argument.bare).settledCase? (Checker.checkArguments dictionary) = some c := settled
    rw [Checker.settledCase?_bare (distinct.sublist (inCall.map _))] at settled
    refine ⟨c, settled, fun p inItems => ?_⟩
    obtain ⟨reading, known⟩ := (Checker.argumentsAgree_bare g.items).mp atItems p inItems
    exact ⟨reading, known⟩

theorem exists_left_of_forall₂ {α β : Type} {R : α → β → Prop} {xs : List α} {ys : List β} (related : List.Forall₂ R xs ys)
    {y : β} (member : y ∈ ys) : ∃ x ∈ xs, R x y := by
  induction related with
  | nil => contradiction
  | cons here later ih =>
    rcases List.mem_cons.mp member with rfl | inLater
    · exact ⟨_, List.mem_cons_self .., here⟩
    · obtain ⟨x, inside, known⟩ := ih inLater
      exact ⟨x, List.mem_cons_of_mem _ inside, known⟩

theorem map_eq_map_of_forall₂ {α β γ : Type} {R : α → β → Prop} {f : α → γ} {g : β → γ} {xs : List α} {ys : List β}
    (related : List.Forall₂ R xs ys) (same : ∀ x ∈ xs, ∀ y ∈ ys, R x y → f x = g y) : xs.map f = ys.map g := by
  induction related with
  | nil => rfl
  | cons here later ih =>
    have first := same _ (List.mem_cons_self ..) _ (List.mem_cons_self ..) here
    have others := ih fun x inside y inside' => same x (List.mem_cons_of_mem _ inside) y (List.mem_cons_of_mem _ inside')
    rw [List.map_cons, List.map_cons, first, others]

theorem all_eq_all_of_forall₂ {α β : Type} {R : α → β → Prop} {f : α → Bool} {g : β → Bool} {xs : List α} {ys : List β}
    (related : List.Forall₂ R xs ys) (same : ∀ x y, R x y → f x = g y) : xs.all f = ys.all g := by
  induction related with
  | nil => rfl
  | cons here later ih => rw [List.all_cons, List.all_cons, same _ _ here, ih]

theorem firstFit?_same {g h : PrepositionGroup NounPhrase} (preposition : g.preposition.Same h.preposition)
    (items : List.Forall₂ NounPhrase.Same g.items h.items) : g.firstFit? dictionary = h.firstFit? dictionary := by
  have readable (c : Case) : (g.items.all fun p => (Agreement.annotate dictionary p (.single c) .all).isOk) =
      h.items.all fun p => (Agreement.annotate dictionary p (.single c) .all).isOk := by
    refine all_eq_all_of_forall₂ items fun p q same => ?_
    rw [Bool.eq_iff_iff, isOk_iff_exists, isOk_iff_exists]
    constructor
    · rintro ⟨reading, read⟩
      exact ⟨reading, Agreement.annotate_eq_ok_of_same same read⟩
    · rintro ⟨reading, read⟩
      exact ⟨reading, Agreement.annotate_eq_ok_of_same same.symm read⟩
  unfold PrepositionGroup.firstFit?
  rw [preposition.text]
  simp only [readable]

theorem PrepositionGroup.firstFit?_eq_some {g : PrepositionGroup NounPhrase} {c : Case}
    (found : g.firstFit? dictionary = some c) :
    ∃ cases, Preposition.cases? g.preposition.text = some cases ∧ c ∈ cases := by
  obtain ⟨cases, known, first⟩ := Option.bind_eq_some_iff.mp found
  exact ⟨cases, known, List.mem_of_find?_eq_some first⟩

theorem groupsAgree_of_mem {J : Judgement} {groups : List (PrepositionGroup Argument)}
    (each : ∀ g ∈ groups, groupAgrees g.preposition (J.ofCall g) fun c => argumentsAgree J c g.items) :
    groupsAgree J groups := by
  induction groups with
  | nil => trivial
  | cons g later ih => exact ⟨each g (List.mem_cons_self ..), ih fun h inside => each h (List.mem_cons_of_mem _ inside)⟩

/-- A call without values agrees where its roles are the same as roles that are settled. -/
theorem Roles.Settled.agrees_call {r s : Roles} (settled : r.Settled dictionary a) (same : r.Same s) (id : NodeId) :
    (s.call id).Agrees (.free dictionary) := by
  have readable {c : Case} {p q : NounPhrase} (noted : p.NotedIn dictionary a c) (same : p.Same q) :
      ∃ reading, (Judgement.free dictionary).reads q (.single c) .all reading := by
    obtain ⟨reading, read, _⟩ := noted
    exact ⟨reading, Judgement.free_reads.mpr (Agreement.annotate_eq_ok_of_same same read)⟩
  constructor
  · have atObject := settled.object
    have object := same.object
    generalize r.object = o at object atObject
    generalize s.object = o' at object
    cases object with
    | absent => trivial
    | reflexive => trivial
    | thing samePhrase =>
      obtain ⟨reading, read⟩ := readable (atObject _ (List.mem_singleton_self _)) samePhrase
      exact ⟨reading, read, trivial⟩
  · refine groupsAgree_of_mem fun group member => ?_
    obtain ⟨h, inside, rfl⟩ := List.mem_map.mp member
    obtain ⟨g, among, preposition, items⟩ := exists_left_of_forall₂ same.groups inside
    obtain ⟨c, first, atItems⟩ := settled.groups g among
    obtain ⟨cases, known, governed⟩ := PrepositionGroup.firstFit?_eq_some first
    rw [preposition.text] at known
    refine ⟨cases, known, c, governed, trivial, (Checker.argumentsAgree_bare h.items).mpr fun q inItems => ?_⟩
    obtain ⟨p, inGroup, samePhrase⟩ := exists_left_of_forall₂ items inItems
    exact readable (atItems p inGroup) samePhrase

theorem canonicalText_same {p q : NounPhrase} {c : Case} (same : p.Same q) (noted : p.NotedIn dictionary a c)
    (noted' : q.NotedIn dictionary b c) : Signature.canonicalText a p = Signature.canonicalText b q := by
  obtain ⟨reading, read, known⟩ := noted
  obtain ⟨reading', read', known'⟩ := noted'
  rw [Agreement.annotate_eq_ok_of_same same read] at read'
  cases read'
  have phrase : a.phrase p = .ok reading := by
    rw [Annotations.phrase, known]
  have phrase' : b.phrase q = .ok reading := by
    rw [Annotations.phrase, known']
  have determiner := same.determiner
  unfold Signature.canonicalText Signature.canonicalPhrase
  rw [phrase, phrase', same.word]
  generalize p.determiner = o at determiner
  generalize q.determiner = o' at determiner
  cases determiner with
  | none => rfl
  | some sameDeterminer =>
    dsimp only
    rw [sameDeterminer.text]

/-- The same roles, each settled where it stands, have the same canonical text. -/
theorem Roles.Settled.alike {r s : Roles} (settled : r.Settled dictionary a) (settled' : s.Settled dictionary b)
    (same : r.Same s) : (r.canonical a).Alike (s.canonical b) where
  verb := same.verb.text
  object := by
    have atObject := settled.object
    have atObject' := settled'.object
    have object := same.object
    show (r.object.map _).Related Eq (s.object.map _)
    generalize r.object = o at object atObject
    generalize s.object = o' at object atObject'
    cases object with
    | absent => exact .absent
    | reflexive token other => exact .reflexive token other
    | thing samePhrase =>
      exact .thing (canonicalText_same samePhrase (atObject _ (List.mem_singleton_self _))
        (atObject' _ (List.mem_singleton_self _)))
  groups := by
    rw [canonical, canonical, List.map_map, List.map_map]
    refine map_eq_map_of_forall₂ same.groups fun g inside h inside' both => ?_
    obtain ⟨preposition, items⟩ := both
    obtain ⟨c, first, atItems⟩ := settled.groups g inside
    obtain ⟨c', first', atItems'⟩ := settled'.groups h inside'
    rw [firstFit?_same preposition items, first'] at first
    cases first
    refine Prod.ext preposition.text (map_eq_map_of_forall₂ items fun p inItems q inItems' samePhrase => ?_)
    exact canonicalText_same samePhrase (atItems p inItems) (atItems' q inItems')
  suffix := by
    have suffix := same.suffix
    show r.suffix.map _ = s.suffix.map _
    generalize r.suffix = o at suffix
    generalize s.suffix = o' at suffix
    cases suffix with
    | none => rfl
    | some sameWord => exact congrArg some sameWord.text

end Satzbau

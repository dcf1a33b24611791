import Satzbau.Proofs.Parsing.Continued
import Satzbau.Proofs.Repeating.Spelling
import Satzbau.Proofs.Signature.Shape

namespace Satzbau

/-- The same phrase, wherever it stands. -/
structure NounPhrase.Same (p q : NounPhrase) : Prop where
  noun : p.noun.Same q.noun
  determiner : Option.Rel Token.Same p.determiner q.determiner

/-- The same roles of the same verb, wherever they stand. -/
structure Roles.Same (r s : Roles) : Prop where
  verb : r.verb.Same s.verb
  object : r.object.Related NounPhrase.Same s.object
  groups : List.Forall₂ (fun g h => g.preposition.Same h.preposition ∧ List.Forall₂ NounPhrase.Same g.items h.items)
    r.groups s.groups
  suffix : Option.Rel Token.Same r.suffix s.suffix

/-- A phrase with a definite or an indefinite article. -/
def NounPhrase.HasArticle (p : NounPhrase) : Prop :=
  ∃ d, p.determiner = some d ∧ (d.kind = .determiner .definite ∨ d.kind = .determiner .indefinite)

theorem Mark.reads_word {t : Token} {marks : List Mark} {tokens : List Token}
    (reads : List.Forall₂ Reads (word t :: marks) tokens) :
    ∃ u later, tokens = u :: later ∧ t.Same u ∧ List.Forall₂ Reads marks later := by
  obtain ⟨u, later, read, others, rfl⟩ := List.forall₂_cons_left_iff.mp reads
  cases read with
  | word same => exact ⟨u, later, rfl, same, others⟩

theorem Mark.reads_comma {marks : List Mark} {tokens : List Token} (reads : List.Forall₂ Reads (comma :: marks) tokens) :
    ∃ u later, tokens = u :: later ∧ u.kind = .comma ∧ List.Forall₂ Reads marks later := by
  obtain ⟨u, later, read, others, rfl⟩ := List.forall₂_cons_left_iff.mp reads
  cases read with
  | comma kind => exact ⟨u, later, rfl, kind, others⟩

theorem Mark.reads_phrase {p : NounPhrase} (article : p.HasArticle) {marks : List Mark} {tokens : List Token}
    (reads : List.Forall₂ Reads (ofPhrase p ++ marks) tokens) :
    ∃ d n later, tokens = d :: n :: later ∧ (d.kind = .determiner .definite ∨ d.kind = .determiner .indefinite) ∧
      (∀ id, p.Same ⟨id, some d, n⟩) ∧ List.Forall₂ Reads marks later := by
  obtain ⟨determiner, written, kind⟩ := article
  rw [ofPhrase, written] at reads
  obtain ⟨d, others, rfl, sameDeterminer, reads⟩ := reads_word reads
  obtain ⟨n, later, rfl, sameNoun, reads⟩ := reads_word reads
  refine ⟨d, n, later, rfl, sameDeterminer.kind ▸ kind, fun _ => ⟨sameNoun, ?_⟩, reads⟩
  rw [written]
  exact .some sameDeterminer

/-- Roles begin with a determiner. -/
theorem Mark.reads_items {items : List NounPhrase} (nonempty : items ≠ []) (articles : ∀ p ∈ items, p.HasArticle)
    {marks : List Mark} {tokens : List Token} (reads : List.Forall₂ Reads (ofItems items ++ marks) tokens) :
    ∃ d others, tokens = d :: others ∧ d.determiner?.isSome = true := by
  cases items with
  | nil => contradiction
  | cons p later =>
    have begins : ∃ behind, ofItems (p :: later) ++ marks = ofPhrase p ++ behind := by
      cases later with
      | nil => exact ⟨marks, rfl⟩
      | cons q others => exact ⟨comma :: ofItems (q :: others) ++ marks, List.append_assoc ..⟩
    obtain ⟨behind, begins⟩ := begins
    rw [begins] at reads
    obtain ⟨d, n, others, rfl, kind, _, _⟩ := reads_phrase (articles p (List.mem_cons_self ..)) reads
    refine ⟨d, n :: others, rfl, ?_⟩
    unfold Token.determiner?
    rcases kind with kind | kind
    · rw [kind]
      rfl
    · rw [kind]
      rfl

/-- A role without a value. -/
def Argument.bare (p : NounPhrase) : Argument :=
  ⟨p, none⟩

/-- The call with some roles and without values. -/
def Roles.call (r : Roles) (id : NodeId) : Call :=
  ⟨id, r.verb, r.object.map Argument.bare, r.groups.map (.map Argument.bare), r.suffix⟩

theorem Roles.roles_call (r : Roles) (id : NodeId) : (r.call id).roles = r := by
  have groups : (r.groups.map (PrepositionGroup.map Argument.bare)).map (.map Argument.phrase) = r.groups := by
    rw [List.map_map]
    refine List.map_id'' (fun g => ?_) r.groups
    show PrepositionGroup.mk g.preposition ((g.items.map Argument.bare).map Argument.phrase) = g
    rw [List.map_map]
    exact congrArg (PrepositionGroup.mk g.preposition) (List.map_id g.items)
  have object : (r.object.map Argument.bare).map Argument.phrase = r.object := by
    cases r.object <;> rfl
  show Roles.mk r.verb ((r.object.map Argument.bare).map Argument.phrase)
    ((r.groups.map (PrepositionGroup.map Argument.bare)).map (.map Argument.phrase)) r.suffix = r
  rw [groups, object]

namespace Parser

variable {scope : Scope} {id : NodeId} {token : Token} {rest : List (Except Diagnostic Token)}

theorem within_run {α : Type} (construct : Construct) (p : Parser α) (s : State) :
    within construct p scope s = p { scope with around := construct :: scope.around } s := rfl

theorem at?_cons (kind : TokenKind) :
    at? kind scope ⟨.ok token :: rest, id⟩ = .ok (token.kind == kind, ⟨.ok token :: rest, id⟩) := rfl

theorem expect_cons {kind : TokenKind} (there : token.kind = kind) (expected : String) :
    expect kind expected scope ⟨.ok token :: rest, id⟩ = .ok (token, ⟨rest, id⟩) := by
  unfold expect
  rw [bind_ok (at?_cons kind), if_pos (beq_iff_eq.mpr there)]
  rfl

theorem eat_cons {kind : TokenKind} (there : token.kind = kind) :
    eat kind scope ⟨.ok token :: rest, id⟩ = .ok (true, ⟨rest, id⟩) := by
  unfold eat
  rw [bind_ok (at?_cons kind), if_pos (beq_iff_eq.mpr there)]
  rfl

theorem eat_cons_other {kind : TokenKind} (other : token.kind ≠ kind) :
    eat kind scope ⟨.ok token :: rest, id⟩ = .ok (false, ⟨.ok token :: rest, id⟩) := by
  unfold eat
  rw [bind_ok (at?_cons kind), if_neg (mt beq_iff_eq.mp other)]
  rfl

theorem expectDeterminer_cons {kind : Determiner} (there : token.kind = .determiner kind) :
    expectDeterminer scope ⟨.ok token :: rest, id⟩ = .ok ((token, kind), ⟨rest, id⟩) := by
  have isDeterminer : token.determiner? = some kind := by
    rw [Token.determiner?, there]
    rfl
  have seen : peek scope ⟨.ok token :: rest, id⟩ = .ok (token, ⟨.ok token :: rest, id⟩) := rfl
  unfold expectDeterminer
  rw [bind_ok seen, isDeterminer]
  rfl

/-- Tokens and the end of their line. -/
def closedBy (lineEnd : Token) (tokens : List Token) : List (Except Diagnostic Token) :=
  (tokens ++ [lineEnd]).map .ok

/-- What can follow a role that has no value. -/
def FollowsRole (kind : TokenKind) : Prop :=
  kind = .comma ∨ kind.introducesGroup ∨ kind = .lineEnd

theorem FollowsRole.determiner? {token : Token} (follows : FollowsRole token.kind) : token.determiner? = none := by
  unfold Token.determiner?
  rcases follows with kind | (kind | kind | kind) | kind <;> rw [kind] <;> rfl

theorem FollowsRole.beginsValue {token : Token} (follows : FollowsRole token.kind) :
    Parser.beginsValue token.kind = false := by
  rcases follows with kind | (kind | kind | kind) | kind <;> rw [kind] <;> rfl

theorem argument_reads {inner : Inner} {d n : Token}
    (article : d.kind = .determiner .definite ∨ d.kind = .determiner .indefinite) (isNoun : n.kind = .noun)
    (follows : FollowsRole token.kind) :
    argument inner scope ⟨.ok d :: .ok n :: .ok token :: rest, id⟩ =
      .ok (Argument.bare ⟨id, some d, n⟩, ⟨.ok token :: rest, id + 1⟩) := by
  have notOwner (scope : Scope) : atOwner scope ⟨.ok token :: rest, id⟩ = .ok (false, ⟨.ok token :: rest, id⟩) := by
    show Except.ok (token.determiner?.isSome && Determiner.opensOwner token.text, _) = _
    rw [follows.determiner?]
    rfl
  have noValue (scope : Scope) : (do
      let role ← nounPhrase (some d) n
      if beginsValue (← peek).kind then return ⟨role, some (← inner.expression 0)⟩
      return ⟨role, none⟩ : Parser Argument) scope ⟨.ok token :: rest, id⟩ =
      .ok (Argument.bare ⟨id, some d, n⟩, ⟨.ok token :: rest, id + 1⟩) := by
    have seen : peek scope ⟨.ok token :: rest, id + 1⟩ = .ok (token, ⟨.ok token :: rest, id + 1⟩) := rfl
    have named : nounPhrase (some d) n scope ⟨.ok token :: rest, id⟩ =
        .ok (⟨id, some d, n⟩, ⟨.ok token :: rest, id + 1⟩) := rfl
    rw [bind_ok named, bind_ok seen, follows.beginsValue]
    rfl
  unfold argument
  rw [within_run]
  rcases article with definite | indefinite
  · have unowned (scope : Scope) (s : State) : requireOwner d .definite scope s = .ok ((), s) := rfl
    rw [bind_ok (expectDeterminer_cons definite)]
    dsimp only
    rw [if_neg (by decide), bind_ok (unowned _ _), expectNoun, bind_ok (expect_cons isNoun _), if_pos rfl,
      bind_ok (notOwner _), if_neg Bool.false_ne_true]
    exact noValue _
  · have unowned (scope : Scope) (s : State) : requireOwner d .indefinite scope s = .ok ((), s) := rfl
    rw [bind_ok (expectDeterminer_cons indefinite)]
    dsimp only
    rw [if_neg (by decide), bind_ok (unowned _ _), expectNoun, bind_ok (expect_cons isNoun _), if_neg (by decide)]
    exact noValue _

/-- Whether no more roles of a preposition or an object follow. -/
def EndsRoles (marks : List Mark) : Prop :=
  ∀ m ∈ marks.head?, ∃ t, m = .word t ∧ t.kind.introducesGroup

/-- A role or its group ends at the end of a line, or where a word introduces what follows. -/
theorem EndsRoles.front {marks : List Mark} (ends : EndsRoles marks) {tokens : List Token}
    (reads : List.Forall₂ Mark.Reads marks tokens) {lineEnd : Token} (atEnd : lineEnd.kind = .lineEnd) :
    ∃ token rest, closedBy lineEnd tokens = .ok token :: rest ∧ (token.kind.introducesGroup ∨ token.kind = .lineEnd) := by
  cases reads with
  | nil => exact ⟨lineEnd, [], rfl, Or.inr atEnd⟩
  | cons first others =>
    obtain ⟨t, rfl, introduces⟩ := ends _ rfl
    cases first with
    | word same => exact ⟨_, _, rfl, Or.inl (same.kind ▸ introduces)⟩

/-- Roles that are separated by commas are read as arguments without values. -/
theorem arguments_reads {items : List NounPhrase} (nonempty : items ≠ [])
    (articles : ∀ p ∈ items, p.HasArticle) (nouns : ∀ p ∈ items, p.noun.kind = .noun) {marks : List Mark}
    (ends : EndsRoles marks) {tokens : List Token}
    (reads : List.Forall₂ Mark.Reads (Mark.ofItems items ++ marks) tokens) {lineEnd : Token}
    (atEnd : lineEnd.kind = .lineEnd) :
    ∃ found later next, List.Forall₂ NounPhrase.Same items found ∧ List.Forall₂ Mark.Reads marks later ∧
      ∀ size, (Mark.ofItems items).length ≤ size → arguments (inner size) scope ⟨closedBy lineEnd tokens, id⟩ =
        .ok (found.map Argument.bare, ⟨closedBy lineEnd later, next⟩) := by
  induction items generalizing tokens id with
  | nil => contradiction
  | cons p later ih =>
    have article := articles p (List.mem_cons_self ..)
    have isNoun := nouns p (List.mem_cons_self ..)
    cases later with
    | nil =>
      obtain ⟨d, n, others, rfl, kind, same, reads⟩ := Mark.reads_phrase article reads
      obtain ⟨token, rest, front, follows⟩ := ends.front reads atEnd
      have notComma : token.kind ≠ .comma := by
        rcases follows with (kind | kind | kind) | kind <;> simp [kind]
      refine ⟨[⟨id, some d, n⟩], others, id + 1, .cons (same id) .nil, reads, fun size _ => ?_⟩
      have first := @argument_reads scope id token rest (inner size) d n kind ((same id).noun.kind ▸ isNoun) (Or.inr follows)
      unfold arguments
      show (argument (inner size) >>= _) scope ⟨.ok d :: .ok n :: closedBy lineEnd others, id⟩ = _
      rw [front, bind_ok first, bind_ok (eat_cons_other notComma)]
      rfl
    | cons q others =>
      rw [Mark.ofItems, List.append_assoc, List.cons_append] at reads
      obtain ⟨d, n, behind, rfl, kind, same, reads⟩ := Mark.reads_phrase article reads
      obtain ⟨comma, behind, rfl, isComma, reads⟩ := Mark.reads_comma reads
      obtain ⟨found, left, next, sameItems, readsLeft, run⟩ := @ih (id + 1) (List.cons_ne_nil _ _)
        (fun r inside => articles r (List.mem_cons_of_mem _ inside))
        (fun r inside => nouns r (List.mem_cons_of_mem _ inside)) behind reads
      refine ⟨⟨id, some d, n⟩ :: found, left, next, .cons (same id) sameItems, readsLeft, fun size fits => ?_⟩
      simp only [Mark.ofItems, List.length_append, List.length_cons] at fits
      cases size with
      | zero => contradiction
      | succ size =>
        have first := @argument_reads scope id comma (closedBy lineEnd behind) (inner (size + 1)) d n kind
          ((same id).noun.kind ▸ isNoun) (Or.inl isComma)
        unfold arguments
        show (argument (inner (size + 1)) >>= _) scope
          ⟨.ok d :: .ok n :: .ok comma :: closedBy lineEnd behind, id⟩ = _
        rw [bind_ok first, bind_ok (eat_cons isComma), if_pos rfl]
        exact bind_ok (run size (by omega))

theorem atPreposition_cons {first second : Token} (introduces : first.kind.introducesGroup) :
    atPreposition scope ⟨.ok first :: .ok second :: rest, id⟩ =
      .ok (second.determiner?.isSome, ⟨.ok first :: .ok second :: rest, id⟩) := by
  have seen : peek scope ⟨.ok first :: .ok second :: rest, id⟩ =
      .ok (first, ⟨.ok first :: .ok second :: rest, id⟩) := rfl
  unfold atPreposition
  rw [bind_ok seen]
  rcases introduces with kind | kind | kind
  · rw [kind]
    rfl
  · rw [kind]
    rfl
  · rw [kind]
    rfl

theorem atPreposition_lineEnd (kind : token.kind = .lineEnd) :
    atPreposition scope ⟨.ok token :: rest, id⟩ = .ok (false, ⟨.ok token :: rest, id⟩) := by
  have seen : peek scope ⟨.ok token :: rest, id⟩ = .ok (token, ⟨.ok token :: rest, id⟩) := rfl
  unfold atPreposition
  rw [bind_ok seen, kind]
  rfl

/-- The parts of the line of a call as they have to be for it to be read. -/
structure Readable (g : PrepositionGroup NounPhrase) : Prop where
  introduces : g.preposition.kind.introducesGroup
  nonempty : g.items ≠ []
  articles : ∀ p ∈ g.items, p.HasArticle
  nouns : ∀ p ∈ g.items, p.noun.kind = .noun

theorem endsRoles_groups {gs : List (PrepositionGroup NounPhrase)} (readable : ∀ g ∈ gs, Readable g)
    {suffix : Option Token} (isSuffix : ∀ t ∈ suffix, t.kind = .word) :
    EndsRoles (gs.flatMap Mark.ofGroup ++ suffix.toList.map .word) := by
  intro m front
  cases gs with
  | nil =>
    cases suffix with
    | none => contradiction
    | some t =>
      cases front
      exact ⟨t, rfl, Or.inl (isSuffix t rfl)⟩
  | cons g later =>
    cases front
    exact ⟨g.preposition, rfl, (readable g (List.mem_cons_self ..)).introduces⟩

/-- Groups are read up to a suffix or the end of the line. -/
theorem groups_reads {gs : List (PrepositionGroup NounPhrase)} (readable : ∀ g ∈ gs, Readable g)
    {suffix : Option Token} (isSuffix : ∀ t ∈ suffix, t.kind = .word) {tokens : List Token}
    (reads : List.Forall₂ Mark.Reads (gs.flatMap Mark.ofGroup ++ suffix.toList.map .word) tokens) {lineEnd : Token}
    (atEnd : lineEnd.kind = .lineEnd) :
    ∃ found later next,
      List.Forall₂ (fun g h => g.preposition.Same h.preposition ∧ List.Forall₂ NounPhrase.Same g.items h.items) gs found ∧
      List.Forall₂ Mark.Reads (suffix.toList.map .word) later ∧
      ∀ size, (gs.flatMap Mark.ofGroup).length ≤ size → groups (inner size) scope ⟨closedBy lineEnd tokens, id⟩ =
        .ok (found.map (.map Argument.bare), ⟨closedBy lineEnd later, next⟩) := by
  induction gs generalizing tokens id with
  | nil =>
    refine ⟨[], tokens, id, .nil, reads, fun size _ => ?_⟩
    have notGroup : atPreposition scope ⟨closedBy lineEnd tokens, id⟩ = .ok (false, ⟨closedBy lineEnd tokens, id⟩) := by
      cases suffix with
      | none =>
        cases reads
        exact atPreposition_lineEnd atEnd
      | some t =>
        obtain ⟨u, _, rfl, same, rest⟩ := Mark.reads_word reads
        cases rest
        have notDeterminer : lineEnd.determiner? = none := FollowsRole.determiner? (Or.inr (Or.inr atEnd))
        have answer := @atPreposition_cons scope id [] u lineEnd (Or.inl (same.kind ▸ isSuffix t rfl))
        rw [notDeterminer] at answer
        exact answer
    unfold groups
    rw [bind_ok notGroup]
    rfl
  | cons g later ih =>
    have here := readable g (List.mem_cons_self ..)
    have atLater : ∀ h ∈ later, Readable h := fun h inside => readable h (List.mem_cons_of_mem _ inside)
    rw [List.flatMap_cons, List.append_assoc, Mark.ofGroup, List.cons_append] at reads
    obtain ⟨preposition, behind, rfl, same, reads⟩ := Mark.reads_word reads
    have introduces : preposition.kind.introducesGroup := same.kind ▸ here.introduces
    obtain ⟨items, left, next, sameItems, readsLeft, runItems⟩ :=
      @arguments_reads scope id g.items here.nonempty here.articles here.nouns _ (endsRoles_groups atLater isSuffix)
        behind reads lineEnd atEnd
    obtain ⟨d, others, rfl, isDeterminer⟩ := Mark.reads_items here.nonempty here.articles reads
    obtain ⟨found, last, next', sameGroups, readsLast, runLater⟩ := @ih next atLater left readsLeft
    refine ⟨⟨preposition, items⟩ :: found, last, next', .cons ⟨same, sameItems⟩ sameGroups, readsLast,
      fun size fits => ?_⟩
    simp only [List.flatMap_cons, Mark.ofGroup, List.cons_append, List.length_cons, List.length_append] at fits
    cases size with
    | zero => contradiction
    | succ size =>
      have atGroup := @atPreposition_cons scope id (closedBy lineEnd others) preposition d introduces
      have taken : advance scope ⟨closedBy lineEnd (preposition :: d :: others), id⟩ =
          .ok (preposition, ⟨closedBy lineEnd (d :: others), id⟩) := rfl
      unfold groups
      show (atPreposition >>= _) scope ⟨.ok preposition :: .ok d :: closedBy lineEnd others, id⟩ = _
      rw [bind_ok atGroup, isDeterminer, if_pos rfl]
      show (advance >>= _) scope ⟨closedBy lineEnd (preposition :: d :: others), id⟩ = _
      rw [bind_ok taken, bind_ok (runItems (size + 1) (by omega))]
      exact bind_ok (runLater size (by omega))

/-- An object is read up to the first preposition, a suffix or the end of the line. -/
theorem callObject_reads {object : ObjectRole NounPhrase}
    (notReflexive : ∀ token, object ≠ .reflexive token) (articles : ∀ p ∈ object.toList, p.HasArticle)
    (nouns : ∀ p ∈ object.toList, p.noun.kind = .noun) {marks : List Mark} (ends : EndsRoles marks) {tokens : List Token}
    (reads : List.Forall₂ Mark.Reads (Mark.ofObject object ++ marks) tokens) {lineEnd : Token}
    (atEnd : lineEnd.kind = .lineEnd) :
    ∃ found later next, object.Related NounPhrase.Same found ∧ List.Forall₂ Mark.Reads marks later ∧
      ∀ inner, callObject inner scope ⟨closedBy lineEnd tokens, id⟩ =
        .ok (found.map Argument.bare, ⟨closedBy lineEnd later, next⟩) := by
  cases object with
  | reflexive token => exact absurd rfl (notReflexive token)
  | absent =>
    refine ⟨.absent, tokens, id, .absent, reads, fun inner => ?_⟩
    obtain ⟨token, rest, front, kind⟩ := ends.front reads atEnd
    have seen : peek scope ⟨.ok token :: rest, id⟩ = .ok (token, ⟨.ok token :: rest, id⟩) := rfl
    unfold callObject
    rw [front, bind_ok seen]
    rcases kind with (kind | kind | kind) | kind <;> rw [kind] <;> rfl
  | thing p =>
    obtain ⟨d, n, others, rfl, kind, same, reads⟩ := Mark.reads_phrase (articles p (List.mem_singleton_self p)) reads
    refine ⟨.thing ⟨id, some d, n⟩, others, id + 1, .thing (same id), reads, fun inner => ?_⟩
    obtain ⟨token, rest, front, follows⟩ := ends.front reads atEnd
    have isNoun : n.kind = .noun := (same id).noun.kind ▸ nouns p (List.mem_singleton_self p)
    have run := @argument_reads scope id token rest inner d n kind isNoun (Or.inr follows)
    have seen (items : List (Except Diagnostic Token)) :
        peek scope ⟨.ok d :: items, id⟩ = .ok (d, ⟨.ok d :: items, id⟩) := rfl
    unfold callObject
    show (peek >>= _) scope ⟨.ok d :: .ok n :: closedBy lineEnd others, id⟩ = _
    rw [front, bind_ok (seen _)]
    rcases kind with kind | kind
    · rw [kind]
      exact bind_ok run
    · rw [kind]
      exact bind_ok run

theorem optionalWord_reads {suffix : Option Token} (isSuffix : ∀ t ∈ suffix, t.kind = .word) {tokens : List Token}
    (reads : List.Forall₂ Mark.Reads (suffix.toList.map .word) tokens) {lineEnd : Token}
    (atEnd : lineEnd.kind = .lineEnd) :
    ∃ found, Option.Rel Token.Same suffix found ∧
      optionalWord scope ⟨closedBy lineEnd tokens, id⟩ = .ok (found, ⟨[.ok lineEnd], id⟩) := by
  unfold optionalWord
  cases suffix with
  | none =>
    cases reads
    have notWord : ¬(lineEnd.kind == .word) = true := by simp [atEnd]
    refine ⟨none, .none, ?_⟩
    show (at? .word >>= _) scope ⟨.ok lineEnd :: [], id⟩ = _
    rw [bind_ok (at?_cons .word), if_neg notWord]
    rfl
  | some t =>
    obtain ⟨u, others, rfl, same, nothing⟩ := Mark.reads_word reads
    cases nothing
    have isWord : (u.kind == .word) = true := by simp [← same.kind, isSuffix t rfl]
    refine ⟨some u, .some same, ?_⟩
    show (at? .word >>= _) scope ⟨.ok u :: [.ok lineEnd], id⟩ = _
    rw [bind_ok (at?_cons .word), if_pos isWord]
    rfl

end Parser

/-- Roles that can be written as the line of a call without values. -/
structure Roles.Readable (r : Roles) : Prop where
  verb : r.verb.kind = .word
  notReflexive : ∀ token, r.object ≠ .reflexive token
  articles : ∀ p ∈ r.object.toList, p.HasArticle
  nouns : ∀ p ∈ r.object.toList, p.noun.kind = .noun
  groups : ∀ g ∈ r.groups, Parser.Readable g
  suffix : ∀ t ∈ r.suffix, t.kind = .word

namespace Parser

variable {scope : Scope} {id : NodeId}

theorem call_reads {r : Roles} (readable : r.Readable) {verb : Token} (isVerb : r.verb.Same verb) {tokens : List Token}
    (reads : List.Forall₂ Mark.Reads r.marks tokens) {lineEnd : Token} (atEnd : lineEnd.kind = .lineEnd) :
    ∃ found next, r.Same found ∧ ∀ size, r.marks.length ≤ size →
      call (inner size) scope ⟨closedBy lineEnd (verb :: tokens), id⟩ = .ok (found.call id, ⟨[.ok lineEnd], next⟩) := by
  obtain ⟨object, left, next, sameObject, reads, runObject⟩ :=
    @callObject_reads { scope with around := .call :: scope.around } (id + 1) r.object readable.notReflexive
      readable.articles readable.nouns _ (endsRoles_groups readable.groups readable.suffix) tokens reads lineEnd atEnd
  obtain ⟨groups, last, next', sameGroups, reads, runGroups⟩ :=
    @groups_reads { scope with around := .call :: scope.around } next r.groups readable.groups r.suffix readable.suffix
      left reads lineEnd atEnd
  obtain ⟨suffix, sameSuffix, runSuffix⟩ :=
    @optionalWord_reads { scope with around := .call :: scope.around } next' r.suffix readable.suffix last reads lineEnd
      atEnd
  refine ⟨⟨verb, object, groups, suffix⟩, next', ⟨isVerb, sameObject, sameGroups, sameSuffix⟩, fun size fits => ?_⟩
  have few : (r.groups.flatMap Mark.ofGroup).length ≤ size := by
    simp only [Roles.marks, List.length_append] at fits
    omega
  have fresh : freshId { scope with around := .call :: scope.around } ⟨closedBy lineEnd (verb :: tokens), id⟩ =
      .ok (id, ⟨.ok verb :: closedBy lineEnd tokens, id + 1⟩) := rfl
  unfold call
  rw [within_run, bind_ok fresh, expectVerb, bind_ok (expect_cons (isVerb.kind ▸ readable.verb) _),
    bind_ok (runObject _), bind_ok (runGroups size few), bind_ok runSuffix]
  rfl

/-- A call is an expression of its own where its line ends. -/
theorem expression_reads {r : Roles} (readable : r.Readable) {verb : Token} (isVerb : r.verb.Same verb)
    {tokens : List Token} (reads : List.Forall₂ Mark.Reads r.marks tokens) {lineEnd : Token}
    (atEnd : lineEnd.kind = .lineEnd) :
    ∃ found next, r.Same found ∧ ∀ size, r.marks.length ≤ size →
      expression (inner size) scope ⟨closedBy lineEnd (verb :: tokens), id⟩ =
        .ok (.call (found.call id), ⟨[.ok lineEnd], next⟩) := by
  obtain ⟨found, next, same, runCall⟩ :=
    @call_reads { scope with around := .binary :: scope.around } id r readable verb isVerb tokens reads lineEnd atEnd
  refine ⟨found, next, same, fun size fits => ?_⟩
  have isWord : verb.kind = .word := isVerb.kind ▸ readable.verb
  have seen (scope : Scope) : peek scope ⟨closedBy lineEnd (verb :: tokens), id⟩ =
      .ok (verb, ⟨closedBy lineEnd (verb :: tokens), id⟩) := rfl
  have behind (scope : Scope) : peek scope ⟨[.ok lineEnd], next⟩ = .ok (lineEnd, ⟨[.ok lineEnd], next⟩) := rfl
  have notOperator : verb.operator? = none := by
    rw [Token.operator?, isWord]
    rfl
  have notMinus : ¬verb.operator? = some .minus := by simp [notOperator]
  have notConverted : ¬(lineEnd.kind == .keyword .convert) = true := by simp [atEnd]
  have noOperator : lineEnd.operator? = none := by
    rw [Token.operator?, atEnd]
    rfl
  have runPrimary : primary (inner size) { scope with around := .binary :: scope.around }
      ⟨closedBy lineEnd (verb :: tokens), id⟩ = .ok (.call (found.call id), ⟨[.ok lineEnd], next⟩) := by
    unfold primary
    rw [bind_ok (seen _), isWord]
    exact bind_ok (runCall size fits)
  have runOperand : operand (inner size) { scope with around := .binary :: scope.around }
      ⟨closedBy lineEnd (verb :: tokens), id⟩ = .ok (.call (found.call id), ⟨[.ok lineEnd], next⟩) := by
    unfold operand
    rw [bind_ok (seen _), if_neg notMinus, bind_ok runPrimary, conversions, atKeyword, bind_ok (at?_cons _),
      if_neg notConverted]
    rfl
  unfold expression binary
  rw [within_run, bind_ok runOperand, operators, bind_ok (behind _), noOperator]
  rfl

/-- The line of a call is a program with one statement. -/
theorem program_reads {r : Roles} (readable : r.Readable) {verb : Token} (isVerb : r.verb.Same verb)
    {tokens : List Token} (reads : List.Forall₂ Mark.Reads r.marks tokens) {lineEnd : Token}
    (atLineEnd : lineEnd.kind = .lineEnd) (atEnd : scope.fileEnd.kind = .fileEnd) :
    ∃ found u, r.Same found ∧ ∀ size, r.marks.length < size →
      program (inner size) scope ⟨closedBy lineEnd (verb :: tokens), id⟩ = .ok (⟨[], [.call (found.call id)]⟩, u) := by
  have isWord : verb.kind = .word := isVerb.kind ▸ readable.verb
  have seen (scope : Scope) : peek scope ⟨closedBy lineEnd (verb :: tokens), id⟩ =
      .ok (verb, ⟨closedBy lineEnd (verb :: tokens), id⟩) := rfl
  obtain ⟨found, next, same, runExpression⟩ :=
    @expression_reads scope id r readable verb isVerb tokens reads lineEnd atLineEnd
  refine ⟨found, ⟨[], next⟩, same, fun size fits => ?_⟩
  have runStatement : statement (inner size) scope ⟨closedBy lineEnd (verb :: tokens), id⟩ =
      .ok (.call (found.call id), ⟨[.ok lineEnd], next⟩) := by
    have notColon : ¬(lineEnd.kind == .colon) = true := by simp [atLineEnd]
    unfold statement
    rw [bind_ok (seen _), isWord]
    show (expression (inner size) >>= _) scope _ = _
    rw [bind_ok (runExpression size (Nat.le_of_lt fits)), finishStatement, bind_ok (at?_cons .colon), if_neg notColon]
    rfl
  have ended : endStatement .fileEnd scope ⟨[.ok lineEnd], next⟩ = .ok ((), ⟨[], next⟩) :=
    endStatement_at_lineEnd rfl atLineEnd
  have runRest : (inner size).program scope ⟨[], next⟩ = .ok (.empty, ⟨[], next⟩) := by
    cases size with
    | zero => contradiction
    | succ size =>
      have nothing : skipLineEnds scope ⟨[], next⟩ = .ok ((), ⟨[], next⟩) := rfl
      have last : peek scope ⟨[], next⟩ = .ok (scope.fileEnd, ⟨[], next⟩) := rfl
      show program (inner size) scope ⟨[], next⟩ = _
      unfold program
      rw [bind_ok nothing, bind_ok last, atEnd]
      rfl
  have stays : State.skipped ⟨closedBy lineEnd (verb :: tokens), id⟩ = ⟨closedBy lineEnd (verb :: tokens), id⟩ := by
    have notLineEnd : ¬isLineEnd (.ok verb) = true := by simp [isLineEnd, isWord]
    show State.mk ((.ok verb :: closedBy lineEnd tokens).dropWhile isLineEnd) id = _
    rw [List.dropWhile_cons_of_neg notLineEnd]
    rfl
  have skipped := @skipLineEnds_ok scope ⟨closedBy lineEnd (verb :: tokens), id⟩ verb (stays.symm ▸ seen scope)
  rw [stays] at skipped
  unfold program
  rw [bind_ok skipped, bind_ok (seen scope), isWord]
  show (statement (inner size) >>= _) scope _ = _
  rw [bind_ok runStatement, bind_ok ended]
  exact bind_ok runRest

end Parser

end Satzbau

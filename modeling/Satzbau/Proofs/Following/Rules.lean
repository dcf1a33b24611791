import Satzbau.Proofs.Parsing.ExtendedExpressions

namespace Satzbau.Parser

variable {α β : Type}

/-- Two tokens that cannot be told apart without being taken: they are the same, or each of them opens
a declension. -/
def Alike (token token' : Token) : Prop :=
  token = token' ∨ token.kind = .keyword .declension ∧ token'.kind = .keyword .declension

theorem Alike.kind {token token' : Token} (alike : Alike token token') : token.kind = token'.kind := by
  obtain rfl | ⟨opens, opens'⟩ := alike
  · rfl
  · rw [opens, opens']

theorem Alike.determiner? {token token' : Token} (alike : Alike token token') :
    token.determiner? = token'.determiner? := by
  rw [Token.determiner?, Token.determiner?, alike.kind]

theorem Alike.operator? {token token' : Token} (alike : Alike token token') : token.operator? = token'.operator? := by
  rw [Token.operator?, Token.operator?, alike.kind]

theorem Alike.isKeyword {token token' : Token} (alike : Alike token token') (k : Keyword) :
    token.isKeyword k = token'.isKeyword k := by
  rw [Token.isKeyword, Token.isKeyword, alike.kind]

theorem Alike.eq {token token' : Token} (alike : Alike token token') (other : token.kind ≠ .keyword .declension) :
    token = token' :=
  alike.resolve_right fun both => other both.1

theorem other_of_determiner {token : Token} {kind : Determiner} (isDeterminer : token.determiner? = some kind) :
    token.kind ≠ .keyword .declension := by
  intro opens
  rw [Token.determiner?, opens] at isDeterminer
  contradiction

theorem other_of_operator {token : Token} {operator : Operator} (isOperator : token.operator? = some operator) :
    token.kind ≠ .keyword .declension := by
  intro opens
  rw [Token.operator?, opens] at isOperator
  contradiction

theorem other_of_assigns {token : Token} (assigns : Assigns token) : token.kind ≠ .keyword .declension := by
  intro opens
  rcases assigns with kind | kind <;> rw [opens] at kind <;> contradiction

theorem other_of_introduces {token : Token} (introduces : token.kind.introducesGroup) :
    token.kind ≠ .keyword .declension := by
  intro opens
  rw [opens] at introduces
  rcases introduces with other | other | other <;> contradiction

/-- How two inputs begin that are the same up to the next declension. -/
inductive Front (R : List (Except Diagnostic Token) → List (Except Diagnostic Token) → Prop) :
    List (Except Diagnostic Token) → List (Except Diagnostic Token) → Prop
  | none : Front R [] []
  | declension {token token' : Token} {later later' : List (Except Diagnostic Token)}
    (opens : token.kind = .keyword .declension) (opens' : token'.kind = .keyword .declension) :
    Front R (.ok token :: later) (.ok token' :: later')
  | same {item : Except Diagnostic Token} {later later' : List (Except Diagnostic Token)} (behind : R later later') :
    Front R (item :: later) (item :: later')

/-- A relation of inputs that differ only from where a declension opens. -/
def Matching (R : List (Except Diagnostic Token) → List (Except Diagnostic Token) → Prop) : Prop :=
  ∀ items items', R items items' → Front R items items'

variable {R : List (Except Diagnostic Token) → List (Except Diagnostic Token) → Prop} {front : Token → Prop}

theorem Matching.peek {scope : Scope} {s t : State} {items' : List (Except Diagnostic Token)} {token : Token}
    (matching : Matching R) (related : R s.items items') (run : Parser.peek scope s = .ok (token, t)) :
    t = s ∧ ∃ token', Alike token token' ∧
      Parser.peek scope ⟨items', s.nextId⟩ = .ok (token', ⟨items', s.nextId⟩) := by
  obtain ⟨items, id⟩ := s
  cases matching _ _ related with
  | none =>
    cases run
    exact ⟨rfl, scope.fileEnd, Or.inl rfl, rfl⟩
  | @declension opening opening' _ _ opens opens' =>
    cases run
    exact ⟨rfl, opening', Or.inr ⟨opens, opens'⟩, rfl⟩
  | @same item _ _ behind =>
    cases item with
    | error fault => contradiction
    | ok token =>
      cases run
      exact ⟨rfl, token, Or.inl rfl, rfl⟩

/-- What `p` reads of an input, `q` reads of any that is related to it, and what they leave is related as
well. `front` is what is known of the token at the front. -/
def Follows (R : List (Except Diagnostic Token) → List (Except Diagnostic Token) → Prop) (front : Token → Prop)
    (p q : Parser α) : Prop :=
  ∀ scope s items' a t, R s.items items' → (∀ token, peek scope s = .ok (token, s) → front token) →
    p scope s = .ok (a, t) → ∃ rest', R t.items rest' ∧ q scope ⟨items', s.nextId⟩ = .ok (a, ⟨rest', t.nextId⟩)

namespace Follows

theorem run {p q : Parser α} (follows : Follows R (fun _ => True) p q) {scope : Scope} {s t : State}
    {items' : List (Except Diagnostic Token)} {a : α} (related : R s.items items') (reads : p scope s = .ok (a, t)) :
    ∃ rest', R t.items rest' ∧ q scope ⟨items', s.nextId⟩ = .ok (a, ⟨rest', t.nextId⟩) :=
  follows scope s items' a t related (fun _ _ => trivial) reads

theorem pure (a : α) : Follows R front (Pure.pure a : Parser α) (Pure.pure a) := by
  intro scope s items' b t related _ run
  cases run
  exact ⟨items', related, rfl⟩

theorem throw {q : Parser α} (fault : Diagnostic) : Follows R front (throw fault) q := by
  intro scope s items' a t _ _ run
  contradiction

theorem fail {f : β → Parser α} {q : Parser α} (fault : Diagnostic) :
    Follows R front (MonadExcept.throw fault >>= f) q := by
  intro scope s items' a t _ _ run
  contradiction

theorem bind {p q : Parser β} {f g : β → Parser α} (first : Follows R front p q)
    (next : ∀ b, Follows R (fun _ => True) (f b) (g b)) : Follows R front (p >>= f) (q >>= g) := by
  intro scope s items' a t related atFront run
  obtain ⟨b, middle, runFirst, rest⟩ := bind_eq_ok run
  obtain ⟨middle', related', read⟩ := first scope s items' b middle related atFront runFirst
  rw [bind_ok read]
  exact next b scope middle middle' a t related' (fun _ _ => trivial) rest

/-- A look at the token at the front tells the parsers behind it the same. -/
theorem look {p : Parser β} {f g : β → Parser α} {knows : β → Token → Prop} (looks : Looks p knows)
    (first : Follows R front p p)
    (next : ∀ b, Follows R (fun token => front token ∧ knows b token) (f b) (g b)) :
    Follows R front (p >>= f) (p >>= g) := by
  intro scope s items' a t related atFront run
  obtain ⟨b, middle, runFirst, rest⟩ := bind_eq_ok run
  obtain ⟨middle', related', read⟩ := first scope s items' b middle related atFront runFirst
  obtain ⟨rfl, known⟩ := looks scope s b middle runFirst
  rw [bind_ok read]
  exact next b scope middle middle' a t related' (fun token seen => ⟨atFront token seen, known token seen⟩) rest

theorem read {f g : Scope → Parser α} (next : ∀ scope, Follows R front (f scope) (g scope)) :
    Follows R front (MonadReaderOf.read >>= f) (MonadReaderOf.read >>= g) := by
  intro scope s items' a t related atFront run
  obtain ⟨b, middle, runFirst, rest⟩ := bind_eq_ok run
  cases runFirst
  exact next scope scope s items' a t related atFront rest

theorem anywhere {p q : Parser α} (follows : Follows R (fun _ => True) p q) : Follows R front p q :=
  fun scope s items' a t related _ run => follows scope s items' a t related (fun _ _ => trivial) run

theorem map {p q : Parser β} (f : β → α) (follows : Follows R front p q) : Follows R front (f <$> p) (f <$> q) := by
  rw [map_eq_pure_bind, map_eq_pure_bind]
  exact bind follows fun b => pure (f b)

theorem within {p q : Parser α} (construct : Construct) (follows : Follows R front p q) :
    Follows R front (Parser.within construct p) (Parser.within construct q) :=
  fun scope s items' a t related atFront run =>
    follows { scope with around := construct :: scope.around } s items' a t related atFront run

theorem freshId : Follows R front freshId freshId := by
  intro scope s items' id t related _ run
  cases run
  exact ⟨items', related, rfl⟩

theorem nounPhrase (determiner : Option Token) (noun : Token) :
    Follows R front (nounPhrase determiner noun) (nounPhrase determiner noun) :=
  bind freshId fun _ => pure _

/-- Naming a phrase leaves the token at the front. -/
theorem name {determiner : Option Token} {noun : Token} {f g : NounPhrase → Parser α}
    (next : ∀ phrase, Follows R front (f phrase) (g phrase)) :
    Follows R front (Parser.nounPhrase determiner noun >>= f) (Parser.nounPhrase determiner noun >>= g) := by
  intro scope s items' a t related atFront run
  obtain ⟨phrase, middle, named, rest⟩ := bind_eq_ok run
  cases named
  refine next _ scope { s with nextId := s.nextId + 1 } items' a t related (fun token seen => atFront token ?_) rest
  obtain ⟨items, id⟩ := s
  cases items with
  | nil =>
    cases seen
    rfl
  | cons item later =>
    cases item with
    | error fault => contradiction
    | ok token =>
      cases seen
      rfl

theorem unexpected {expected : String} {q : Parser α} : Follows R front (unexpected expected) q := by
  intro scope s items' a t _ _ run
  obtain ⟨_, _, _, thrown⟩ := bind_eq_ok run
  contradiction

theorem unexpectedThen {expected : String} {f : β → Parser α} {q : Parser α} :
    Follows R front (Parser.unexpected expected >>= f) q := by
  intro scope s items' a t _ _ run
  obtain ⟨_, _, thrown, _⟩ := bind_eq_ok run
  obtain ⟨_, _, _, fails⟩ := bind_eq_ok thrown
  contradiction

theorem require (token : Token) (constructs : List Construct) (required : String) :
    Follows R front (require token constructs required) (require token constructs required) := by
  unfold Parser.require
  refine read fun scope => ?_
  split
  · exact throw _
  · exact pure _

theorem requireOwner (token : Token) (kind : Determiner) :
    Follows R front (requireOwner token kind) (requireOwner token kind) := by
  unfold Parser.requireOwner
  split
  · exact require token _ _
  · exact require token _ _
  · exact pure _

/-- The tokens at the two fronts are seen side by side. -/
theorem peek (matching : Matching R) {f g : Token → Parser α}
    (next : ∀ token token', Alike token token' →
      Follows R (fun other => front other ∧ other = token) (f token) (g token')) :
    Follows R front (Parser.peek >>= f) (Parser.peek >>= g) := by
  intro scope s items' a t related atFront run
  obtain ⟨token, middle, seen, rest⟩ := bind_eq_ok run
  obtain ⟨rfl, token', alike, seen'⟩ := matching.peek related seen
  rw [bind_ok seen']
  refine next token token' alike scope middle items' a t related (fun other again => ?_) rest
  rw [seen] at again
  cases again
  exact ⟨atFront token seen, rfl⟩

/-- Behind a token that opens no declension the tokens are seen side by side. -/
theorem peekSecond (matching : Matching R) (other : ∀ token, front token → token.kind ≠ .keyword .declension)
    {f g : Token → Parser α} (next : ∀ token token', Alike token token' → Follows R front (f token) (g token')) :
    Follows R front (Parser.peekSecond >>= f) (Parser.peekSecond >>= g) := by
  intro scope s items' a t related atFront run
  obtain ⟨second, middle, looked, rest⟩ := bind_eq_ok run
  suffices seen : middle = s ∧ ∃ second', Alike second second' ∧
      Parser.peekSecond scope ⟨items', s.nextId⟩ = .ok (second', ⟨items', s.nextId⟩) by
    obtain ⟨rfl, second', alike, looked'⟩ := seen
    rw [bind_ok looked']
    exact next second second' alike scope middle items' a t related atFront rest
  obtain ⟨items, id⟩ := s
  cases matching _ _ related with
  | none =>
    cases looked
    exact ⟨rfl, scope.fileEnd, Or.inl rfl, rfl⟩
  | declension opens _ => exact absurd opens (other _ (atFront _ rfl))
  | @same item _ _ behind =>
    cases item with
    | error fault => contradiction
    | ok first =>
      cases matching _ _ behind with
      | none =>
        cases looked
        exact ⟨rfl, scope.fileEnd, Or.inl rfl, rfl⟩
      | @declension opening opening' _ _ opens opens' =>
        cases looked
        exact ⟨rfl, opening', Or.inr ⟨opens, opens'⟩, rfl⟩
      | @same item _ _ _ =>
        cases item with
        | error fault => contradiction
        | ok second =>
          cases looked
          exact ⟨rfl, second, Or.inl rfl, rfl⟩

theorem advance (matching : Matching R) (other : ∀ token, front token → token.kind ≠ .keyword .declension) :
    Follows R front advance advance := by
  intro scope s items' token t related atFront run
  obtain ⟨seen, rfl⟩ := advance_eq_ok run
  obtain ⟨items, id⟩ := s
  cases matching _ _ related with
  | none =>
    cases seen
    exact ⟨[], related, rfl⟩
  | declension opens _ =>
    cases seen
    exact absurd opens (other _ (atFront _ rfl))
  | @same item _ later' behind =>
    cases item with
    | error fault => contradiction
    | ok first =>
      cases seen
      exact ⟨later', behind, rfl⟩

/-- The token that was seen at the front is taken. -/
theorem advanceAt (matching : Matching R) {token : Token} (other : token.kind ≠ .keyword .declension) :
    Follows R (fun seen => front seen ∧ seen = token) Parser.advance Parser.advance :=
  advance matching fun _ known => known.2 ▸ other

/-- A token of a kind that was seen at the front is taken. -/
theorem advanceIf (matching : Matching R) {found : Bool} {kind : TokenKind} (there : found = true)
    (other : kind ≠ .keyword .declension) :
    Follows R (fun seen => front seen ∧ (found = true → seen.kind = kind)) Parser.advance Parser.advance :=
  advance matching fun _ known => known.2 there ▸ other

theorem at? (matching : Matching R) (kind : TokenKind) : Follows R front (at? kind) (at? kind) := by
  refine peek matching fun token token' alike => ?_
  rw [alike.kind]
  exact pure _

theorem eat (matching : Matching R) {kind : TokenKind} (other : kind ≠ .keyword .declension) :
    Follows R front (eat kind) (eat kind) := by
  unfold Parser.eat
  refine look (.at? kind) (at? matching kind) fun found => ?_
  split
  · rename_i there
    exact bind (advanceIf matching there other) fun _ => pure _
  · exact pure _

theorem expect (matching : Matching R) {kind : TokenKind} (other : kind ≠ .keyword .declension) (expected : String) :
    Follows R front (expect kind expected) (expect kind expected) := by
  unfold Parser.expect
  refine look (.at? kind) (at? matching kind) fun found => ?_
  split
  · rename_i there
    exact advanceIf matching there other
  · exact unexpected

theorem expectNoun (matching : Matching R) : Follows R front expectNoun expectNoun :=
  expect matching (by simp) _

theorem expectDeterminer (matching : Matching R) : Follows R front expectDeterminer expectDeterminer := by
  unfold Parser.expectDeterminer
  refine peek matching fun token token' alike => ?_
  rw [← alike.determiner?]
  split
  · rename_i kind isDeterminer
    exact bind (advanceAt matching (other_of_determiner isDeterminer)) fun _ => pure _
  · exact throw _

theorem optionalWord (matching : Matching R) : Follows R front optionalWord optionalWord := by
  unfold Parser.optionalWord
  refine look (.at? .word) (at? matching .word) fun found => ?_
  split
  · rename_i there
    exact bind (advanceIf matching there (by simp)) fun _ => pure _
  · exact pure _

theorem atPreposition (matching : Matching R) : Follows R front atPreposition atPreposition := by
  have second {token : Token} (other : token.kind ≠ .keyword .declension) :
      Follows R (fun seen => front seen ∧ seen = token) (do return (← Parser.peekSecond).determiner?.isSome)
        (do return (← Parser.peekSecond).determiner?.isSome) := by
    refine peekSecond matching ?_ fun token token' alike => ?_
    · exact fun _ known => known.2 ▸ other
    · rw [alike.determiner?]
      exact pure _
  unfold Parser.atPreposition
  refine peek matching fun token token' alike => ?_
  rw [← alike.kind]
  split
  · rename_i kind
    exact second (by simp [kind])
  · rename_i kind
    exact second (by simp [kind])
  · rename_i kind
    exact second (by simp [kind])
  · exact pure _

theorem atOwner (matching : Matching R) : Follows R front atOwner atOwner := by
  unfold Parser.atOwner
  refine peek matching fun token token' alike => ?_
  obtain rfl | ⟨opens, opens'⟩ := alike
  · exact pure _
  · have none {token : Token} (opens : token.kind = .keyword .declension) : token.determiner? = none := by
      rw [Token.determiner?, opens]
      rfl
    rw [none opens, none opens']
    exact pure _

theorem atAssignment (matching : Matching R) : Follows R front atAssignment atAssignment := by
  unfold Parser.atAssignment
  refine peek matching fun token token' alike => ?_
  rw [← alike.kind]
  split
  · exact pure _
  · exact pure _
  · exact pure _

theorem atOtherwise (matching : Matching R) : Follows R front atOtherwise atOtherwise := by
  unfold Parser.atOtherwise
  refine peek matching fun token token' alike => ?_
  rw [← alike.isKeyword, ← alike.kind]
  split
  · exact pure _
  · split
    · rename_i atLineEnd
      have other : token.kind ≠ .keyword .declension := by simp [atLineEnd]
      refine peekSecond matching ?_ fun second second' alike => ?_
      · exact fun _ known => known.2 ▸ other
      · rw [alike.isKeyword]
        exact pure _
    · exact pure _

theorem endStatement (matching : Matching R) (close : TokenKind) :
    Follows R front (endStatement close) (endStatement close) := by
  unfold Parser.endStatement
  refine peek matching fun token token' alike => ?_
  rw [← alike.kind]
  split
  · rename_i atLineEnd
    exact bind (advanceAt matching (by simp [atLineEnd])) fun _ => pure _
  · split
    · exact throw _
    · exact pure _

theorem skipLineEnds (matching : Matching R) : Follows R front skipLineEnds skipLineEnds := by
  have skipped {items items' : List (Except Diagnostic Token)} (related : R items items') :
      R (items.dropWhile isLineEnd) (items'.dropWhile isLineEnd) := by
    induction items generalizing items' with
    | nil =>
      cases matching _ _ related
      exact related
    | cons item later ih =>
      cases matching _ _ related with
      | @declension token token' _ _ opens opens' =>
        have stops {token : Token} (opens : token.kind = .keyword .declension) : ¬isLineEnd (.ok token) = true := by
          simp [isLineEnd, opens]
        rw [List.dropWhile_cons_of_neg (stops opens), List.dropWhile_cons_of_neg (stops opens')]
        exact related
      | same behind =>
        by_cases ends : isLineEnd item = true
        · rw [List.dropWhile_cons_of_pos ends, List.dropWhile_cons_of_pos ends]
          exact ih behind
        · rw [List.dropWhile_cons_of_neg ends, List.dropWhile_cons_of_neg ends]
          exact related
  intro scope s items' a t related _ run
  obtain ⟨rfl, token, seen⟩ := skipLineEnds_eq_ok run
  have related' := skipped related
  obtain ⟨_, token', _, seen'⟩ := matching.peek (s := s.skipped) related' seen
  exact ⟨_, related', @skipLineEnds_ok scope ⟨items', s.nextId⟩ token' seen'⟩

end Follows

end Satzbau.Parser

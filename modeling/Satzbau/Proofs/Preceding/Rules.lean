import Satzbau.Proofs.Preceding.Endings

namespace Satzbau.Parser

variable {α β : Type}

theorem eat_bind (kind : TokenKind) (f : Bool → Parser α) :
    (eat kind >>= f) = at? kind >>= fun found => if found then advance >>= fun _ => f true else f false := by
  unfold eat
  rw [bind_assoc]
  refine bind_congr fun found => ?_
  cases found <;> simp

theorem skipLineEnds_bind (f : Unit → Parser α) (scope : Scope) (s : State) :
    (skipLineEnds >>= f) scope s = (peek >>= fun _ => f ()) scope s.skipped := by
  have skipped : skipLineEnds scope s = (peek >>= fun _ => pure ()) scope s.skipped := rfl
  cases seen : peek scope s.skipped with
  | error fault =>
    rw [bind_error seen]
    exact bind_error (skipped.trans (bind_error seen))
  | ok step =>
    rw [bind_ok seen]
    exact bind_ok (skipped.trans (bind_ok seen))

theorem endStatement_elsewhere {close : TokenKind} {scope : Scope} {s : State} {token : Token}
    (seen : peek scope s = .ok (token, s)) (notLineEnd : token.kind ≠ .lineEnd) (notClose : token.kind ≠ close) :
    endStatement close scope s = .error (token.unexpected "end of line") := by
  unfold endStatement
  rw [bind_ok seen, if_neg notLineEnd, if_pos notClose]
  rfl

namespace Endings.Ends

variable {E : Endings} {around : List Construct} {s : State} {reach : Reach}

theorem peek (late : ∀ item ∈ s.items, IsAt E.late item) :
    E.Ends reach (fun token => E.late token.location) (peek ⟨around, E.last⟩ s) := by
  unfold Parser.peek
  split
  · exact .ok (.late late) E.lastLate
  · rename_i token _ items
    exact .ok (.late late) (late (.ok token) (items ▸ List.mem_cons_self ..))
  · rename_i fault _ items
    exact .error (late (.error fault) (items ▸ List.mem_cons_self ..))

/-- A look at the second token, when only the end of a line may stand in front of what is late. -/
theorem peekSecond {pending : Bool} (behind : E.Behind pending s.items) (allowed : pending = true → reach.leaves = true) :
    E.Ends reach (fun _ => True) (peekSecond ⟨around, E.last⟩ s) := by
  have late {fault : Diagnostic} (member : .error fault ∈ s.items) : fault.PointsAt E.late := by
    generalize s.items = items at behind member
    cases behind with
    | late late => exact late _ member
    | pending _ late => exact late _ ((List.mem_cons.mp member).resolve_left nofun)
  unfold Parser.peekSecond
  split
  · exact .ok (behind.pass allowed) trivial
  · exact .ok (behind.pass allowed) trivial
  · rename_i items
    exact .error (late (by simp [items]))
  · rename_i items
    exact .error (late (by simp [items]))
  · exact .ok (behind.pass allowed) trivial

end Endings.Ends

namespace Decides

variable {E : Endings} {limit : Nat} {uses pending : Bool} {reach : Reach} {front : Token → Prop} {known : Prop}
  {good : α → Prop}

/-- The token at the front, or the fault there. -/
theorem peek : Decides E limit false false reach front known peek peek fun token => E.late token.location := by
  constructor
  · intro around s _ behind _
    cases behind with
    | late late => exact .peek late
  · intro around items id isFront _ _
    match items with
    | [] => exact absurd rfl isFront.nonempty
    | .ok token :: later => exact .ok isFront (List.suffix_refl _) nofun
    | .error fault :: later => exact .error

/-- Behind a token that does not end a line there is another one. -/
theorem peekSecond (inside : ∀ token, front token → token.kind ≠ .lineEnd) :
    Decides E limit false false reach front known peekSecond peekSecond fun _ => True := by
  constructor
  · intro around s _ behind _
    exact .peekSecond behind nofun
  · intro around items id isFront _ sees
    match items with
    | [] => exact absurd rfl isFront.nonempty
    | .error fault :: _ => exact .error
    | [.ok token] => exact absurd rfl (isFront.left (inside token (sees token rfl))).nonempty
    | .ok _ :: .error fault :: _ => exact .error
    | .ok _ :: .ok token :: _ => exact .ok isFront (List.suffix_refl _) nofun

/-- A token that does not end a line is taken. -/
theorem advance (inside : ∀ token, front token → token.kind ≠ .lineEnd) :
    Decides E limit uses false reach front known advance advance fun token => E.late token.location := by
  constructor
  · intro around s _ behind _
    cases behind with | late allLate
    refine Endings.Ends.bind (@Endings.Ends.peek E around s .line allLate) fun token t outcome isLate _ => ?_
    obtain ⟨rfl, _⟩ := peek_eq_ok outcome
    exact .ok (.late fun item member => allLate item (List.mem_of_mem_tail member)) isLate
  · intro around items id isFront _ sees
    match items with
    | [] => exact absurd rfl isFront.nonempty
    | .error fault :: _ => exact .error
    | .ok token :: later =>
      exact .ok (isFront.left (inside token (sees token rfl))) (List.suffix_cons ..) fun _ => Nat.lt_succ_self _

/-- The token that was seen at the front is taken. -/
theorem advanceAt {token : Token} (inside : token.kind ≠ .lineEnd) :
    Decides E limit uses false reach (fun other => front other ∧ other = token) known Parser.advance Parser.advance
      fun token => E.late token.location :=
  advance fun _ isSeen => isSeen.2 ▸ inside

/-- A token of a kind that was seen at the front is taken. -/
theorem advanceIf {found : Bool} {kind : TokenKind} (there : found = true) (inside : kind ≠ .lineEnd) :
    Decides E limit uses false reach (fun other => front other ∧ (found = true → other.kind = kind)) known
      Parser.advance Parser.advance fun token => E.late token.location :=
  advance fun _ isSeen => isSeen.2 there ▸ inside

/-- Naming a phrase leaves the token at the front. -/
theorem name {determiner : Option Token} {noun : Token} {f g : NounPhrase → Parser α}
    (next : ∀ id, Decides E limit uses false reach front known (f ⟨id, determiner, noun⟩) (g ⟨id, determiner, noun⟩) good) :
    Decides E limit uses false reach front known (nounPhrase determiner noun >>= f) (nounPhrase determiner noun >>= g)
      good := by
  constructor
  · intro around s isKnown behind sees
    exact (next s.nextId).behind around { s with nextId := s.nextId + 1 } isKnown behind fun token seen =>
      sees token (peek_of_items seen rfl)
  · intro around items id isFront short sees
    exact (next id).before around items (id + 1) isFront short fun token seen => sees token (peek_of_items seen rfl)

theorem freshId : Decides E limit false false reach front known freshId freshId fun _ => True :=
  ⟨fun _ _ _ behind _ => .ok (behind.pass nofun) trivial,
    fun _ _ _ isFront _ _ => .ok isFront (List.suffix_refl _) Bool.noConfusion⟩

theorem nounPhrase (determiner : Option Token) (noun : Token) :
    Decides E limit false false reach front known (nounPhrase determiner noun) (nounPhrase determiner noun)
      fun _ => True :=
  ⟨fun _ _ _ behind _ => .ok (behind.pass nofun) trivial,
    fun _ _ _ isFront _ _ => .ok isFront (List.suffix_refl _) Bool.noConfusion⟩

theorem unexpected {expected : String} :
    Decides E limit uses false reach front known (unexpected expected) (unexpected expected) good :=
  bind peek fun _ => throw And.right rfl

theorem unexpectedThen {expected : String} {f g : β → Parser α} :
    Decides E limit uses false reach front known (Parser.unexpected expected >>= f) (Parser.unexpected expected >>= g)
      good := by
  have fails (scope : Scope) (s : State) : ∃ fault, (Parser.unexpected expected : Parser β) scope s = .error fault := by
    cases seen : Parser.peek scope s with
    | ok step => exact ⟨_, bind_ok seen⟩
    | error fault => exact ⟨fault, bind_error seen⟩
  have first := @unexpected β E limit true .line front known (fun _ => True) expected
  constructor
  · intro around s isKnown behind sees
    refine (first.behind around s isKnown behind sees).bind fun b t outcome _ _ => ?_
    obtain ⟨fault, failed⟩ := fails ⟨around, E.last⟩ s
    rw [failed] at outcome
    contradiction
  · intro around items id isFront short sees
    have run := first.before around items id isFront short sees
    obtain ⟨fault, outcome⟩ := fails ⟨around, E.last⟩ ⟨items ++ E.items, id⟩
    obtain ⟨fault', outcome'⟩ := fails ⟨around, E.last'⟩ ⟨items ++ E.items', id⟩
    rw [outcome, outcome'] at run
    rw [bind_error outcome, bind_error outcome']
    cases run with
    | error => exact .error
    | failed impossible => contradiction

theorem require {token : Token} (constructs : List Construct) (required : String) (late : known → E.late token.location) :
    Decides E limit false false reach front known (require token constructs required)
      (require token constructs required) fun _ => True := by
  unfold Parser.require
  refine read fun around => ?_
  split
  · exact throw late rfl
  · exact pure fun _ => trivial

theorem requireOwner {token : Token} (kind : Determiner) (late : known → E.late token.location) :
    Decides E limit false false reach front known (requireOwner token kind) (requireOwner token kind) fun _ => True := by
  unfold Parser.requireOwner
  split
  · exact require _ _ late
  · exact require _ _ late
  · exact pure fun _ => trivial

theorem at? (kind : TokenKind) :
    Decides E limit false false reach front known (at? kind) (at? kind) fun _ => True :=
  bind peek fun _ => pure fun _ => trivial

/-- Something behind a token that is taken if it is there. -/
theorem eat {f g : Bool → Parser α} {kind : TokenKind} {limit' : Nat} (inside : kind ≠ .lineEnd)
    (fits : limit ≤ limit' + 1)
    (found : Decides E limit' false false reach (fun _ => True) known (f true) (g true) good)
    (missing : Decides E limit uses false reach front known (f false) (g false) good) :
    Decides E limit uses false reach front known (eat kind >>= f) (eat kind >>= g) good := by
  rw [eat_bind, eat_bind]
  refine look (.at? kind) (at? kind) fun isThere => ?_
  cases isThere with
  | true =>
    refine sequence (@advanceIf E limit true .line front _ true kind rfl inside) (fun _ => found.always And.left)
      (Or.inr ⟨rfl, fits⟩) (fun _ => Or.inl rfl) nofun (absurd rfl) fun _ isKnown _ => isKnown
  | false => exact (missing.always And.left).seen fun _ => And.left

theorem expect {kind : TokenKind} (inside : kind ≠ .lineEnd) (expected : String) :
    Decides E limit uses false reach front known (expect kind expected) (expect kind expected)
      fun token => E.late token.location := by
  unfold Parser.expect
  refine look (.at? kind) (at? kind) fun found => ?_
  split
  · rename_i there
    exact advanceIf there inside
  · exact unexpected

theorem expectNoun : Decides E limit uses false reach front known expectNoun expectNoun fun token => E.late token.location :=
  expect (by simp) _

theorem expectDeterminer :
    Decides E limit uses false reach front known expectDeterminer expectDeterminer
      fun found => E.late found.1.location := by
  unfold Parser.expectDeterminer
  refine look .peek peek fun token => ?_
  split
  · rename_i kind isDeterminer
    exact take (advanceAt (inside_of_determiner isDeterminer)) fun _ => pure And.right
  · exact throw And.right rfl

theorem optionalWord :
    Decides E limit false false reach front known optionalWord optionalWord fun _ => True := by
  unfold Parser.optionalWord
  refine look (.at? .word) (at? .word) fun found => ?_
  split
  · rename_i there
    exact bind (advanceIf there (by simp)) fun _ => pure fun _ => trivial
  · exact pure fun _ => trivial

theorem atPreposition :
    Decides E limit false false reach front known atPreposition atPreposition fun _ => True := by
  unfold Parser.atPreposition
  refine look .peek peek fun token => ?_
  split
  · rename_i kind
    exact bind (peekSecond fun _ isSeen => by simp [isSeen.2, kind]) fun _ => pure fun _ => trivial
  · rename_i kind
    exact bind (peekSecond fun _ isSeen => by simp [isSeen.2, kind]) fun _ => pure fun _ => trivial
  · rename_i kind
    exact bind (peekSecond fun _ isSeen => by simp [isSeen.2, kind]) fun _ => pure fun _ => trivial
  · exact pure fun _ => trivial

theorem atOwner : Decides E limit false false reach front known atOwner atOwner fun _ => True :=
  bind peek fun _ => pure fun _ => trivial

/-- Ends of lines are skipped, up to a token or a fault. -/
theorem skipLineEnds {f g : Unit → Parser α}
    (next : Decides E limit uses false reach (fun _ => True) True (f ()) (g ()) good) (goesOn : reach ≠ .line) :
    Decides E limit uses pending reach front known (skipLineEnds >>= f) (skipLineEnds >>= g) good := by
  have looked : Decides E limit uses false reach (fun _ => True) True (Parser.peek >>= fun _ => f ())
      (Parser.peek >>= fun _ => g ()) good := bind peek fun _ => next.always fun _ => trivial
  have skipped {pending : Bool} {items : List (Except Diagnostic Token)} (behind : E.Behind pending items) :
      E.Behind false (items.dropWhile isLineEnd) := by
    cases behind with
    | late late => exact .late fun item member => late item ((List.dropWhile_sublist _).subset member)
    | @pending token items kind late =>
      have isEnd : isLineEnd (.ok token) = true := beq_iff_eq.mpr kind
      rw [List.dropWhile_cons_of_pos isEnd]
      exact .late fun item member => late item ((List.dropWhile_sublist _).subset member)
  constructor
  · intro around s _ behind _
    rw [skipLineEnds_bind]
    exact looked.behind around s.skipped trivial (skipped behind) fun _ _ => trivial
  · intro around items id isFront short _
    rw [skipLineEnds_bind, skipLineEnds_bind]
    by_cases left : items.dropWhile isLineEnd = []
    · have passed : (State.skipped ⟨items ++ E.items, id⟩).items = E.items.dropWhile isLineEnd := by
        show (items ++ E.items).dropWhile isLineEnd = _
        rw [List.dropWhile_append, left]
        rfl
      exact (looked.behind around _ trivial (passed ▸ @skipped false _ (.late E.itemsLate))
        fun _ _ => trivial).agrees goesOn
    · have cut : items.dropWhile isLineEnd <:+ items := List.dropWhile_suffix _
      have kept (more : List (Except Diagnostic Token)) :
          State.skipped ⟨items ++ more, id⟩ = ⟨items.dropWhile isLineEnd ++ more, id⟩ :=
        @State.skipped_append ⟨items, id⟩ left more
      rw [kept, kept]
      exact (looked.before around _ id (isFront.suffix cut left) (Nat.le_trans cut.length_le short) fun _ _ => trivial).ofLeft
        cut Or.inl

/-- Behind a statement, the end of a line is taken. -/
theorem endStatement (close : TokenKind) :
    Decides E limit false pending .past front known (endStatement close) (endStatement close) fun _ => True := by
  constructor
  · rintro around ⟨items, id⟩ _ behind _
    cases behind with
    | @pending token later kind late =>
      rw [@endStatement_at_lineEnd close _ _ token rfl kind]
      exact .ok (.late late) trivial
    | late late =>
      have looked := @Endings.Ends.peek E around ⟨items, id⟩ .line late
      generalize outcome : Parser.peek ⟨around, E.last⟩ ⟨items, id⟩ = r at looked
      cases looked with
      | error late =>
        unfold Parser.endStatement
        rw [bind_error outcome]
        exact .error late
      | @ok token _ _ isLate =>
        obtain ⟨rfl, _⟩ := peek_eq_ok outcome
        by_cases atLineEnd : token.kind = .lineEnd
        · rw [endStatement_at_lineEnd outcome atLineEnd]
          exact .ok (.late fun item member => late item (List.mem_of_mem_tail member)) trivial
        · by_cases atClose : token.kind = close
          · rw [endStatement_at_close outcome atLineEnd atClose]
            exact .ok (.late late) trivial
          · rw [endStatement_elsewhere outcome atLineEnd atClose]
            exact .error (.located isLate rfl)
  · intro around items id isFront _ _
    match items with
    | [] => exact absurd rfl isFront.nonempty
    | .error fault :: _ => exact .error
    | .ok token :: later =>
      by_cases atLineEnd : token.kind = .lineEnd
      · rw [@endStatement_at_lineEnd close _ _ token rfl atLineEnd, @endStatement_at_lineEnd close _ _ token rfl atLineEnd]
        -- The end of the line may have been all that was left of the front part.
        by_cases left : later = []
        · exact .passed nofun (.late (left ▸ E.itemsLate))
        · exact .ok (isFront.suffix (List.suffix_cons ..) left) (List.suffix_cons ..) Bool.noConfusion
      · by_cases atClose : token.kind = close
        · rw [@endStatement_at_close close _ _ token rfl atLineEnd atClose,
            @endStatement_at_close close _ _ token rfl atLineEnd atClose]
          exact .ok isFront (List.suffix_refl _) Bool.noConfusion
        · rw [@endStatement_elsewhere close _ _ token rfl atLineEnd atClose,
            @endStatement_elsewhere close _ _ token rfl atLineEnd atClose]
          exact .error

end Decides

end Satzbau.Parser

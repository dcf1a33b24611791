import Satzbau.Loading
import Satzbau.Proofs.Following.Definitions
import Satzbau.Proofs.Parsing.TopLevel
import Satzbau.Proofs.Repeating.Reading

namespace Satzbau

/-- The tokens of a line that leaves a declension to a service. -/
inductive LookupRequest.WrittenAs (r : LookupRequest) : List Token → Prop
  | intro {duden opening closing : Token} (statement : r.statement.kind = .keyword .declension)
    (asks : duden.kind = .keyword .duden) (opens : opening.kind = .openParenthesis) (noun : r.word.kind = .noun)
    (closes : closing.kind = .closeParenthesis) : WrittenAs r [r.statement, duden, opening, r.word, closing]

/-- Whether the last of some items, if there is one, is the end of a line. -/
def EndsWithLine (items : List (Except Diagnostic Token)) : Prop :=
  ∀ item ∈ items.getLast?, Parser.isLineEnd item = true

/-- A request has a line of its own among some items. -/
def LookupRequest.OccursIn (r : LookupRequest) (items : List (Except Diagnostic Token)) : Prop :=
  ∃ before tokens lineEnd after, items = before ++ (Parser.closedBy lineEnd tokens ++ after) ∧ EndsWithLine before ∧
    r.WrittenAs tokens ∧ lineEnd.kind = .lineEnd

theorem endsWithLine_nil : EndsWithLine [] :=
  fun item last => absurd last (Option.not_mem_none item)

theorem EndsWithLine.behind {items : List (Except Diagnostic Token)} {lineEnd : Token} (ends : EndsWithLine items)
    (atLineEnd : lineEnd.kind = .lineEnd) (before : List (Except Diagnostic Token)) :
    EndsWithLine (before ++ .ok lineEnd :: items) := by
  intro item last
  rw [List.getLast?_append, List.getLast?_cons, Option.some_or, Option.mem_some_iff] at last
  cases known : items.getLast? with
  | none =>
    rw [known] at last
    rw [← last]
    exact beq_iff_eq.mpr atLineEnd
  | some other =>
    rw [known] at last
    exact ends item (known.trans (congrArg some last))

theorem EndsWithLine.of_append {before items : List (Except Diagnostic Token)} (ends : EndsWithLine (before ++ items)) :
    EndsWithLine items := by
  intro item last
  refine ends item ?_
  rw [List.getLast?_append, Option.mem_def.mp last]
  rfl

theorem endsWithLine_of_lineEnds {items : List (Except Diagnostic Token)}
    (all : ∀ item ∈ items, Parser.isLineEnd item = true) : EndsWithLine items :=
  fun item last => all item (List.mem_of_getLast? last)

/-- What has a line of its own has it also when more lines stand before. -/
theorem LookupRequest.OccursIn.behind {r : LookupRequest} {items : List (Except Diagnostic Token)} {lineEnd : Token}
    (occurs : r.OccursIn items) (atLineEnd : lineEnd.kind = .lineEnd) (before : List (Except Diagnostic Token)) :
    r.OccursIn (before ++ .ok lineEnd :: items) := by
  obtain ⟨others, tokens, last, after, rfl, ends, written, kind⟩ := occurs
  refine ⟨before ++ .ok lineEnd :: others, tokens, last, after, ?_, ends.behind atLineEnd before, written, kind⟩
  rw [List.append_assoc, List.cons_append]

/-- What a definition leaves to a service. -/
def Definition.requests (d : Definition) : List LookupRequest :=
  (⟨[d], []⟩ : Program).lookupRequests

theorem Program.lookupRequests_cons (d : Definition) (rest : Program) :
    ({ rest with definitions := d :: rest.definitions } : Program).lookupRequests = d.requests ++ rest.lookupRequests := by
  unfold Definition.requests lookupRequests declensions
  rw [← List.filterMap_append, ← List.filterMap_append, List.singleton_append]

/-- No line is empty, so nothing has a line among no items. -/
theorem LookupRequest.OccursIn.nonempty {r : LookupRequest} {items : List (Except Diagnostic Token)}
    (occurs : r.OccursIn items) : items ≠ [] := by
  rintro rfl
  obtain ⟨before, tokens, lineEnd, after, same, _⟩ := occurs
  simp [Parser.closedBy] at same

namespace Parser

variable {α : Type} {scope : Scope} {s t : State}

/-- The items that a parser leaves are the last ones of those it was given. -/
def Shortens (scope : Scope) (p : Parser α) : Prop :=
  ∀ s a t, p scope s = .ok (a, t) → t.items <:+ s.items

/-- What follows along with itself takes items from the front only. -/
theorem Shortens.of_follows {p q : Parser α}
    (follows : ∀ R, Matching R → Follows R (fun _ => True) p q) : Shortens scope p := by
  intro s a t run
  have matching : Matching fun items items' => items' = items ∧ items <:+ s.items := by
    rintro given items ⟨rfl, within⟩
    cases items with
    | nil => exact .none
    | cons item later => exact .same ⟨rfl, (List.suffix_cons item later).trans within⟩
  obtain ⟨_, ⟨_, within⟩, _⟩ :=
    follows _ matching scope s s.items a t ⟨rfl, List.suffix_refl _⟩ (fun _ _ => trivial) run
  exact within

/-- A token that is taken, and is not the end of the input, stood at the front. -/
theorem advance_eq_cons {token : Token} (atEnd : scope.fileEnd.kind = .fileEnd) (other : token.kind ≠ .fileEnd)
    (run : advance scope s = .ok (token, t)) : s = ⟨.ok token :: t.items, t.nextId⟩ := by
  obtain ⟨seen, rfl⟩ := advance_eq_ok run
  obtain ⟨items, id⟩ := s
  cases items with
  | nil =>
    cases seen
    exact absurd atEnd other
  | cons item later =>
    cases item with
    | error fault => contradiction
    | ok token =>
      cases seen
      rfl

theorem at?_eq_ok {kind : TokenKind} {found : Bool} (run : at? kind scope s = .ok (found, t)) :
    t = s ∧ ∃ token, peek scope s = .ok (token, s) ∧ found = (token.kind == kind) := by
  obtain ⟨token, middle, seen, returned⟩ := bind_eq_ok run
  cases returned
  obtain ⟨rfl, _⟩ := peek_eq_ok seen
  exact ⟨rfl, token, seen, rfl⟩

theorem expect_eq_ok {kind : TokenKind} {expected : String} {token : Token} (atEnd : scope.fileEnd.kind = .fileEnd)
    (other : kind ≠ .fileEnd) (run : expect kind expected scope s = .ok (token, t)) :
    token.kind = kind ∧ s = ⟨.ok token :: t.items, t.nextId⟩ := by
  obtain ⟨found, middle, looked, decided⟩ := bind_eq_ok run
  obtain ⟨rfl, front, seen, rfl⟩ := at?_eq_ok looked
  split at decided
  · rename_i there
    have seen' := (advance_eq_ok decided).1
    rw [seen] at seen'
    cases seen'
    have isKind := beq_iff_eq.mp there
    exact ⟨isKind, advance_eq_cons atEnd (isKind ▸ other) decided⟩
  · obtain ⟨_, _, _, thrown⟩ := bind_eq_ok decided
    contradiction

/-- A token of a kind is taken, or nothing happens. -/
theorem eat_eq_ok {kind : TokenKind} {found : Bool} (atEnd : scope.fileEnd.kind = .fileEnd)
    (other : kind ≠ .fileEnd) (run : eat kind scope s = .ok (found, t)) :
    found = true ∧ (∃ token, token.kind = kind ∧ s = ⟨.ok token :: t.items, t.nextId⟩) ∨ found = false ∧ t = s := by
  obtain ⟨there, middle, looked, decided⟩ := bind_eq_ok run
  obtain ⟨rfl, front, seen, rfl⟩ := at?_eq_ok looked
  split at decided
  · rename_i there
    obtain ⟨token, _, taken, returned⟩ := bind_eq_ok decided
    cases returned
    have seen' := (advance_eq_ok taken).1
    rw [seen] at seen'
    cases seen'
    have isKind := beq_iff_eq.mp there
    exact Or.inl ⟨rfl, _, isKind, advance_eq_cons atEnd (isKind ▸ other) taken⟩
  · cases decided
    exact Or.inr ⟨rfl, rfl⟩

/-- A word that is left to a service was written as a request for it. -/
theorem declensionSource_external {word : Token} (atEnd : scope.fileEnd.kind = .fileEnd)
    (run : declensionSource scope s = .ok (.external word, t)) :
    ∃ duden opening closing, duden.kind = .keyword .duden ∧ opening.kind = .openParenthesis ∧ word.kind = .noun ∧
      closing.kind = .closeParenthesis ∧ s = ⟨[duden, opening, word, closing].map .ok ++ t.items, t.nextId⟩ := by
  unfold declensionSource at run
  obtain ⟨found, _, eaten, decided⟩ := bind_eq_ok run
  obtain ⟨rfl, duden, isDuden, rfl⟩ | ⟨rfl, rfl⟩ := eat_eq_ok atEnd (by simp) eaten
  · obtain ⟨opening, _, opened, rest⟩ := bind_eq_ok decided
    obtain ⟨noun, _, named, rest⟩ := bind_eq_ok rest
    obtain ⟨closing, _, closed, returned⟩ := bind_eq_ok rest
    cases returned
    obtain ⟨isOpening, same⟩ := expect_eq_ok atEnd (by simp) opened
    obtain ⟨isNoun, same'⟩ := expect_eq_ok atEnd (by simp) named
    obtain ⟨isClosing, same''⟩ := expect_eq_ok atEnd (by simp) closed
    refine ⟨duden, opening, closing, isDuden, isOpening, isNoun, isClosing, ?_⟩
    rw [same, same', same'']
    rfl
  · obtain ⟨_, _, _, rest⟩ := bind_eq_ok decided
    obtain ⟨_, _, _, rest⟩ := bind_eq_ok rest
    obtain ⟨_, _, _, rest⟩ := bind_eq_ok rest
    obtain ⟨_, _, _, rest⟩ := bind_eq_ok rest
    obtain ⟨_, _, _, returned⟩ := bind_eq_ok rest
    cases returned

theorem declension_eq_ok {d : Definition} (atEnd : scope.fileEnd.kind = .fileEnd)
    (run : declension scope s = .ok (d, t)) :
    ∃ statement source middle, d = .declension ⟨statement, source⟩ ∧ statement.kind = .keyword .declension ∧
      s = ⟨.ok statement :: middle.items, middle.nextId⟩ ∧
      declensionSource { scope with around := .declension :: scope.around } middle = .ok (source, t) := by
  unfold declension at run
  rw [within_run] at run
  obtain ⟨statement, middle, expected, rest⟩ := bind_eq_ok run
  obtain ⟨source, _, runSource, returned⟩ := bind_eq_ok rest
  cases returned
  have atEnd' : ({ scope with around := .declension :: scope.around } : Scope).fileEnd.kind = .fileEnd := atEnd
  obtain ⟨isStatement, same⟩ := expect_eq_ok atEnd' (by simp) expected
  exact ⟨statement, source, middle, rfl, isStatement, same, runSource⟩

theorem Shortens.declension (atEnd : scope.fileEnd.kind = .fileEnd) : Shortens scope declension := by
  intro s d t run
  obtain ⟨statement, source, middle, _, _, rfl, runSource⟩ := declension_eq_ok atEnd run
  have shortens := Shortens.of_follows (fun R matching => Follows.declensionSource matching) middle source t runSource
  exact shortens.trans (List.suffix_cons _ _)

/-- A declension that is left to a service was written as a request for it. -/
theorem declension_external {statement word : Token} (atEnd : scope.fileEnd.kind = .fileEnd)
    (run : declension scope s = .ok (.declension ⟨statement, .external word⟩, t)) :
    ∃ tokens, (⟨statement, word⟩ : LookupRequest).WrittenAs tokens ∧ s = ⟨tokens.map .ok ++ t.items, t.nextId⟩ := by
  obtain ⟨_, _, middle, same, isStatement, rfl, runSource⟩ := declension_eq_ok atEnd run
  cases same
  obtain ⟨duden, opening, closing, isDuden, opens, isNoun, closes, rfl⟩ :=
    @declensionSource_external { scope with around := .declension :: scope.around } _ _ _ atEnd runSource
  exact ⟨_, .intro isStatement isDuden opens isNoun closes, rfl⟩

/-- Behind a piece of a program there is the end of its line, or the end of the input. -/
theorem endStatement_fileEnd {close : Except Diagnostic Token} {middle : State} (atEnd : scope.fileEnd.kind = .fileEnd)
    (closed : s.Closed close) (cut : middle.items <:+ s.items) (run : endStatement .fileEnd scope middle = .ok ((), t)) :
    (∃ lineEnd, lineEnd.kind = .lineEnd ∧ middle = ⟨.ok lineEnd :: t.items, t.nextId⟩) ∨ middle.items = [] ∧ t = middle := by
  obtain ⟨token, seen, ⟨atLineEnd, rfl⟩ | ⟨_, atFileEnd, rfl⟩⟩ := endStatement_eq_ok run
  · exact Or.inl ⟨token, atLineEnd, advance_eq_cons atEnd (by simp [atLineEnd]) (advance_ok seen)⟩
  · refine Or.inr ⟨?_, rfl⟩
    cases items : t.items with
    | nil => rfl
    | cons item later =>
      unfold peek at seen
      rw [items] at seen
      cases item with
      | error fault => contradiction
      | ok first =>
        cases seen
        exact absurd atFileEnd (closed.inside token (cut.subset (by simp [items])))

/-- What occurs behind a piece of a program occurs in the whole. -/
theorem occursIn_of_behind {r : LookupRequest} {close : Except Diagnostic Token} {middle : State}
    (atEnd : scope.fileEnd.kind = .fileEnd) (closed : s.Closed close) (cut : middle.items <:+ s.items)
    (run : endStatement .fileEnd scope middle = .ok ((), t)) (occurs : r.OccursIn t.items) : r.OccursIn s.items := by
  obtain ⟨lineEnd, atLineEnd, rfl⟩ | ⟨nothing, rfl⟩ := endStatement_fileEnd atEnd closed cut run
  · obtain ⟨before, whole⟩ := cut
    rw [← whole]
    exact occurs.behind atLineEnd before
  · exact absurd nothing occurs.nonempty

/-- A declension that is left to a service has a line of its own. -/
theorem occursIn_of_declension {statement word : Token} {close : Except Diagnostic Token} {middle : State}
    (atEnd : scope.fileEnd.kind = .fileEnd) (closed : s.Closed close)
    (run : declension scope s.skipped = .ok (.declension ⟨statement, .external word⟩, middle))
    (ended : endStatement .fileEnd scope middle = .ok ((), t)) :
    (⟨statement, word⟩ : LookupRequest).OccursIn s.items := by
  obtain ⟨tokens, written, same⟩ := declension_external atEnd run
  have whole : s.items.takeWhile isLineEnd ++ (tokens.map .ok ++ middle.items) = s.items := by
    have skipped : s.items.dropWhile isLineEnd = tokens.map .ok ++ middle.items := congrArg State.items same
    rw [← skipped, List.takeWhile_append_dropWhile]
  have cut : middle.items <:+ s.items := ⟨s.items.takeWhile isLineEnd ++ tokens.map .ok, by rw [List.append_assoc, whole]⟩
  obtain ⟨lineEnd, atLineEnd, rfl⟩ | ⟨nothing, rfl⟩ := endStatement_fileEnd atEnd closed cut ended
  · refine ⟨s.items.takeWhile isLineEnd, tokens, lineEnd, t.items, whole.symm.trans ?_,
      endsWithLine_of_lineEnds fun item => List.mem_takeWhile_imp, written, atLineEnd⟩
    rw [closedBy, List.map_append, List.append_assoc]
    rfl
  · obtain ⟨before, last⟩ := closed.ends
    rw [nothing, List.append_nil] at whole
    cases written with
    | @intro duden opening closing _ _ _ _ closes =>
      rw [← whole] at last
      have same := congrArg List.getLast? last
      simp at same
      have := closed.lineEnd closing same.symm
      rw [closes] at this
      contradiction

/-- All that is asked for in what a parser reads of an input, behind the ends of lines at its front, has lines
of its own there. -/
def AsksOnLines (scope : Scope) (s t : State) (P : Parser Program) : Prop :=
  ∀ p, P scope s.skipped = .ok (p, t) → ∀ r ∈ p.lookupRequests, r.OccursIn s.items

/-- One piece of a program: if what it asks for and what the rest asks for occur, then all does. -/
theorem occursIn_of_piece {P : Parser α} {rest : Parser Program} {add : α → Program → Program}
    {asks : α → List LookupRequest} {close : Except Diagnostic Token}
    (adds : ∀ x q, (add x q).lookupRequests = asks x ++ q.lookupRequests) (atEnd : scope.fileEnd.kind = .fileEnd)
    (closed : s.Closed close) (shortens : Shortens scope P)
    (here : ∀ x middle behind, P scope s.skipped = .ok (x, middle) →
      endStatement .fileEnd scope middle = .ok ((), behind) → ∀ r ∈ asks x, r.OccursIn s.items)
    (later : ∀ behind q, behind.items = [] ∨ behind.Closed close → rest scope behind = .ok (q, t) →
      ∀ r ∈ q.lookupRequests, r.OccursIn behind.items) :
    AsksOnLines scope s t (do
      let x ← P
      endStatement .fileEnd
      let q ← rest
      return add x q) := by
  intro p run
  obtain ⟨x, middle, runPiece, run⟩ := bind_eq_ok run
  obtain ⟨_, behind, ended, run⟩ := bind_eq_ok run
  obtain ⟨q, _, runLater, returned⟩ := bind_eq_ok run
  cases returned
  have cut : middle.items <:+ s.items := (shortens _ _ _ runPiece).trans (List.dropWhile_suffix isLineEnd)
  have left : behind.items = [] ∨ behind.Closed close := by
    obtain ⟨lineEnd, _, rfl⟩ | ⟨nothing, rfl⟩ := endStatement_fileEnd atEnd closed cut ended
    · by_cases empty : behind.items = []
      · exact Or.inl empty
      · have kept := closed.suffix ((List.suffix_cons _ _).trans cut) empty
        exact Or.inr ⟨kept.ends, kept.lineEnd, kept.inside⟩
    · exact Or.inl nothing
  intro r member
  rw [adds] at member
  obtain inPiece | inLater := List.mem_append.mp member
  · exact here x middle behind runPiece ended r inPiece
  · exact occursIn_of_behind atEnd closed cut ended (later behind q left runLater r inLater)

theorem Gives.noRequests_classDefinition (inner : Inner) :
    Gives scope (Parser.classDefinition inner) fun d => d.requests = [] := by
  unfold Parser.classDefinition
  refine .within (.bind (.any _) fun _ _ => .bind (.any _) fun _ _ => .bind (.any _) fun _ _ => ?_)
  refine .bind (.any _) fun along _ => ?_
  split
  · exact .bind (.any _) fun fields _ => .bind (.any _) fun body _ => .pure rfl
  · exact .bind (.any _) fun fields _ => .bind (.any _) fun body _ => .pure rfl

theorem Gives.noRequests_implementation (inner : Inner) :
    Gives scope (Parser.implementation inner) fun d => d.requests = [] := by
  unfold Parser.implementation
  refine .within (.bind (.any _) fun _ _ => .bind (.any _) fun _ _ => .bind (.any _) fun _ _ => ?_)
  exact .bind (.any _) fun _ _ => .pure rfl

theorem Gives.noRequests_function (p : Parser FunctionDefinition) :
    Gives scope (Definition.function <$> p) fun d => d.requests = [] :=
  .map (.any p) fun _ _ => rfl

/-- One definition or statement of a program, if its rest is known. -/
theorem occursIn_of_programStep {inner : Inner} {close : Except Diagnostic Token} {p : Program}
    (follows : ∀ R, Matching R → inner.Follows R inner) (atEnd : scope.fileEnd.kind = .fileEnd)
    (later : ∀ behind q, behind.items = [] ∨ behind.Closed close → inner.program scope behind = .ok (q, t) →
      ∀ r ∈ q.lookupRequests, r.OccursIn behind.items)
    (closed : s.items = [] ∨ s.Closed close) (run : program inner scope s = .ok (p, t)) :
    ∀ r ∈ p.lookupRequests, r.OccursIn s.items := by
  unfold program at run
  obtain ⟨_, middle, skip, rest⟩ := bind_eq_ok run
  obtain ⟨rfl, _, _⟩ := skipLineEnds_eq_ok skip
  obtain ⟨token, _, seen, decided⟩ := bind_eq_ok rest
  obtain ⟨rfl, _⟩ := peek_eq_ok seen
  rcases closed with empty | closed
  · have nothing : s.skipped.items = [] := by rw [State.skipped, empty]; rfl
    rw [(Starves.peek_eq_ok nothing seen).1, atEnd] at decided
    cases decided
    intro r member
    cases member
  · have ofOther {P : Parser Definition} (none : Gives scope P fun d => d.requests = []) :
        ∀ d middle behind, P scope s.skipped = .ok (d, middle) → endStatement .fileEnd scope middle = .ok ((), behind) →
          ∀ r ∈ d.requests, r.OccursIn s.items := by
      intro d middle behind runPiece _ r member
      rw [none _ _ _ runPiece] at member
      contradiction
    have noneOfStatement (first : Statement) (middle behind : State) :
        Parser.statement inner scope s.skipped = .ok (first, middle) →
          endStatement .fileEnd scope middle = .ok ((), behind) → ∀ r ∈ ([] : List LookupRequest), r.OccursIn s.items := by
      intro _ _ r member
      contradiction
    have ofDeclension (d : Definition) (middle behind : State) (runPiece : declension scope s.skipped = .ok (d, middle))
        (ended : endStatement .fileEnd scope middle = .ok ((), behind)) : ∀ r ∈ d.requests, r.OccursIn s.items := by
      obtain ⟨statement, source, _, rfl, _, _, _⟩ := declension_eq_ok atEnd runPiece
      cases source with
      | inline entry =>
        intro r member
        cases member
      | external word =>
        intro r member
        rw [List.mem_singleton.mp (show r ∈ [⟨statement, word⟩] from member)]
        exact occursIn_of_declension atEnd closed runPiece ended
    suffices asks : AsksOnLines scope s t _ from asks p decided
    split
    · intro q returned
      cases returned
      intro r member
      cases member
    · exact occursIn_of_piece Program.lookupRequests_cons atEnd closed (.of_follows fun R matching => .map _ (.within _ (follows R matching).ofFunction))
        (ofOther (.noRequests_function _)) later
    · exact occursIn_of_piece Program.lookupRequests_cons atEnd closed (.of_follows fun R matching => (follows R matching).ofClassDefinition)
        (ofOther (.noRequests_classDefinition _)) later
    · exact occursIn_of_piece Program.lookupRequests_cons atEnd closed (.of_follows fun R matching => (follows R matching).ofImplementation)
        (ofOther (.noRequests_implementation _)) later
    · exact occursIn_of_piece Program.lookupRequests_cons atEnd closed (.declension atEnd) ofDeclension later
    · exact occursIn_of_piece (fun _ _ => rfl) atEnd closed
        (.of_follows fun R matching => (follows R matching).ofStatement) noneOfStatement later

/-- Every request of a program that was read has a line of its own. -/
theorem occursIn_of_program {close : Except Diagnostic Token} (atEnd : scope.fileEnd.kind = .fileEnd) (size : Nat)
    {p : Program} (closed : s.items = [] ∨ s.Closed close) (run : program (inner size) scope s = .ok (p, t)) :
    ∀ r ∈ p.lookupRequests, r.OccursIn s.items := by
  have follows (size : Nat) R (matching : Matching R) : (inner size).Follows R (inner size) :=
    .ofInner matching (Nat.le_refl size)
  induction size generalizing s p with
  | zero =>
    refine occursIn_of_programStep (follows 0) atEnd (fun behind q _ impossible => ?_) closed run
    obtain ⟨_, _, _, thrown⟩ := bind_eq_ok impossible
    contradiction
  | succ size ih =>
    refine occursIn_of_programStep (follows (size + 1)) atEnd (fun behind q closed' runLater => ?_) closed run
    exact ih closed' runLater

end Parser

end Satzbau

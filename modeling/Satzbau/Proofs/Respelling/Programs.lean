import Satzbau.Proofs.Respelling.Requests

namespace Satzbau

/-- What a token says, wherever it stands. -/
def Token.reading (t : Token) : TokenKind × String :=
  (t.kind, t.text)

/-- What the forms of one number are read as. -/
def Forms.reading (f : Forms) : List (TokenKind × String) :=
  [(.openParenthesis, "("), (.noun, f.nominative), (.comma, ","), (.noun, f.genitive), (.comma, ","), (.noun, f.dative),
    (.comma, ","), (.noun, f.accusative), (.closeParenthesis, ")")]

/-- What a declension is read as behind the keyword that declares it. -/
def Declension.reading (d : Declension) : List (TokenKind × String) :=
  (.keyword (.gender d.gender), d.gender.keyword) :: (.keyword .singular, "Singular") :: (d.singular.reading ++
    (.keyword .plural, "Plural") :: d.plural.reading)

/-- The same definition, or one that spells out what was left to a service: the answer, declared in the
same place. -/
inductive Definition.Respelled (answers : String → Declension → Prop) : Definition → Definition → Prop
  | kept {d : Definition} (asksNothing : d.requests = []) : Respelled answers d d
  | spelled {statement statement' word : Token} {entry : Declension} (answered : answers word.text entry)
    (same : statement.Same statement') (file : statement'.file = statement.file)
    (line : statement'.span.line = statement.span.line) :
    Respelled answers (.declension ⟨statement, .external word⟩) (.declension ⟨statement', .inline entry⟩)

/-- The same program, with all declensions spelled out. -/
structure Program.Respelled (answers : String → Declension → Prop) (p p' : Program) : Prop where
  statements : p'.statements = p.statements
  definitions : List.Forall₂ (Definition.Respelled answers) p.definitions p'.definitions

/-- Items of which some lines leave declensions to a service, and others that spell them out. A line may be
kept if it is none of those asked for. -/
inductive Respelled (answers : String → Declension → Prop) (asked : Token → Prop) :
    List (Except Diagnostic Token) → List (Except Diagnostic Token) → Prop
  | nil : Respelled answers asked [] []
  | keep {item : Except Diagnostic Token} {rest rest' : List (Except Diagnostic Token)}
    (other : ∀ token, item = .ok token → ¬asked token) (behind : Respelled answers asked rest rest') :
    Respelled answers asked (item :: rest) (item :: rest')
  | spell {r : LookupRequest} {tokens tokens' : List Token} {lineEnd statement' lineEnd' : Token} {entry : Declension}
    {rest rest' : List (Except Diagnostic Token)} (written : r.WrittenAs tokens) (ends : lineEnd.kind = .lineEnd)
    (answered : answers r.word.text entry) (same : r.statement.Same statement')
    (file : statement'.file = r.statement.file) (line : statement'.span.line = r.statement.span.line)
    (reads : tokens'.map Token.reading = entry.reading) (ends' : lineEnd'.kind = .lineEnd)
    (behind : Respelled answers asked rest rest') :
    Respelled answers asked (Parser.closedBy lineEnd tokens ++ rest)
      (Parser.closedBy lineEnd' (statement' :: tokens') ++ rest')

namespace Parser

variable {α : Type} {scope : Scope} {id : NodeId} {rest : List (Except Diagnostic Token)}
  {answers : String → Declension → Prop} {asked : Token → Prop}

theorem matching_respelled : Matching (Respelled answers asked) := by
  intro items items' related
  cases related with
  | nil => exact .none
  | keep _ behind => exact .same behind
  | spell written _ _ same =>
    cases written with
    | intro statement => exact .declension statement (same.kind ▸ statement)

/-- The first of some tokens that are read as a known one. -/
theorem cons_of_reading {tokens : List Token} {kind : TokenKind} {text : String} {others : List (TokenKind × String)}
    (reads : tokens.map Token.reading = (kind, text) :: others) :
    ∃ token later, tokens = token :: later ∧ token.kind = kind ∧ token.text = text ∧
      later.map Token.reading = others := by
  obtain ⟨token, later, rfl, same, reads'⟩ := List.map_eq_cons_iff.mp reads
  exact ⟨token, later, rfl, congrArg Prod.fst same, congrArg Prod.snd same, reads'⟩

theorem forms_reading {f : Forms} {tokens : List Token} (reads : tokens.map Token.reading = f.reading) :
    forms scope ⟨tokens.map .ok ++ rest, id⟩ = .ok (f, ⟨rest, id⟩) := by
  obtain ⟨opening, _, rfl, opens, _, reads⟩ := cons_of_reading reads
  obtain ⟨nominative, _, rfl, isNominative, same, reads⟩ := cons_of_reading reads
  obtain ⟨comma, _, rfl, isComma, _, reads⟩ := cons_of_reading reads
  obtain ⟨genitive, _, rfl, isGenitive, same', reads⟩ := cons_of_reading reads
  obtain ⟨comma', _, rfl, isComma', _, reads⟩ := cons_of_reading reads
  obtain ⟨dative, _, rfl, isDative, same'', reads⟩ := cons_of_reading reads
  obtain ⟨comma'', _, rfl, isComma'', _, reads⟩ := cons_of_reading reads
  obtain ⟨accusative, _, rfl, isAccusative, same''', reads⟩ := cons_of_reading reads
  obtain ⟨closing, _, rfl, closes, _, reads⟩ := cons_of_reading reads
  rw [List.map_eq_nil_iff.mp reads]
  simp only [List.map_cons, List.map_nil, List.cons_append, List.nil_append]
  unfold forms expectNoun
  rw [bind_ok (expect_cons opens _), bind_ok (expect_cons isNominative _), bind_ok (expect_cons isComma _),
    bind_ok (expect_cons isGenitive _), bind_ok (expect_cons isComma' _), bind_ok (expect_cons isDative _),
    bind_ok (expect_cons isComma'' _), bind_ok (expect_cons isAccusative _), bind_ok (expect_cons closes _),
    same, same', same'', same''']
  rfl

theorem gender_cons {token : Token} {g : Gender} (there : token.kind = .keyword (.gender g)) :
    gender scope ⟨.ok token :: rest, id⟩ = .ok (g, ⟨rest, id⟩) := by
  have seen : peek scope ⟨.ok token :: rest, id⟩ = .ok (token, ⟨.ok token :: rest, id⟩) := rfl
  unfold gender
  rw [bind_ok seen, there]
  rfl

/-- A declension is read where its keyword stands and its source is read. -/
theorem declension_cons {statement : Token} {items : List (Except Diagnostic Token)} {source : DeclensionSource} {t : State}
    (isStatement : statement.kind = .keyword .declension)
    (reads : declensionSource { scope with around := .declension :: scope.around } ⟨items, id⟩ = .ok (source, t)) :
    declension scope ⟨.ok statement :: items, id⟩ = .ok (.declension ⟨statement, source⟩, t) := by
  unfold declension expectKeyword
  rw [within_run, bind_ok (expect_cons isStatement _), bind_ok reads]
  rfl

theorem declensionSource_reading {tokens : List Token} {entry : Declension}
    (reads : tokens.map Token.reading = entry.reading) :
    declensionSource scope ⟨tokens.map .ok ++ rest, id⟩ = .ok (.inline entry, ⟨rest, id⟩) := by
  obtain ⟨g, _, rfl, isGender, _, reads⟩ := cons_of_reading reads
  obtain ⟨one, _, rfl, isSingular, _, reads⟩ := cons_of_reading reads
  obtain ⟨singular, _, rfl, readsSingular, reads⟩ := List.map_eq_append_iff.mp reads
  obtain ⟨many, plural, rfl, isPlural, _, readsPlural⟩ := cons_of_reading reads
  have other : g.kind ≠ .keyword .duden := by simp [isGender]
  unfold declensionSource expectKeyword
  simp only [List.map_cons, List.cons_append, List.map_append, List.append_assoc]
  rw [bind_ok (eat_cons_other other), if_neg Bool.false_ne_true, bind_ok (gender_cons isGender),
    bind_ok (expect_cons isSingular _), bind_ok (forms_reading readsSingular), bind_ok (expect_cons isPlural _),
    bind_ok (forms_reading readsPlural)]
  rfl

/-- What a declension is read as is read as that declension. -/
theorem declension_reading {statement : Token} {tokens : List Token} {entry : Declension}
    (isStatement : statement.kind = .keyword .declension) (reads : tokens.map Token.reading = entry.reading) :
    declension scope ⟨(statement :: tokens).map .ok ++ rest, id⟩ =
      .ok (.declension ⟨statement, .inline entry⟩, ⟨rest, id⟩) :=
  declension_cons isStatement (declensionSource_reading reads)

/-- A request is read as that. -/
theorem declension_request {r : LookupRequest} {tokens : List Token} (written : r.WrittenAs tokens) :
    declension scope ⟨tokens.map .ok ++ rest, id⟩ =
      .ok (.declension ⟨r.statement, .external r.word⟩, ⟨rest, id⟩) := by
  obtain ⟨statement, asks, opens, noun, closes⟩ := written
  simp only [List.map_cons, List.map_nil, List.cons_append, List.nil_append]
  refine declension_cons statement ?_
  unfold declensionSource expectNoun
  rw [bind_ok (eat_cons asks), if_pos rfl, bind_ok (expect_cons opens _), bind_ok (expect_cons noun _), bind_ok (expect_cons closes _)]
  rfl

/-- The end of the line of a definition is taken. -/
theorem endStatement_cons {lineEnd : Token} {close : TokenKind} (atLineEnd : lineEnd.kind = .lineEnd) :
    endStatement close scope ⟨.ok lineEnd :: rest, id⟩ = .ok ((), ⟨rest, id⟩) :=
  endStatement_at_lineEnd (s := ⟨.ok lineEnd :: rest, id⟩) rfl atLineEnd

/-- A declension is kept or spelled out, and what stands behind it is related as before. -/
theorem declension_respelled {s middle t : State} {items' : List (Except Diagnostic Token)} {d : Definition}
    (atEnd : scope.fileEnd.kind = .fileEnd) (related : Respelled answers asked s.items items')
    (run : declension scope s = .ok (d, middle)) (ended : endStatement .fileEnd scope middle = .ok ((), t))
    (known : ∀ r ∈ d.requests, asked r.statement) :
    ∃ d' middle' rest', declension scope ⟨items', s.nextId⟩ = .ok (d', middle') ∧
      endStatement .fileEnd scope middle' = .ok ((), ⟨rest', t.nextId⟩) ∧
      Respelled answers asked t.items rest' ∧ Definition.Respelled answers d d' := by
  obtain ⟨statement, source, inside, rfl, isStatement, rfl, runSource⟩ := declension_eq_ok atEnd run
  simp only at related
  generalize items : (Except.ok statement :: inside.items : List (Except Diagnostic Token)) = all at related
  cases related with
  | nil => contradiction
  | @keep _ _ behind' other behind =>
    cases items
    obtain ⟨rest, relatedRest, runSource'⟩ := (Follows.declensionSource matching_respelled).run behind runSource
    obtain ⟨rest', related', ended'⟩ := (Follows.endStatement matching_respelled .fileEnd).run relatedRest ended
    refine ⟨_, _, rest', declension_cons isStatement runSource', ended', related', .kept ?_⟩
    cases source with
    | inline entry => rfl
    | external word => exact absurd (known ⟨statement, word⟩ (List.mem_singleton_self _)) (other statement rfl)
  | @spell r tokens tokens' lineEnd statement' lineEnd' _ rest rest' written ends answered same file line reads ends' behind =>
    have run' := @declension_request scope inside.nextId (.ok lineEnd :: rest) r tokens written
    have whole : closedBy lineEnd tokens ++ rest = tokens.map .ok ++ .ok lineEnd :: rest := by
      rw [closedBy, List.map_append, List.append_assoc]
      rfl
    rw [items, whole, run'] at run
    cases run
    have ended' := @endStatement_cons scope inside.nextId rest lineEnd .fileEnd ends
    rw [ended'] at ended
    cases ended
    have whole' : closedBy lineEnd' (statement' :: tokens') ++ rest' =
        (statement' :: tokens').map .ok ++ .ok lineEnd' :: rest' := by
      rw [closedBy, List.map_append, List.append_assoc]
      rfl
    rw [whole']
    exact ⟨_, _, rest', declension_reading (same.kind ▸ isStatement) reads, endStatement_cons ends', behind,
      .spelled answered same file line⟩

/-- What `P` reads of an input, if all it asks for is asked for, `Q` reads of the items with declensions spelled
out. -/
def Retells (answers : String → Declension → Prop) (asked : Token → Prop) (scope : Scope) (s t : State)
    (items' : List (Except Diagnostic Token)) (P Q : Parser Program) : Prop :=
  ∀ p, P scope s = .ok (p, t) → (∀ r ∈ p.lookupRequests, asked r.statement) →
    ∃ p' t', Q scope ⟨items', s.nextId⟩ = .ok (p', t') ∧ p.Respelled answers p'

/-- One piece of a program that is kept, and the rest of it. -/
theorem Retells.piece {P Q : Parser α} {p q : Parser Program} {add : α → Program → Program} {s t : State}
    {items' : List (Except Diagnostic Token)} (related : Respelled answers asked s.items items')
    (follows : Follows (Respelled answers asked) (fun _ => True) P Q)
    (later : ∀ s items', Respelled answers asked s.items items' → Retells answers asked scope s t items' p q)
    (adds : ∀ x rest, ∀ r ∈ rest.lookupRequests, r ∈ (add x rest).lookupRequests)
    (respells : Gives scope P fun x => ∀ rest rest', rest.Respelled answers rest' →
      (add x rest).Respelled answers (add x rest')) :
    Retells answers asked scope s t items'
      (do
        let x ← P
        endStatement .fileEnd
        let rest ← p
        return add x rest)
      (do
        let x ← Q
        endStatement .fileEnd
        let rest ← q
        return add x rest) := by
  intro result run known
  obtain ⟨x, middle, runPiece, run⟩ := bind_eq_ok run
  obtain ⟨_, behind, ended, run⟩ := bind_eq_ok run
  obtain ⟨rest, _, runLater, returned⟩ := bind_eq_ok run
  cases returned
  obtain ⟨middle', related, runPiece'⟩ := follows.run related runPiece
  obtain ⟨behind', related, ended'⟩ := (Follows.endStatement matching_respelled .fileEnd).run related ended
  obtain ⟨rest', t', runLater', respelled⟩ := later behind behind' related rest runLater
    fun r member => known r (adds x rest r member)
  refine ⟨add x rest', t', ?_, respells _ _ _ runPiece _ _ respelled⟩
  rw [bind_ok runPiece', bind_ok ended', bind_ok runLater']
  rfl

/-- A declension, and the rest of a program. -/
theorem Retells.declension {p q : Parser Program} {s t : State} {items' : List (Except Diagnostic Token)}
    (atEnd : scope.fileEnd.kind = .fileEnd) (related : Respelled answers asked s.items items')
    (later : ∀ s items', Respelled answers asked s.items items' → Retells answers asked scope s t items' p q) :
    Retells answers asked scope s t items'
      (do
        let definition ← Parser.declension
        endStatement .fileEnd
        let rest ← p
        return { rest with definitions := definition :: rest.definitions })
      (do
        let definition ← Parser.declension
        endStatement .fileEnd
        let rest ← q
        return { rest with definitions := definition :: rest.definitions }) := by
  intro result run known
  obtain ⟨d, middle, runPiece, run⟩ := bind_eq_ok run
  obtain ⟨_, behind, ended, run⟩ := bind_eq_ok run
  obtain ⟨rest, _, runLater, returned⟩ := bind_eq_ok run
  cases returned
  rw [Program.lookupRequests_cons] at known
  obtain ⟨d', middle', behind', runPiece', ended', related, spelled⟩ :=
    declension_respelled atEnd related runPiece ended fun r member => known r (List.mem_append_left _ member)
  obtain ⟨rest', t', runLater', respelled⟩ := later behind behind' related rest runLater
    fun r member => known r (List.mem_append_right _ member)
  refine ⟨{ rest' with definitions := d' :: rest'.definitions }, t', ?_, respelled.statements,
    .cons spelled respelled.definitions⟩
  rw [bind_ok runPiece', bind_ok ended', bind_ok runLater']
  rfl

/-- One definition or statement of a program, if its rest is known. -/
theorem Retells.program {inner inner' : Inner} {s t : State} {items' : List (Except Diagnostic Token)}
    (h : inner.Follows (Respelled answers asked) inner') (atEnd : scope.fileEnd.kind = .fileEnd)
    (later : ∀ s items', Respelled answers asked s.items items' →
      Retells answers asked scope s t items' inner.program inner'.program)
    (related : Respelled answers asked s.items items') :
    Retells answers asked scope s t items' (Parser.program inner) (Parser.program inner') := by
  intro p run known
  unfold Parser.program at run
  obtain ⟨_, middle, skip, rest⟩ := bind_eq_ok run
  obtain ⟨token, _, seen, decided⟩ := bind_eq_ok rest
  obtain ⟨rfl, _⟩ := peek_eq_ok seen
  obtain ⟨items', related, skip'⟩ := (Follows.skipLineEnds matching_respelled).run related skip
  obtain ⟨_, token', alike, seen'⟩ := matching_respelled.peek related seen
  have ofDefinition {P Q : Parser Definition} (follows : Follows (Respelled answers asked) (fun _ => True) P Q)
      (none : Gives scope P fun d => d.requests = []) := @Retells.piece _ scope answers asked P Q _ _
    (fun definition rest => { rest with definitions := definition :: rest.definitions }) _ t _ related follows later
    (fun d rest r member => by
      rw [Program.lookupRequests_cons]
      exact List.mem_append_right _ member)
    fun s d m runPiece rest rest' respelled =>
      ⟨respelled.statements, .cons (.kept (none s d m runPiece)) respelled.definitions⟩
  unfold Parser.program
  rw [bind_ok skip', bind_ok seen', ← alike.kind]
  suffices retells : Retells answers asked scope _ t items' _ _ from retells p decided known
  split
  · intro q returned _
    cases returned
    exact ⟨.empty, _, rfl, rfl, .nil⟩
  · exact ofDefinition (.map _ (.within _ h.ofFunction)) (.noRequests_function _)
  · exact ofDefinition h.ofClassDefinition (.noRequests_classDefinition _)
  · exact ofDefinition h.ofImplementation (.noRequests_implementation _)
  · exact .declension atEnd related later
  · refine .piece related h.ofStatement later (fun _ _ r member => member) fun _ first _ _ rest rest' respelled => ?_
    exact ⟨congrArg (first :: ·) respelled.statements, respelled.definitions⟩

/-- A program is read again where declensions are spelled out that it left to a service. -/
theorem program_respelled (atEnd : scope.fileEnd.kind = .fileEnd) {size size' : Nat} (fits : size ≤ size') {s t : State}
    {items' : List (Except Diagnostic Token)} (related : Respelled answers asked s.items items') :
    Retells answers asked scope s t items' (program (inner size)) (program (inner size')) := by
  induction size generalizing size' s items' with
  | zero =>
    refine .program (.ofInner matching_respelled fits) atEnd (fun _ _ _ p impossible => ?_) related
    obtain ⟨_, _, _, thrown⟩ := bind_eq_ok impossible
    contradiction
  | succ size ih =>
    cases size' with
    | zero => contradiction
    | succ size' =>
      exact .program (.ofInner matching_respelled fits) atEnd
        (fun _ _ related' => ih (Nat.le_of_succ_le_succ fits) related') related

end Parser

end Satzbau

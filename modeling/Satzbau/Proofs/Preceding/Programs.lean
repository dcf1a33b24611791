import Satzbau.Proofs.Preceding.Definitions
import Satzbau.Proofs.Pointing.Places

namespace Satzbau

namespace Parser

variable {E : Endings}

namespace Inner.Decides

variable {limit : Nat} {inner inner' inner'' : Inner}

theorem ofNone : Inner.none.Decides E 0 Inner.none where
  expression _ := .unexpected
  operators _ _ _ := .unexpected
  conversions _ := .unexpected
  phrase _ _ _ := .unexpected
  items := .unexpected
  arguments := .unexpected
  groups := .unexpected
  statements _ _ := .unexpected
  alternatives := .unexpected
  parameters := .unexpected
  headerGroups := .unexpected
  members := .unexpected
  program := .unexpected

/-- Behind the front part, only the first parsers count. -/
theorem ofZero (h : inner.Decides E limit inner') : inner.Decides E 0 inner'' where
  expression least := (h.expression least).ofZero
  operators least _ begins := (h.operators least begins).ofZero
  conversions begins := (h.conversions begins).ofZero
  phrase kind noun begins := (h.phrase kind noun begins).ofZero
  items := h.items.ofZero
  arguments := h.arguments.ofZero
  groups := h.groups.ofZero
  statements expected inside := (h.statements expected inside).ofZero
  alternatives := h.alternatives.ofZero
  parameters := h.parameters.ofZero
  headerGroups := h.headerGroups.ofZero
  members := h.members.ofZero
  program := h.program.ofZero

/-- What is read inside of a construct decides one token more for the construct. -/
theorem deeper {size size' : Nat} (h : (Parser.inner size).Decides E limit (Parser.inner size')) :
    (Parser.inner (size + 1)).Decides E (limit + 1) (Parser.inner (size' + 1)) where
  expression := h.ofBinary
  operators := h.ofOperators
  conversions := h.ofConversions
  phrase := h.ofPhrase
  items := h.ofItems (h.ofBinary 0)
  arguments := h.ofArguments
  groups := h.ofGroups
  statements := h.ofStatements
  alternatives := h.ofAlternatives
  parameters := h.ofParameters
  headerGroups := h.ofHeaderGroups
  members := h.ofMembers
  program := h.ofProgram

theorem ofInner : ∀ size size' : Nat, (Parser.inner size).Decides E (min size size') (Parser.inner size')
  | 0, size' => by
    rw [Nat.zero_min]
    exact ofNone.ofZero
  | size + 1, 0 => by
    rw [Nat.min_zero]
    exact (ofInner size size).deeper.ofZero
  | size + 1, size' + 1 => by
    rw [Nat.add_min_add_right]
    exact (ofInner size size').deeper

end Inner.Decides

theorem program_decides {limit size size' : Nat} (fits : limit ≤ size) (fits' : limit ≤ size') :
    Decides E limit false false .past (fun _ => True) True (program (inner size)) (program (inner size')) fun _ => True :=
  (Inner.Decides.ofInner size size').ofProgram.less (Nat.le_succ_of_le (Nat.le_min.mpr ⟨fits, fits'⟩))

/-- A fault in a program of which all is late is late. -/
theorem program_late {d : Diagnostic} (failed : complete program ⟨[], E.last⟩ ⟨E.items, 0⟩ = .error d) :
    d.PointsAt E.late := by
  have ends := (@program_decides E 0 E.items.length 0 (Nat.zero_le _) (Nat.zero_le _)).behind [] ⟨E.items, 0⟩ trivial
    (.late E.itemsLate) fun _ _ => trivial
  rw [show program (inner E.items.length) ⟨[], E.last⟩ ⟨E.items, 0⟩ = .error d from failed] at ends
  cases ends with
  | error late => exact late

/-- A fault in a program is late, or it is found there however the program goes on. -/
theorem program_fault {front : List (Except Diagnostic Token)} (isFront : front = [] ∨ IsFront front) {d : Diagnostic}
    (failed : complete program ⟨[], E.last⟩ ⟨front ++ E.items, 0⟩ = .error d) :
    d.PointsAt E.late ∨ complete program ⟨[], E.last'⟩ ⟨front ++ E.items', 0⟩ = .error d := by
  rcases isFront with rfl | isFront
  · exact Or.inl (program_late failed)
  · have fits (more : List (Except Diagnostic Token)) : front.length ≤ (front ++ more).length :=
      (List.sublist_append_left ..).length_le
    have agrees := (@program_decides E front.length _ _ (fits E.items) (fits E.items')).before [] front 0 isFront
      (Nat.le_refl _) fun _ _ => trivial
    rw [show program (inner (front ++ E.items).length) ⟨[], E.last⟩ ⟨front ++ E.items, 0⟩ = .error d from failed] at agrees
    unfold complete
    dsimp only
    generalize program (inner (front ++ E.items').length) ⟨[], E.last'⟩ ⟨front ++ E.items', 0⟩ = r at agrees ⊢
    cases agrees with
    | error => exact Or.inr rfl
    | failed _ late => exact Or.inl late

end Parser

/-- Whether a place is on no line up to some one. -/
def Location.IsBehindLine (count : Nat) (place : Location) : Prop :=
  ∃ span, place.span = some span ∧ count < span.line

namespace Source

variable {files : Files}

theorem readLines_front (progress : Progress) (lines : List Lexer.Line) :
    (readLines files progress lines).1 = [] ∨ Parser.IsFront (readLines files progress lines).1 := by
  refine (readLines_closed progress lines 0).imp_right fun ⟨close, closed⟩ => ⟨closed.nonempty, fun token last => ?_⟩
  obtain ⟨before, ends⟩ := closed.ends
  dsimp only at ends
  rw [ends, List.getLast?_concat] at last
  exact closed.lineEnd token (Option.some.inj last)

theorem WithoutImports.behind {progress : Progress} {lines later : List Lexer.Line}
    (alone : WithoutImports progress.inComment (lines ++ later)) :
    WithoutImports (progressAfter files progress lines).inComment later := by
  induction lines generalizing progress with
  | nil => exact alone
  | cons line others ih => exact ih (inComment_readLine files progress line ▸ alone.later)

theorem linesOf_append {path : Path} {text : String} {before behind : List (List Char)}
    (split : textLines text.toList = before ++ behind) :
    linesOf path text = before.mapIdx (fun index line => ⟨path.written, index + 1, line⟩) ++
      behind.mapIdx fun index line => ⟨path.written, index + before.length + 1, line⟩ := by
  rw [linesOf, split, List.mapIdx_append]

/-- What is read of lines behind some others stands behind these. -/
theorem readLines_behind {progress : Progress} {path : Path} {count : Nat} {lines : List (List Char)}
    (alone : WithoutImports progress.inComment (lines.mapIdx fun index line => ⟨path.written, index + count + 1, line⟩)) :
    ∀ item ∈ (readLines files progress (lines.mapIdx fun index line => ⟨path.written, index + count + 1, line⟩)).1,
      Parser.IsAt (Location.IsBehindLine count) item := by
  intro item member
  refine (readLines_shown alone item member).mono fun place shown => ?_
  obtain ⟨line, among, _, span, spanned, onLine⟩ := shown.onLine
  obtain ⟨index, _, rfl⟩ := List.mem_mapIdx.mp among
  exact ⟨span, spanned, onLine ▸ Nat.lt_succ_of_le (Nat.le_add_left ..)⟩

end Source

theorem eq_error_of_map {ε α β : Type} {x : Except ε α} {f : α → β} {fault : ε} (failed : x.map f = .error fault) :
    x = .error fault := by
  cases x with
  | ok _ => contradiction
  | error other => exact congrArg Except.error (Except.error.inj failed)

namespace TokenStream

variable {files : Files} {path : Path} {text : String}

theorem ofText_alone (alone : Source.WithoutImports false (Source.linesOf path text)) :
    ofText files path text = ⟨(Source.opened files path text).1, Source.fileEnd path (Source.linesOf path text).length⟩ := by
  refine ofText_eq files path text ?_
  rw [Source.opened, Source.readLines_alone alone _ .empty]
  rfl

theorem program_eq_error {stream : TokenStream} {d : Diagnostic} :
    stream.program = .error d ↔ Parser.complete Parser.program ⟨[], stream.fileEnd⟩ ⟨stream.items, 0⟩ = .error d := by
  refine ⟨eq_error_of_map, fun failed => ?_⟩
  rw [program, failed]
  rfl

/-- A text is read from its first lines on. -/
theorem exists_items_of_lines {lines later : List Lexer.Line} (split : Source.linesOf path text = lines ++ later) :
    ∃ items, (ofText files path text).items =
      (Source.readLines files ⟨ImportQueue.empty.visit (files.identify path), false⟩ lines).1 ++ items := by
  unfold ofText
  dsimp only
  rw [split, Source.readLines_append, List.append_assoc]
  exact ⟨_, rfl⟩

/-- A fault that parsing finds on some line of a text depends on nothing behind that line. -/
theorem program_fault_of_lines {text' : String} {d : Diagnostic} {place : Location} {span : Span}
    (alone : Source.WithoutImports false (Source.linesOf path text)) (failed : (ofText files path text).program = .error d)
    (located : d.location = some place) (spanned : place.span = some span)
    (inText : span.line ≤ (textLines text.toList).length)
    (same : (textLines text.toList).take span.line <+: textLines text'.toList) :
    (ofText files path text').program = .error d := by
  obtain ⟨behind', split'⟩ := same
  -- Both texts have the same lines up to the fault, and what is read of the others stands on later lines.
  have lines := @Source.linesOf_append path _ _ _ (List.take_append_drop span.line (textLines text.toList)).symm
  have lines' := @Source.linesOf_append path _ _ _ split'.symm
  rw [List.length_take_of_le inText] at lines
  generalize List.mapIdx _ (List.take span.line _) = first at lines lines'
  obtain ⟨items', stream'⟩ := @exists_items_of_lines files _ _ _ _ lines'
  have aloneBehind := @Source.WithoutImports.behind files ⟨ImportQueue.empty.visit (files.identify path), false⟩ _ _
    (lines ▸ alone)
  have lastBehind : (Source.fileEnd path (Source.linesOf path text).length).location.IsBehindLine span.line := by
    refine ⟨_, rfl, ?_⟩
    rw [Source.linesOf, List.length_mapIdx]
    exact Nat.lt_succ_of_le inText
  have opened : (Source.opened files path text).1 = _ :=
    (congrArg (fun lines => (Source.readLines files _ lines).1) lines).trans (Source.readLines_append ..)
  rw [program_eq_error, ofText_alone alone, opened] at failed
  have decided := @Parser.program_fault ⟨Location.IsBehindLine span.line, _, _, items', (ofText files path text').fileEnd,
    Source.readLines_behind aloneBehind, lastBehind⟩ _ (Source.readLines_front _ first) _ failed
  rw [program_eq_error, stream']
  refine decided.resolve_left fun late => ?_
  obtain ⟨span', spanned', behind⟩ := late.here place located
  rw [spanned] at spanned'
  exact absurd behind (Option.some.inj spanned' ▸ Nat.lt_irrefl _)

/-- A conditional, behind which `sonst` might stand, and a line that begins nothing. -/
def signBehindConditional : String :=
  "wenn wahr:\n.\n+ 1\n"

theorem signBehindConditional_fault :
    ∃ d, d = Diagnostic.mk (.unexpectedToken "an expression" "'+'") (some ⟨some "satz", some (.onLine 3 1 2), some "+"⟩) ∧
      (ofText .none ⟨"satz"⟩ signBehindConditional).program = .error d ∧
      (ofText .none ⟨"satz"⟩ (signBehindConditional ++ "sonst \"")).program = .error d := by
  have alone : Source.WithoutImports false (Source.linesOf ⟨"satz"⟩ signBehindConditional) := by
    unfold Source.WithoutImports
    decide +kernel
  have computed : (ofText .none ⟨"satz"⟩ signBehindConditional).program.map (fun _ => ()) =
      .error ⟨.unexpectedToken "an expression" "'+'", some ⟨some "satz", some (.onLine 3 1 2), some "+"⟩⟩ := by
    rw [ofText_alone alone]
    decide +kernel
  have failed := eq_error_of_map computed
  exact ⟨_, rfl, failed, program_fault_of_lines alone failed rfl rfl (by decide +kernel) (by decide +kernel)⟩

end TokenStream

end Satzbau

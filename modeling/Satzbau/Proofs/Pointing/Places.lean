import Satzbau.Proofs.Composing.Files
import Satzbau.Proofs.Partition.Streams

namespace Satzbau

/-- Where a fault says that something was defined first. -/
def Fault.first? : Fault → Option Location
  | .duplicateDefinition _ _ first => some first
  | _ => none

/-- Whether all places that a diagnostic shows are of some kind. What is internal is found nowhere. -/
structure Diagnostic.PointsAt (fact : Location → Prop) (d : Diagnostic) : Prop where
  here : ∀ place, d.location = some place → fact place
  nowhere : d.location = none → d.fault.category = .internal
  first : ∀ place, d.fault.first? = some place → fact place

namespace Diagnostic.PointsAt

variable {fact fact' : Location → Prop}

theorem located {place : Location} {fault : Fault} (known : fact place) (plain : fault.first? = none) :
    (Diagnostic.located place fault).PointsAt fact :=
  ⟨fun _ same => Option.some.inj same ▸ known, nofun, fun _ same => nomatch plain.symm.trans same⟩

theorem unlocated {fault : Fault} (internal : fault.category = .internal) (plain : fault.first? = none) :
    (Diagnostic.unlocated fault).PointsAt fact :=
  ⟨nofun, fun _ => internal, fun _ same => nomatch plain.symm.trans same⟩

theorem mono {d : Diagnostic} (points : d.PointsAt fact) (better : ∀ place, fact place → fact' place) : d.PointsAt fact' :=
  ⟨fun place same => better place (points.here place same), points.nowhere,
    fun place same => better place (points.first place same)⟩

end Diagnostic.PointsAt

/-- Whether an item is at a place of some kind: a token there, or a fault that points there. -/
def Parser.IsAt (fact : Location → Prop) : Except Diagnostic Token → Prop
  | .ok token => fact token.location
  | .error fault => fault.PointsAt fact

theorem Parser.IsAt.mono {fact fact' : Location → Prop} {item : Except Diagnostic Token} (isAt : IsAt fact item)
    (better : ∀ place, fact place → fact' place) : IsAt fact' item := by
  cases item with
  | ok token => exact better _ isAt
  | error fault => exact Diagnostic.PointsAt.mono isAt better

namespace Lexer

variable {line : Line} {column : Nat} {text : List Char} {place : Location}

/-- Whether a place holds some characters of a stretch of a line that begins in a column, and at least one of them. -/
def Line.Selects (line : Line) (column : Nat) (text : List Char) (place : Location) : Prop :=
  ∃ before piece behind, text = before ++ piece ++ behind ∧ piece ≠ [] ∧
    place = line.location (column + before.length) piece

theorem Line.Selects.behind {skipped : List Char} (selects : line.Selects (column + skipped.length) text place) :
    line.Selects column (skipped ++ text) place := by
  obtain ⟨before, piece, behind, rfl, nonempty, rfl⟩ := selects
  exact ⟨skipped ++ before, piece, behind, by simp, nonempty, by rw [List.length_append, Nat.add_assoc]⟩

/-- The characters of a stretch from one on. -/
theorem Line.selects_slice (line : Line) (column : Nat) {before length : Nat} (inside : before < text.length)
    (positive : 0 < length) :
    line.Selects column text (line.location (column + before) ((text.drop before).take length)) := by
  refine ⟨text.take before, (text.drop before).take length, (text.drop before).drop length, ?_, ?_, ?_⟩
  · rw [List.append_assoc, List.take_append_drop, List.take_append_drop]
  · rw [← List.length_pos_iff, List.length_take, List.length_drop]
    omega
  · rw [List.length_take_of_le inside.le]

theorem extend_badEscape {n before : Nat} {value c : Char} {read : Except QuotedFault Quoted}
    (failed : Quoted.extend n value read = .error (.badEscape before c)) :
    ∃ inner, read = .error (.badEscape inner c) ∧ before = inner + n := by
  match read with
  | .ok _ => cases failed
  | .error .unterminated => cases failed
  | .error (.badEscape inner _) =>
    cases failed
    exact ⟨inner, rfl, rfl⟩

/-- A wrong escape has its backslash behind the opening quote. -/
theorem badEscape_lt {text : List Char} {before : Nat} {c : Char} (failed : quoted text = .error (.badEscape before c)) :
    before < text.length := by
  fun_induction quoted text generalizing before with
  | case1 => cases failed
  | case2 => cases failed
  | case3 _ rest _ _ ih =>
    obtain ⟨inner, failedInside, rfl⟩ := extend_badEscape failed
    exact Nat.add_lt_add_right (ih failedInside) 2
  | case4 =>
    cases failed
    exact Nat.succ_pos _
  | case5 => contradiction
  | case6 _ rest _ _ _ ih =>
    obtain ⟨inner, failedInside, rfl⟩ := extend_badEscape failed
    exact Nat.add_lt_add_right (ih failedInside) 1

/-- A flaw is found in characters that are there, and nowhere else. -/
theorem lexeme_flaw {c : Char} {rest : List Char} {flaw : Flaw} (failed : lexeme c rest = .error flaw) :
    flaw.before < rest.length + 1 ∧ 0 < flaw.length ∧ flaw.fault.first? = none := by
  unfold lexeme at failed
  split at failed
  · split at failed
    · contradiction
    · cases failed
      exact ⟨Nat.succ_pos _, Nat.succ_pos _, rfl⟩
    · rename_i badEscape
      cases failed
      exact ⟨Nat.succ_lt_succ (badEscape_lt badEscape), Nat.succ_pos _, rfl⟩
  · split at failed
    · contradiction
    · split at failed
      · contradiction
      · split at failed
        · contradiction
        · cases failed
          exact ⟨Nat.succ_pos _, Nat.one_pos, rfl⟩

/-- Whether the tokens that were read, or the fault that was found, are at places of some kind. -/
def AllAt (fact : Location → Prop) : Except Diagnostic (List Token) → Prop
  | .ok tokens => ∀ t ∈ tokens, fact t.location
  | .error fault => fault.PointsAt fact

theorem AllAt.mono {fact fact' : Location → Prop} {read : Except Diagnostic (List Token)} (atAll : AllAt fact read)
    (better : ∀ place, fact place → fact' place) : AllAt fact' read := by
  cases read with
  | ok tokens => exact fun t member => better _ (atAll t member)
  | error fault => exact Diagnostic.PointsAt.mono atAll better

theorem AllAt.cons {fact : Location → Prop} {t : Token} {read : Except Diagnostic (List Token)} (first : fact t.location)
    (others : AllAt fact read) : AllAt fact (read.map (t :: ·)) := by
  cases read with
  | ok tokens => exact List.forall_mem_cons.mpr ⟨first, others⟩
  | error fault => exact others

/-- What is read of a stretch of a line, or found wrong with it, stands in it. -/
theorem tokensFrom_selects (line : Line) (column : Nat) (inComment : Bool) (text : List Char) :
    AllAt (line.Selects column text) (line.tokensFrom column inComment text).1 := by
  fun_induction line.tokensFrom column inComment text
  case case1 => exact List.forall_mem_nil _
  case case2 column c rest closes ih =>
    rw [eq_cons_tail closes.2]
    exact ih.mono fun _ selects => @Line.Selects.behind line column _ _ [c, '/'] selects
  case case3 column c rest _ ih => exact ih.mono fun _ selects => @Line.Selects.behind line column _ _ [c] selects
  case case4 column _ c rest _ _ ih => exact ih.mono fun _ selects => @Line.Selects.behind line column _ _ [c] selects
  case case5 => exact List.forall_mem_nil _
  case case6 column _ c rest _ _ _ opens ih =>
    rw [eq_cons_tail opens.2]
    exact ih.mono fun _ selects => @Line.Selects.behind line column _ _ [c, '*'] selects
  case case7 column _ c rest _ _ _ _ flaw failed =>
    obtain ⟨inside, positive, plain⟩ := lexeme_flaw failed
    exact .located (line.selects_slice column inside positive) plain
  case case8 column _ c rest _ _ _ _ kind length found token later ih =>
    obtain ⟨positive, bound⟩ := lexeme_length found
    have first : line.Selects column (c :: rest) token.location :=
      @Line.selects_slice (c :: rest) line column 0 length (Nat.succ_pos _) positive
    have whole : (c :: rest).take length ++ rest.drop (length - 1) = c :: rest := by
      rw [← List.drop_cons positive, List.take_append_drop]
    have others : AllAt (line.Selects column (c :: rest)) later.1 := ih.mono fun place selects => by
      rw [← whole]
      refine .behind ?_
      rwa [List.length_take_of_le bound]
    exact .cons first others

/-- A place on a line: some of its characters, or the end behind its last token. -/
inductive Line.Shows (line : Line) (inComment : Bool) : Location → Prop
  | characters {place : Location} (selected : line.Selects 1 line.text place) : line.Shows inComment place
  | lineEnd {earlier : List Token} {last : Token} (read : (line.tokens inComment).1 = .ok (earlier ++ [last])) :
    line.Shows inComment ⟨some line.file, some ⟨last.span.stop, last.span.stop⟩, some "\n"⟩

theorem Line.tokens_onLine {inComment : Bool} {tokens : List Token} (read : (line.tokens inComment).1 = .ok tokens) {t : Token}
    (member : t ∈ tokens) : t.file = line.file ∧ t.span.line = line.number ∧ t.span.stop.line = line.number := by
  have selects := tokensFrom_selects line 1 inComment line.text
  rw [show (line.tokensFrom 1 inComment line.text).1 = .ok tokens from read] at selects
  obtain ⟨_, _, _, _, _, place⟩ := selects t member
  obtain ⟨file, span, _⟩ := Location.mk.inj place
  rw [Option.some.inj span]
  exact ⟨Option.some.inj file, rfl, rfl⟩

theorem Line.Shows.onLine {inComment : Bool} (shows' : line.Shows inComment place) :
    place.file = some line.file ∧ ∃ span, place.span = some span ∧ span.line = line.number := by
  cases shows' with
  | characters selected =>
    obtain ⟨_, _, _, _, _, rfl⟩ := selected
    exact ⟨rfl, _, rfl, rfl⟩
  | lineEnd read => exact ⟨rfl, _, rfl, (tokens_onLine read (by simp)).2.2⟩

theorem Line.shows_lineEnd {inComment : Bool} {tokens : List Token} (read : (line.tokens inComment).1 = .ok tokens)
    (nonempty : tokens ≠ []) : line.Shows inComment (line.lineEnd tokens).location := by
  obtain ⟨earlier, last, rfl⟩ := (List.eq_nil_or_concat' tokens).resolve_left nonempty
  have stop : Span.onLine line.number last.span.stop.column last.span.stop.column = ⟨last.span.stop, last.span.stop⟩ := by
    rw [← (tokens_onLine read (by simp : last ∈ earlier ++ [last])).2.2]
    rfl
  have ends : (line.lineEnd (earlier ++ [last])).location = ⟨some line.file, some ⟨last.span.stop, last.span.stop⟩, some "\n"⟩ := by
    simp [lineEnd, Token.location, stop]
  exact ends ▸ .lineEnd read

end Lexer

namespace Source

variable {files : Files}

/-- A place on one of some lines. `inComment` says whether a block comment is open before them. -/
def Shown : Bool → List Lexer.Line → Location → Prop
  | _, [], _ => False
  | inComment, line :: later, place => line.Shows inComment place ∨ Shown (line.tokens inComment).2 later place

theorem Shown.onLine {inComment : Bool} {lines : List Lexer.Line} {place : Location} (shown : Shown inComment lines place) :
    ∃ line ∈ lines, place.file = some line.file ∧ ∃ span, place.span = some span ∧ span.line = line.number := by
  induction lines generalizing inComment with
  | nil => contradiction
  | cons line later ih =>
    rcases shown with onFirst | onLater
    · exact ⟨line, List.mem_cons_self .., onFirst.onLine⟩
    · obtain ⟨other, among, located⟩ := ih onLater
      exact ⟨other, List.mem_cons_of_mem _ among, located⟩

/-- What is read of a line that imports nothing, or found wrong with it, stands on it. -/
theorem readLine_shown {progress : Progress} {line : Lexer.Line}
    (alone : ∀ tokens, (line.tokens progress.inComment).1 = .ok tokens → importTarget? tokens = none) :
    ∀ item ∈ (readLine files progress line).1, Parser.IsAt (line.Shows progress.inComment) item := by
  have selects := Lexer.tokensFrom_selects line 1 progress.inComment line.text
  rw [show line.tokensFrom 1 progress.inComment line.text = line.tokens progress.inComment from rfl] at selects
  cases result : line.tokens progress.inComment with | mk outcome after
  rw [result] at selects alone
  cases outcome with
  | error fault =>
    rw [readLine_fault result]
    exact List.forall_mem_singleton.mpr (Diagnostic.PointsAt.mono selects fun _ => .characters)
  | ok tokens =>
    rw [readLine_ended result (alone tokens rfl)]
    intro item member
    obtain ⟨t, among, rfl⟩ := List.mem_map.mp member
    cases tokens with
    | nil => contradiction
    | cons first others =>
      rcases List.mem_append.mp among with inLine | atEnd
      · exact .characters (selects t inLine)
      · rw [List.mem_singleton.mp atEnd]
        exact Lexer.Line.shows_lineEnd (congrArg Prod.fst result) (List.cons_ne_nil _ _)

/-- What is read of lines that import nothing, or found wrong with them, stands on them. -/
theorem readLines_shown {progress : Progress} {lines : List Lexer.Line} (alone : WithoutImports progress.inComment lines) :
    ∀ item ∈ (readLines files progress lines).1, Parser.IsAt (Shown progress.inComment lines) item := by
  induction lines generalizing progress with
  | nil =>
    intro item member
    contradiction
  | cons line later ih =>
    intro item member
    rcases List.mem_append.mp member with onFirst | onLater
    · exact (readLine_shown (fun _ => alone.first) item onFirst).mono fun _ => Or.inl
    · have same := inComment_readLine files progress line
      have shown := @ih (readLine files progress line).2 (same ▸ alone.later) item onLater
      rw [same] at shown
      exact shown.mono fun _ => Or.inr

end Source

end Satzbau

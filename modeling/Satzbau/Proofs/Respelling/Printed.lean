import Satzbau.Proofs.Constituents.Order
import Satzbau.Proofs.Parsing.Continued
import Satzbau.Proofs.Respelling.Dictionaries

namespace Satzbau

/-- A form that has a place is the spelling of a noun among the tokens. -/
theorem Fills.noun_of_form {tokens : List Token} {slots : List Slot} (fills : Fills tokens slots) {form : String}
    (member : .form form ∈ slots) : ∃ t ∈ tokens, t.kind = .noun ∧ t.text = form := by
  have later {t : Token} {ts : List Token} (found : ∃ u ∈ ts, u.kind = .noun ∧ u.text = form) :
      ∃ u ∈ t :: ts, u.kind = .noun ∧ u.text = form := by
    obtain ⟨u, inside, known⟩ := found
    exact ⟨u, List.mem_cons_of_mem t inside, known⟩
  induction fills with
  | nil => contradiction
  | placeless _ _ ih => exact later (ih member)
  | token _ ih => exact later (ih ((List.mem_cons.mp member).resolve_left nofun))
  | loopIn _ _ _ ih => exact later (ih ((List.mem_cons.mp member).resolve_left nofun))
  | form noun _ ih =>
    rcases List.mem_cons.mp member with same | inLater
    · cases same
      exact ⟨_, List.mem_cons_self .., noun, rfl⟩
    · exact later (ih inLater)

theorem Program.definition_mem_of_inline {p : Program} {token : Token} {d : Declension}
    (spelled : (token, d) ∈ p.inlineDeclensions) : .declension ⟨token, .inline d⟩ ∈ p.definitions := by
  obtain ⟨⟨token', source⟩, among, isInline⟩ := List.mem_filterMap.mp spelled
  obtain ⟨definition, member, isDeclension⟩ := List.mem_filterMap.mp among
  cases source with
  | external word => contradiction
  | inline d' =>
    cases isInline
    cases definition with
    | declension other =>
      cases isDeclension
      exact member
    | function _ => contradiction
    | noun _ => contradiction
    | implementation _ => contradiction

/-- The forms of a declension that a program spells out have places in the program. -/
theorem Program.form_mem_slots {p : Program} {token : Token} {d : Declension} (spelled : (token, d) ∈ p.inlineDeclensions)
    {form : String} (member : form ∈ d.forms) : .form form ∈ slotsOf p.constituents := by
  have defined := Program.definition_mem_of_inline spelled
  have kept : Constituent.form form ∈ p.constituents := by
    refine List.mem_append_left _ (List.mem_flatMap.mpr ⟨_, defined, ?_⟩)
    exact List.mem_cons_of_mem _ (List.mem_map_of_mem member)
  exact List.mem_flatMap.mpr ⟨_, kept, List.mem_singleton_self _⟩

namespace Source

/-- A text without line feeds is one line. -/
theorem linesOf_of_not_mem (path : Path) {text : String} (nonempty : text.toList ≠ []) (noEnd : '\n' ∉ text.toList) :
    linesOf path text = [⟨path.written, 1, text.toList⟩] := by
  rw [linesOf_eq_mapIdx, (linesWithEnds_of_not_mem noEnd).2 nonempty, List.mapIdx_cons, withoutLineEnd_of_not_mem noEnd]
  rfl

/-- What a declension is printed as is read as the tokens of the declension and the end of their line. -/
theorem opened_declension {d : Declension} (nouns : ∀ form ∈ d.forms, Lexer.IsNoun form) (files : Files) (path : Path) :
    ∃ statement tokens lineEnd, statement.kind = .keyword .declension ∧ tokens.map Token.reading = d.reading ∧
      lineEnd.kind = .lineEnd ∧ opened files path d.text =
        (Parser.closedBy lineEnd (statement :: tokens), ImportQueue.empty.visit (files.identify path)) := by
  have isContent := isContent_text fun form member => (nouns form member).noEnd
  obtain ⟨c, rest, spelled, _⟩ := isContent.first
  have same : withoutLineEnd (replaceContent d.text.toList []) = d.text.toList := by
    have alone : replaceContent d.text.toList [] = d.text.toList := List.append_nil _
    rw [alone, withoutLineEnd_of_not_mem isContent.noEnd]
  obtain ⟨statement, tokens, isStatement, _, reads, read⟩ :=
    @readLine_declension ⟨path.written, 1, d.text.toList⟩ d nouns [] same.symm files
      (ImportQueue.empty.visit (files.identify path))
  refine ⟨statement, tokens, Lexer.Line.lineEnd ⟨path.written, 1, d.text.toList⟩ (statement :: tokens), isStatement, reads, rfl, ?_⟩
  rw [opened, linesOf_of_not_mem path (spelled ▸ List.cons_ne_nil c rest) isContent.noEnd, readLines, read]
  dsimp only
  rw [readLines, List.append_nil]

end Source

namespace Parser

variable {scope : Scope} {id : NodeId}

/-- A line with a declension is a program. -/
theorem program_declension (atEnd : scope.fileEnd.kind = .fileEnd) {statement lineEnd : Token} {tokens : List Token}
    {d : Declension} (isStatement : statement.kind = .keyword .declension) (reads : tokens.map Token.reading = d.reading)
    (ends : lineEnd.kind = .lineEnd) (size : Nat) :
    program (inner (size + 1)) scope ⟨closedBy lineEnd (statement :: tokens), id⟩ =
      .ok (⟨[.declension ⟨statement, .inline d⟩], []⟩, ⟨[], id⟩) := by
  have items : closedBy lineEnd (statement :: tokens) = (statement :: tokens).map .ok ++ [.ok lineEnd] := List.map_append
  have seen : peek scope ⟨closedBy lineEnd (statement :: tokens), id⟩ =
      .ok (statement, ⟨closedBy lineEnd (statement :: tokens), id⟩) := rfl
  unfold program
  rw [bind_ok (skipLineEnds_elsewhere seen (by simp [isStatement]))]
  dsimp only
  rw [bind_ok seen, isStatement]
  dsimp only
  rw [items, bind_ok (declension_reading isStatement reads), bind_ok (endStatement_cons ends)]
  have nothing : (inner (size + 1)).program scope ⟨[], id⟩ = .ok (.empty, ⟨[], id⟩) := program_nil atEnd _
  rw [bind_ok nothing]
  rfl

end Parser

namespace TokenStream

/-- A declension is read back from what it is printed as. -/
theorem program_ofText_declension {d : Declension} (nouns : ∀ form ∈ d.forms, Lexer.IsNoun form) (files : Files)
    (path : Path) : ∃ token, (ofText files path d.text).program = .ok ⟨[.declension ⟨token, .inline d⟩], []⟩ := by
  obtain ⟨statement, tokens, lineEnd, isStatement, reads, ends, opened⟩ := Source.opened_declension nouns files path
  have stream := ofText_eq files path d.text (by rw [opened]; rfl)
  rw [opened] at stream
  refine ⟨statement, program_eq_ok.mpr ⟨⟨[], 0⟩, ?_⟩⟩
  rw [stream]
  dsimp only
  have length : (Parser.closedBy lineEnd (statement :: tokens)).length = tokens.length + 1 + 1 := by
    simp [Parser.closedBy]
  rw [length]
  exact Parser.program_declension rfl isStatement reads ends _

variable {stream : TokenStream} {p : Program}

/-- The forms of a declension that is read are nouns. -/
theorem IsRead.isNoun_of_inline (read : stream.IsRead) (parsed : stream.program = .ok p) {token : Token} {d : Declension}
    (spelled : (token, d) ∈ p.inlineDeclensions) : ∀ form ∈ d.forms, Lexer.IsNoun form := by
  intro form member
  obtain ⟨tokens, order, items, fills, places, _⟩ := read.program_keeps_tokens parsed
  have placed := places.mem_iff.mpr (Program.form_mem_slots spelled member)
  obtain ⟨noun, inside, isNoun, rfl⟩ := fills.noun_of_form placed
  have lexed : noun.Lexed := read.lexed.items noun (by rw [items]; exact List.mem_map_of_mem inside)
  have plain : noun.kind.isPlainWord = true := by rw [isNoun]; rfl
  refine Lexer.isNoun_of_lexed fun file span => ?_
  exact ⟨fun _ => lexed.letter plain, fun _ => lexed.characters plain, fun _ => lexed.noOperator plain,
    fun _ => (lexed.kind plain).trans isNoun⟩

/-- Declensions survive being printed and read. A declension whose forms are nouns is read back from what it is
printed as, and so is every declension that a program spells out, and every entry of the dictionary that is built
of them. -/
theorem declension_survives_printing :
    (∀ d : Declension, (∀ form ∈ d.forms, Lexer.IsNoun form) → ∀ files path,
      ∃ token, (ofText files path d.text).program = .ok ⟨[.declension ⟨token, .inline d⟩], []⟩) ∧
    ∀ stream : TokenStream, stream.IsRead → ∀ p, stream.program = .ok p →
      (∀ token d, (token, d) ∈ p.inlineDeclensions → ∀ files path,
        ∃ token, (ofText files path d.text).program = .ok ⟨[.declension ⟨token, .inline d⟩], []⟩) ∧
      ∀ dictionary, Dictionary.ofInline p.inlineDeclensions = .ok dictionary → ∀ d ∈ dictionary.entries, ∀ files path,
        ∃ token, (ofText files path d.text).program = .ok ⟨[.declension ⟨token, .inline d⟩], []⟩ := by
  refine ⟨fun d nouns => program_ofText_declension nouns, fun stream read p parsed => ?_⟩
  have spelled (token : Token) (d : Declension) (inline : (token, d) ∈ p.inlineDeclensions) :=
    program_ofText_declension (read.isNoun_of_inline parsed inline)
  refine ⟨spelled, fun dictionary built d member => ?_⟩
  have among := (Dictionary.Gains.foldlM built).perm.mem_iff.mp member
  rw [show Dictionary.empty.entries = [] from rfl, List.append_nil] at among
  obtain ⟨⟨token, _⟩, inline, rfl⟩ := List.mem_map.mp among
  exact spelled token _ inline

/-- A noun with letters beyond the plain ones, a digit and an underscore, all forms of a number alike. -/
def groesse : Declension :=
  ⟨.feminine, ⟨"Größe_2", "Größe_2", "Größe_2", "Größe_2"⟩, ⟨"Größen_2", "Größen_2", "Größen_2", "Größen_2"⟩⟩

theorem groesse_survives_printing : (∀ form ∈ groesse.forms, Lexer.IsNoun form) ∧
    (∃ token, (ofText .none ⟨"satz"⟩ groesse.text).program = .ok ⟨[.declension ⟨token, .inline groesse⟩], []⟩) ∧
    ∃ p token d, (ofText .none ⟨"satz"⟩ readingTheBooks).program = .ok p ∧ (token, d) ∈ p.inlineDeclensions ∧
      ∃ token', (ofText .none ⟨"satz"⟩ d.text).program = .ok ⟨[.declension ⟨token', .inline d⟩], []⟩ := by
  have nouns : ∀ form ∈ groesse.forms, Lexer.IsNoun form := by
    have known : ∀ form ∈ groesse.forms, form.toList.head?.any isLetter = true ∧
        form.toList.all Lexer.isWordCharacter = true ∧ Operator.ofWord? form = none ∧
          Lexer.plainWordKind form = .noun := by
      decide +kernel
    intro form member
    obtain ⟨letter, characters, noOperator, isNoun⟩ := known form member
    exact Lexer.isNoun_of_lexed (lexed_of_spelling letter characters noOperator isNoun)
  have stream := ofText_eq .none ⟨"satz"⟩ readingTheBooks (by decide +kernel)
  have computed : ((ofText .none ⟨"satz"⟩ readingTheBooks).program.map fun p =>
      p.inlineDeclensions.length).toOption = some 1 := by
    rw [stream]
    decide +kernel
  obtain ⟨p, parsed, single⟩ := exists_ok_of_view computed
  obtain ⟨⟨token, d⟩, only⟩ := List.length_eq_one_iff.mp single
  have spelled : (token, d) ∈ p.inlineDeclensions := by rw [only]; exact List.mem_singleton_self _
  exact ⟨nouns, declension_survives_printing.1 groesse nouns .none ⟨"satz"⟩, p, token, d, parsed, spelled,
    (declension_survives_printing.2 _ (.ofText ..) p parsed).1 token d spelled .none ⟨"satz"⟩⟩

end TokenStream

end Satzbau

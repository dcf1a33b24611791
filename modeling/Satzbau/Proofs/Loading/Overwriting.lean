import Satzbau.Proofs.Loading.Taking
import Satzbau.Proofs.Respelling.Rewritten

namespace Satzbau

namespace Files

/-- The line of a file with some index, together with the signs that end it, if there is such a line. -/
def line? (files : Files) (place : Place) (index : Nat) : Option (List Char) :=
  (files.textAt place).toOption.bind fun text => (linesWithEnds text.toList)[index]?

variable {files files' : Files} {w : Place → Nat → Option Declension}

theorem RespelledBy.line?_eq (respelled : files.RespelledBy w files') {place : Place} (writable : Writable (w place))
    (index : Nat) : files'.line? place index = (files.line? place index).map (respelledLine (w place) index) := by
  unfold line?
  rw [respelled.textAt]
  cases files.textAt place with
  | error fault => rfl
  | ok text =>
    have lines : linesWithEnds (respell (w place) text).toList = _ := linesWithEnds_respell writable text
    exact (congrArg (·[index]?) lines).trans List.getElem?_mapIdx

/-- A declension can be written into any line that there is. -/
theorem exists_writeDeclension {path : Path} {place : Place} {number index : Nat} {line : List Char}
    (resolved : files.resolve path = .ok place) (onLine : number = index + 1) (there : files.line? place index = some line)
    (d : Declension) : ∃ files', files.writeDeclension path number d = .ok files' := by
  subst onLine
  obtain ⟨text, read, inside⟩ := Option.bind_eq_some_iff.mp there
  have short := (List.getElem?_eq_some_iff.mp inside).1
  have replaced : ∃ changed, replaceLine text.toList (index + 1) d.text.toList = some changed := by
    unfold replaceLine
    rw [if_neg (by omega)]
    exact ⟨_, rfl⟩
  obtain ⟨changed, replaced⟩ := replaced
  unfold writeDeclension
  rw [resolved]
  dsimp only
  rw [eq_ok_of_toOption read]
  dsimp only
  rw [replaced]
  exact ⟨_, rfl⟩

/-- A line that is not as it was is the line of a request. -/
theorem Rewritten.exists_of_line?_ne {answers : String → Declension → Prop} {requests : List LookupRequest}
    (noEnds : ∀ word d, answers word d → ∀ form ∈ d.forms, '\n' ∉ form.toList)
    (rewritten : Rewritten answers requests w files files') {place : Place} {index : Nat}
    (changed : files'.line? place index ≠ files.line? place index) :
    ∃ r ∈ requests, files.resolve ⟨r.statement.file⟩ = .ok place ∧ r.statement.span.line = index + 1 := by
  have writable : Writable (w place) := fun number d known => by
    obtain ⟨_, _, answer, _⟩ := rewritten.asked place number d known
    exact isContent_text (noEnds _ d answer)
  cases known : w place (index + 1) with
  | none =>
    rw [rewritten.respelled.line?_eq writable] at changed
    unfold respelledLine at changed
    rw [known] at changed
    exact absurd Option.map_id' changed
  | some d =>
    obtain ⟨r, member, _, resolved, onLine⟩ := rewritten.asked place _ d known
    exact ⟨r, member, resolved, onLine⟩

/-- Files into which the answers to some requests are written one after the other, each into the line with the number
that the line of the request had. -/
inductive Overwritten (outcome : Outcomes) (files : Files) : List (LookupRequest × Nat) → Files → Prop
  | none : Overwritten outcome files [] files
  | next {done : List (LookupRequest × Nat)} {middle files' : Files} {r : LookupRequest} {index : Nat} {entry : Declension}
    (before : Overwritten outcome files done middle) (answered : outcome (r, index) = .ok entry)
    (wrote : middle.writeDeclension ⟨r.statement.file⟩ r.statement.span.line entry = .ok files') :
    Overwritten outcome files (done ++ [(r, index)]) files'

variable {outcome : Outcomes} {done : List (LookupRequest × Nat)}

/-- Answers without line feeds stand where they were written. -/
theorem Overwritten.rewritten (overwritten : files.Overwritten outcome done files')
    (noEnds : ∀ asked ∈ done, ∀ d, outcome asked = .ok d → ∀ form ∈ d.forms, '\n' ∉ form.toList) :
    ∃ w, files.Rewritten (fun _ d => ∀ form ∈ d.forms, '\n' ∉ form.toList) (done.map Prod.fst) w files' := by
  induction overwritten with
  | none => exact ⟨_, .refl files⟩
  | next _ answered wrote ih =>
    obtain ⟨w, rewritten⟩ := ih fun asked member => noEnds asked (List.mem_append_left _ member)
    rw [List.map_append]
    exact rewritten.write (fun _ _ noEnd => noEnd)
      (noEnds _ (List.mem_append_right _ (List.mem_singleton_self _)) _ answered) wrote

end Files

/-- Lookups that were taken in left their answers in the files. -/
theorem Dictionary.TakenIn.overwritten {outcome : Outcomes} {inline d : Dictionary} {files files' : Files}
    {done : List (LookupRequest × Nat)} {entries : List Declension}
    (taken : TakenIn true outcome inline files done entries d files') : files.Overwritten outcome done files' := by
  induction taken with
  | none => exact .none
  | next _ answered received _ ih =>
    cases received with
    | written wrote => exact .next ih answered wrote

def LoadingOptions.outcomes (options : LoadingOptions) : Outcomes :=
  fun asked => options.service.outcome options.timeout asked.1.word.text

namespace Program

variable {p : Program} {options : LoadingOptions} {files files' : Files}

/-- Whether the answer to a request is put into the dictionary before the load of a program returns. -/
def Inserts (p : Program) (options : LoadingOptions) (files : Files) (asked : LookupRequest × Nat) : Prop :=
  ∃ inline done entries d middle, Dictionary.ofInline p.inlineDeclensions = .ok inline ∧
    done <+: p.lookupRequests.zipIdx ∧
    Dictionary.TakenIn options.rewrite options.outcomes inline files done entries d middle ∧ asked ∈ done

/-- Whether a request is answered with an entry that the dictionary does not take, since it has one with the same
nominative from what the program spells out or from an earlier request. -/
def Refuses (p : Program) (options : LoadingOptions) (files : Files) (asked : LookupRequest × Nat) (entry : Declension) :
    Prop :=
  ∃ inline earlier entries d middle, Dictionary.ofInline p.inlineDeclensions = .ok inline ∧
    earlier ++ [asked] <+: p.lookupRequests.zipIdx ∧
    Dictionary.TakenIn options.rewrite options.outcomes inline files earlier entries d middle ∧
    options.outcomes asked = .ok entry ∧ d.Knows entry.nominative

/-- How the answer to a request comes to be written before the load of a program returns with some result: it is put
into the dictionary, or it is refused, which is why the load fails. -/
inductive Writes (p : Program) (options : LoadingOptions) (files : Files) (result : Except Diagnostic Dictionary)
    (asked : LookupRequest × Nat) : Prop
  | inserted (inserts : p.Inserts options files asked) : Writes p options files result asked
  | refused {entry : Declension} (refuses : p.Refuses options files asked entry)
    (fails : result = .error ⟨.duplicateDeclension entry.nominative, some asked.1.word.location⟩) :
    Writes p options files result asked

variable {result : Except Diagnostic Dictionary}

theorem dictionary_eq_loadEach_outcomes (p : Program) (options : LoadingOptions) :
    p.dictionary options = p.loadEach options.rewrite options.outcomes :=
  dictionary_eq_loadEach fun _ _ => rfl

theorem LoadsInOrder.ofDictionary (loaded : (p.dictionary options).run files = (result, files')) :
    p.LoadsInOrder options.rewrite options.outcomes files result files' := by
  have loads := loadsInOrder_loadEach p options.rewrite options.outcomes files
  rwa [← dictionary_eq_loadEach_outcomes, loaded] at loads

/-- A load overwrites for the requests that it answers, up to the first that fails. -/
theorem LoadsInOrder.overwritten (loads : p.LoadsInOrder options.rewrite options.outcomes files result files')
    (rewrites : options.rewrite = true) :
    ∃ done, done <+: p.lookupRequests.zipIdx ∧ files.Overwritten options.outcomes done files' ∧
      ∀ asked ∈ done, p.Writes options files result asked := by
  cases loads with
  | duplicate => exact ⟨[], List.nil_prefix, .none, fun _ impossible => absurd impossible List.not_mem_nil⟩
  | @lookups inline _ _ spelled takes =>
    have onlyInserted {done : List (LookupRequest × Nat)} {entries : List Declension} {d : Dictionary}
        (front : done <+: p.lookupRequests.zipIdx)
        (taken : Dictionary.TakenIn options.rewrite options.outcomes inline files done entries d files') :
        ∃ done, done <+: p.lookupRequests.zipIdx ∧ files.Overwritten options.outcomes done files' ∧
          ∀ asked ∈ done, p.Writes options files result asked :=
      ⟨done, front, (rewrites ▸ taken).overwritten, fun _ member =>
        .inserted ⟨inline, done, entries, d, files', spelled, front, taken, member⟩⟩
    cases takes with
    | complete all => exact onlyInserted (List.prefix_refl _) all
    | unanswered split before => exact onlyInserted ⟨_, split.symm⟩ before
    | unwritten split before => exact onlyInserted ⟨_, split.symm⟩ before
    | @rejected earlier later entries d middle _ r index entry split before answered received known =>
      have front : earlier <+: p.lookupRequests.zipIdx := ⟨_, split.symm⟩
      have longer : earlier ++ [(r, index)] <+: p.lookupRequests.zipIdx :=
        ⟨later, by rw [List.append_assoc]; exact split.symm⟩
      rw [rewrites] at received
      cases received with
      | written wrote =>
        refine ⟨_, longer, .next (rewrites ▸ before).overwritten answered wrote, fun asked member => ?_⟩
        obtain inserted | itself := List.mem_append.mp member
        · exact .inserted ⟨inline, earlier, entries, d, middle, spelled, front, before, inserted⟩
        · cases List.mem_singleton.mp itself
          exact .refused ⟨inline, earlier, entries, d, middle, spelled, longer, before, answered, known⟩ rfl

/-- If all answers are put into the dictionary, so is the last, and the load does not fail. -/
theorem Inserts.ok_of_last {r : LookupRequest} {number : Nat} (inserts : p.Inserts options files (r, number))
    (last : p.lookupRequests.length = number + 1) : ∃ d files', (p.dictionary options).run files = (.ok d, files') := by
  obtain ⟨inline, done, entries, d, files', spelled, front, taken, member⟩ := inserts
  obtain ⟨later, split⟩ := front
  have all : done = p.lookupRequests.zipIdx := by
    obtain ⟨i, inside⟩ := List.mem_iff_getElem?.mp member
    have short := (List.getElem?_eq_some_iff.mp inside).1
    have asked : p.lookupRequests.zipIdx[i]? = some (r, number) := by
      rw [← split, List.getElem?_append_left short, inside]
    have same := congrArg (Option.map Prod.snd) asked
    rw [List.getElem?_zipIdx, Option.map_map, Option.map_some] at same
    obtain ⟨_, _, at'⟩ := Option.map_eq_some_iff.mp same
    have atNumber : i = number := by simpa using at'
    have lengths := congrArg List.length split
    rw [List.length_append, List.length_zipIdx] at lengths
    obtain rfl : later = [] := List.eq_nil_of_length_eq_zero (by omega)
    rw [← split, List.append_nil]
  refine ⟨d, files', ?_⟩
  rw [dictionary_eq_loadEach_outcomes, loadEach_of_spelled spelled, ← all]
  exact taken.run

/-- Answers are written before they are put into the dictionary. What a load has overwritten when it returns are lines of
requests whose answers were put into the dictionary, and that of the one request whose answer the dictionary refused if
that is why the load failed. Where no answer goes on on another line, all other lines are as they were. -/
theorem dictionary_overwritten (rewrites : options.rewrite = true)
    (loaded : (p.dictionary options).run files = (result, files')) :
    ∃ done, done <+: p.lookupRequests.zipIdx ∧ files.Overwritten options.outcomes done files' ∧
      (∀ asked ∈ done, p.Writes options files result asked) ∧
      ((∀ asked ∈ done, ∀ d, options.outcomes asked = .ok d → ∀ form ∈ d.forms, '\n' ∉ form.toList) →
        ∀ place index, files'.line? place index ≠ files.line? place index →
          ∃ asked ∈ done, files.resolve ⟨asked.1.statement.file⟩ = .ok place ∧
            asked.1.statement.span.line = index + 1) := by
  obtain ⟨done, front, overwritten, all⟩ := (LoadsInOrder.ofDictionary loaded).overwritten rewrites
  refine ⟨done, front, overwritten, all, fun noEnds place index changed => ?_⟩
  obtain ⟨w, rewritten⟩ := overwritten.rewritten noEnds
  obtain ⟨r, member, resolved, onLine⟩ := rewritten.exists_of_line?_ne (fun _ _ noEnd => noEnd) changed
  obtain ⟨asked, among, rfl⟩ := List.mem_map.mp member
  exact ⟨asked, among, resolved, onLine⟩

end Program

/-- A program that asks for one word twice. -/
def twoTables : String :=
  "Deklination Duden(Tisch)\nDeklination Duden(Tisch)\n"

theorem twoTables_readable : Files.textAt (.single "moebel.gm" twoTables) ["moebel.gm"] = .ok twoTables :=
  eq_ok_of_toOption (by decide +kernel)

theorem twoTables_parsed :
    ∃ p r r', (TokenStream.ofQueue (.single "moebel.gm" twoTables) furnitureQueue).program = .ok p ∧
      Dictionary.ofInline p.inlineDeclensions = .ok .empty ∧ p.lookupRequests = [r, r'] ∧
      (r.statement.file = "/moebel.gm" ∧ r.statement.span.line = 1 ∧ r.word.text = "Tisch") ∧
      r'.statement.file = "/moebel.gm" ∧ r'.statement.span.line = 2 ∧ r'.word.text = "Tisch" := by
  have stream := @TokenStream.ofQueue_of_dequeue (.single "moebel.gm" twoTables) furnitureQueue
    ⟨[], [.found ["moebel.gm"]]⟩ _ _ rfl (by decide +kernel) twoTables_readable (by decide +kernel)
  have computed : ((TokenStream.ofQueue (.single "moebel.gm" twoTables) furnitureQueue).program.map fun p =>
      (p.inlineDeclensions.length,
        p.lookupRequests.map fun r => (r.statement.file, r.statement.span.line, r.word.text))).toOption =
      some (0, [("/moebel.gm", 1, "Tisch"), ("/moebel.gm", 2, "Tisch")]) := by
    rw [stream]
    decide +kernel
  obtain ⟨p, parsed, viewed⟩ := exists_ok_of_view computed
  obtain ⟨nothing, views⟩ := Prod.mk.inj viewed
  have spelled : Dictionary.ofInline p.inlineDeclensions = .ok .empty := by
    rw [List.eq_nil_of_length_eq_zero nothing]
    rfl
  obtain ⟨r, _, requests, view, views'⟩ := List.map_eq_cons_iff.mp views
  obtain ⟨r', _, rfl, view', views'⟩ := List.map_eq_cons_iff.mp views'
  obtain rfl := List.map_eq_nil_iff.mp views'
  simp only [Prod.mk.injEq] at view view'
  exact ⟨p, r, r', parsed, spelled, requests, view, view'⟩

theorem twoTables_refused :
    ∃ p location files', (TokenStream.ofQueue (.single "moebel.gm" twoTables) furnitureQueue).program = .ok p ∧
      (p.dictionary askingForTables).run (.single "moebel.gm" twoTables) =
        (.error ⟨.duplicateDeclension "Tisch", some location⟩, files') ∧
      p.lookupRequests.map (fun r => (r.statement.file, r.statement.span.line, r.word.text)) =
        [("/moebel.gm", 1, "Tisch"), ("/moebel.gm", 2, "Tisch")] ∧
      files'.line? ["moebel.gm"] 1 = some (tisch.text.toList ++ ['\n']) := by
  obtain ⟨p, r, r', parsed, spelled, requests, ⟨file, onLine, word⟩, file', onLine', word'⟩ := twoTables_parsed
  -- Both requests are answered and written, but the dictionary takes only the first answer.
  have answer {word : String} (isTable : word = "Tisch") :
      askingForTables.service.outcome askingForTables.timeout word = .ok tisch := by
    subst isTable
    rfl
  have noEnds (word : String) (d : Declension) (isTable : d = tisch) : ∀ form ∈ d.forms, '\n' ∉ form.toList := by
    subst isTable
    decide +kernel
  have line (index : Nat) (inside : index < 2) : Files.line? (.single "moebel.gm" twoTables) ["moebel.gm"] index =
      some ("Deklination Duden(Tisch)\n".toList) := by
    unfold Files.line?
    rw [twoTables_readable]
    revert index
    decide +kernel
  have resolved {other : String} (same : other = "/moebel.gm") :
      Files.resolve (.single "moebel.gm" twoTables) ⟨other⟩ = .ok ["moebel.gm"] := by
    subst same
    exact eq_ok_of_toOption (by decide +kernel)
  obtain ⟨once, wrote⟩ := Files.exists_writeDeclension (resolved file) onLine (line 0 (by decide)) tisch
  obtain ⟨w, rewritten⟩ := (Files.Rewritten.refl _).write noEnds rfl wrote
  have writable {requests : List LookupRequest} {w : Place → Nat → Option Declension} {files' : Files}
      (rewritten : Files.Rewritten (fun _ d => d = tisch) requests w (.single "moebel.gm" twoTables) files') :
      Writable (w ["moebel.gm"]) := fun number d known => by
    obtain ⟨_, _, isTable, _⟩ := rewritten.asked _ number d known
    exact isContent_text (noEnds "" d isTable)
  have line' := rewritten.respelled.line?_eq (writable rewritten) 1
  rw [line 1 (by decide)] at line'
  obtain ⟨twice, wrote'⟩ :=
    Files.exists_writeDeclension ((rewritten.respelled.resolve _).trans (resolved file')) onLine' line' tisch
  obtain ⟨w', rewritten'⟩ := rewritten.write noEnds rfl wrote'
  refine ⟨p, r'.word.location, twice, parsed, ?_, ?_, ?_⟩
  · have first : Dictionary.TakenIn true askingForTables.outcomes .empty (.single "moebel.gm" twoTables) [(r, 0)] [tisch]
        ⟨[tisch]⟩ once := .next .none (answer word) (.written wrote) rfl
    have refused : (Dictionary.mk [tisch]).insertAt r'.word tisch =
        .error ⟨.duplicateDeclension "Tisch", some r'.word.location⟩ := by
      have known : (Dictionary.mk [tisch]).insert tisch = .error (.duplicateDeclension "Tisch") := by decide +kernel
      rw [Dictionary.insertAt, known]
      rfl
    have split : [r, r'].zipIdx = [(r, 0)] ++ [(r', 1)] := rfl
    have second : askingForTables.outcomes (r', 1) = .ok tisch := answer word'
    have rewrites : askingForTables.rewrite = true := rfl
    rw [p.dictionary_eq_loadEach_outcomes, Program.loadEach_of_spelled spelled, requests, split, rewrites,
      Dictionary.takeEach_append, first.run]
    dsimp only
    rw [Dictionary.takeEach_cons, second, Dictionary.takeIn_ok_eq (.written wrote'), refused]
  · rw [requests, List.map_cons, List.map_singleton, file, onLine, word, file', onLine', word']
  · obtain ⟨place, found, isWritten⟩ := rewritten'.written r' (List.mem_append_right _ (List.mem_singleton_self _))
    rw [resolved file'] at found
    cases found
    rw [onLine'] at isWritten
    obtain ⟨d, known⟩ := Option.isSome_iff_exists.mp isWritten
    obtain ⟨_, _, rfl, _⟩ := rewritten'.asked _ 2 d known
    rw [rewritten'.respelled.line?_eq (writable rewritten'), line 1 (by decide), Option.map_some]
    unfold respelledLine replaceContent
    rw [known]
    have content : (lineContent "Deklination Duden(Tisch)\n".toList).takeWhile isBlank = [] := by decide +kernel
    have ending : lineEnding "Deklination Duden(Tisch)\n".toList = ['\n'] := by decide +kernel
    dsimp only
    rw [content, ending, List.nil_append]

/-- The line of a declension that is refused is overwritten all the same. -/
theorem refused_table_overwritten :
    ∃ p location files', (TokenStream.ofQueue (.single "moebel.gm" twoTables) furnitureQueue).program = .ok p ∧
      (p.dictionary askingForTables).run (.single "moebel.gm" twoTables) =
        (.error ⟨.duplicateDeclension "Tisch", some location⟩, files') ∧
      p.lookupRequests.map (fun r => (r.statement.file, r.statement.span.line, r.word.text)) =
        [("/moebel.gm", 1, "Tisch"), ("/moebel.gm", 2, "Tisch")] ∧
      (∀ r, ¬p.Inserts askingForTables (.single "moebel.gm" twoTables) (r, 1)) ∧
      Files.line? (.single "moebel.gm" twoTables) ["moebel.gm"] 1 = some "Deklination Duden(Tisch)\n".toList ∧
      files'.line? ["moebel.gm"] 1 = some (tisch.text.toList ++ ['\n']) := by
  obtain ⟨p, location, files', parsed, failed, requests, written⟩ := twoTables_refused
  refine ⟨p, location, files', parsed, failed, requests, fun r inserts => ?_, by decide +kernel, written⟩
  have two := congrArg List.length requests
  rw [List.length_map] at two
  obtain ⟨d, files', loaded⟩ := inserts.ok_of_last two
  rw [failed] at loaded
  cases loaded

theorem twoTables_overwritten :
    ∃ (p : Program) (location : Location) (result : Except Diagnostic Dictionary) (files' : Files),
      result = .error ⟨.duplicateDeclension "Tisch", some location⟩ ∧
      (p.dictionary askingForTables).run (.single "moebel.gm" twoTables) = (result, files') ∧
      ∃ done, done <+: p.lookupRequests.zipIdx ∧
        Files.Overwritten askingForTables.outcomes (.single "moebel.gm" twoTables) done files' ∧
        (∀ asked ∈ done, p.Writes askingForTables (.single "moebel.gm" twoTables) result asked) ∧
        ((∀ asked ∈ done, ∀ d, askingForTables.outcomes asked = .ok d → ∀ form ∈ d.forms, '\n' ∉ form.toList) →
          ∀ place index, files'.line? place index ≠ Files.line? (.single "moebel.gm" twoTables) place index →
            ∃ asked ∈ done, Files.resolve (.single "moebel.gm" twoTables) ⟨asked.1.statement.file⟩ = .ok place ∧
              asked.1.statement.span.line = index + 1) := by
  obtain ⟨p, location, files', _, loaded, _⟩ := twoTables_refused
  exact ⟨p, location, _, files', rfl, loaded, Program.dictionary_overwritten rfl loaded⟩

end Satzbau

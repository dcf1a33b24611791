import Satzbau.Proofs.Respelling.Answering

namespace Satzbau

namespace Files

variable {files files' : Files} {answers : String → Declension → Prop} {requests : List LookupRequest}
  {w : Place → Nat → Option Declension}

/-- Answers were written where the requests stand. -/
theorem Rewritten.answeredBy (rewritten : files.Rewritten answers requests w files') (proper : files.IsProper)
    (nouns : ∀ word d, answers word d → ∀ form ∈ d.forms, Lexer.IsNoun form)
    (outside : ∀ r ∈ requests, r.IsOutsideComments files)
    (inTree : ∀ r ∈ requests, ∃ entry ∈ files.contents, r.statement.file = (FileName.found entry.1).path.written) :
    files.AnsweredBy answers requests w := by
  have placed {r : LookupRequest} {place : Place} (member : r ∈ requests)
      (resolved : files.resolve ⟨r.statement.file⟩ = .ok place) :
      place.IsProper ∧ r.statement.file = (FileName.found place).path.written := by
    obtain ⟨entry, among, file⟩ := inTree r member
    rw [file] at resolved
    obtain rfl := resolve_found (proper entry among) resolved
    exact ⟨proper entry among, file⟩
  refine ⟨fun r member => ?_, fun place number d known => ?_, fun place number d known => ?_, outside⟩
  · obtain ⟨place, resolved, written⟩ := rewritten.written r member
    obtain ⟨properPlace, file⟩ := placed member resolved
    exact ⟨place, resolved, properPlace, file, written⟩
  · obtain ⟨r, member, answer, resolved, onLine⟩ := rewritten.asked place number d known
    obtain ⟨properPlace, file⟩ := placed member resolved
    exact ⟨properPlace, r, member, answer, file, onLine⟩
  · obtain ⟨_, _, answer, _⟩ := rewritten.asked place number d known
    exact nouns _ d answer

end Files

/-- Writing answers into a program keeps it. If a load writes what a service says into the files of a program, and no
block comment goes on into or out of a line that is replaced, then the same files are found in the changed tree and
read as the same program with all declensions spelled out, and this program has the same dictionary, for which nothing
is asked and nothing is written any more. -/
theorem TokenStream.program_rewritten {files files' : Files} {queue : ImportQueue} {p : Program} {options : LoadingOptions}
    {dictionary : Dictionary} (proper : files.IsProper) (parsed : (ofQueue files queue).program = .ok p)
    (nouns : ∀ word d, (options.service.answer word).result = .ok d → ∀ form ∈ d.forms, Lexer.IsNoun form)
    (outside : ∀ r ∈ p.lookupRequests, r.IsOutsideComments files) (rewrites : options.rewrite = true)
    (loaded : (p.dictionary options).run files = (.ok dictionary, files')) :
    (∀ paths, ImportQueue.ofPaths files' paths = ImportQueue.ofPaths files paths) ∧
      ∃ p', (ofQueue files' queue).program = .ok p' ∧
        p.Respelled (fun word d => (options.service.answer word).result = .ok d) p' ∧
        ∀ later : LoadingOptions, (p'.dictionary later).run files' = (.ok dictionary, files') := by
  obtain ⟨w, entries, rewritten, answered, perm, ordered⟩ :=
    Program.dictionary_eq_ok (fun _ _ answer => answer) nouns rewrites loaded
  have inTree : ∀ r ∈ p.lookupRequests, ∃ entry ∈ files.contents,
      r.statement.file = (FileName.found entry.1).path.written := fun r member =>
    (Source.readQueue_located files queue _ r.statement (occursIn_of_ofQueue parsed r member).mem).1
  have known := rewritten.answeredBy proper nouns outside inTree
  obtain ⟨p', parsed', respelled⟩ := program_respelled proper rewritten.respelled known parsed
  refine ⟨fun paths => ?_, p', parsed', respelled, ?_⟩
  · unfold ImportQueue.ofPaths
    rw [funext rewritten.respelled.identify]
  · have single : ∀ word d d', (options.service.answer word).result = .ok d →
        (options.service.answer word).result = .ok d' → d = d' := fun word d d' answer answer' =>
      Except.ok.inj (answer.symm.trans answer')
    have spelled := Dictionary.ofInline_of_perm ordered (perm.trans (respelled.inlineDeclensions_perm single answered).symm)
    exact fun later => Program.dictionary_of_inline respelled.lookupRequests_eq_nil spelled later files'

def tisch : Declension :=
  ⟨.masculine, ⟨"Tisch", "Tisches", "Tisch", "Tisch"⟩, ⟨"Tische", "Tische", "Tischen", "Tische"⟩⟩

/-- A service that knows one piece of furniture, and whose answers are written into programs. -/
def askingForTables : LoadingOptions :=
  ⟨.ofList [("Tisch", .ok tisch)] 0, LoadingOptions.usualTimeout, true⟩

theorem isNoun_of_answer {word : String} {d : Declension} (answer : (askingForTables.service.answer word).result = .ok d) :
    ∀ form ∈ d.forms, Lexer.IsNoun form := by
  have known : ∀ form ∈ tisch.forms, form.toList.head?.any isLetter = true ∧
      form.toList.all Lexer.isWordCharacter = true ∧ Operator.ofWord? form = none ∧
        Lexer.plainWordKind form = .noun := by
    decide +kernel
  have only : d = tisch := by
    unfold askingForTables LookupService.ofList at answer
    dsimp only at answer
    rw [List.lookup_cons] at answer
    split at answer
    · cases answer
      rfl
    · cases answer
  intro form member
  obtain ⟨letter, characters, noOperator, isNoun⟩ := known form (only ▸ member)
  exact Lexer.isNoun_of_lexed (lexed_of_spelling letter characters noOperator isNoun)

/-- A tree with one file, which holds some text. -/
def Files.single (name text : String) : Files :=
  Files.none.learn ⟨name⟩ (some text.toUTF8)

theorem Files.single_proper (name text : String) : (Files.single name text).IsProper :=
  .learn (fun _ impossible => absurd impossible List.not_mem_nil) (fun _ impossible => absurd impossible List.not_mem_nil) _ _

/-- A request behind a block comment and before another comment, on an indented line with a carriage return. -/
def furniture : String :=
  "/* Möbel\n*/\n  Deklination Duden(Tisch) // zum Essen\r\n"

/-- The queue with nothing but the file `moebel.gm`. -/
def furnitureQueue : ImportQueue :=
  ⟨[.found ["moebel.gm"]], []⟩

/-- What a load comes to, with the tree that it leaves behind. -/
def Loading.result {α : Type} (x : Loading α) (files : Files) : Except Diagnostic (α × Files) :=
  let (outcome, after) := x.run files
  outcome.map (·, after)

theorem Loading.run_of_result {α : Type} {x : Loading α} {files files' : Files} {a : α}
    (result : x.result files = .ok (a, files')) : x.run files = (.ok a, files') := by
  unfold Loading.result at result
  cases run : x.run files with
  | mk outcome after =>
    rw [run] at result
    cases outcome with
    | error fault => contradiction
    | ok b =>
      cases result
      rfl

theorem furniture_rewritten :
    ∃ p dictionary files', (TokenStream.ofQueue (.single "moebel.gm" furniture) furnitureQueue).program = .ok p ∧
      (p.dictionary askingForTables).run (.single "moebel.gm" furniture) = (.ok dictionary, files') ∧
      ∃ p', (TokenStream.ofQueue files' furnitureQueue).program = .ok p' ∧
        p.Respelled (fun word d => (askingForTables.service.answer word).result = .ok d) p' ∧
        ∀ later : LoadingOptions, (p'.dictionary later).run files' = (.ok dictionary, files') := by
  have readable : Files.text (.single "moebel.gm" furniture) (.found ["moebel.gm"]) = .ok furniture :=
    eq_ok_of_toOption (by decide +kernel)
  have stream := @TokenStream.ofQueue_of_dequeue (.single "moebel.gm" furniture) furnitureQueue
    ⟨[], [.found ["moebel.gm"]]⟩ _ _ rfl (by decide +kernel) readable (by decide +kernel)
  have computed : ((TokenStream.ofQueue (.single "moebel.gm" furniture) furnitureQueue).program.bind fun p =>
      ((p.dictionary askingForTables).result (.single "moebel.gm" furniture)).map fun _ =>
        p.lookupRequests.map fun r => (r.statement.file, r.statement.span.line)).toOption = some [("/moebel.gm", 3)] := by
    rw [stream]
    decide +kernel
  obtain ⟨p, ⟨dictionary, files'⟩, parsed, result, places⟩ := exists_ok_of_map computed
  have outside : ∀ r ∈ p.lookupRequests, r.IsOutsideComments (.single "moebel.gm" furniture) := by
    intro r member text read
    have place := List.mem_map_of_mem (f := fun r : LookupRequest => (r.statement.file, r.statement.span.line)) member
    rw [places, List.mem_singleton, Prod.mk.injEq] at place
    have known : Files.read (.single "moebel.gm" furniture) ⟨"/moebel.gm"⟩ = .ok furniture :=
      eq_ok_of_toOption (by decide +kernel)
    rw [place.1, known] at read
    cases read
    rw [place.1, place.2]
    decide +kernel
  exact ⟨p, dictionary, files', parsed, Loading.run_of_result result,
    (TokenStream.program_rewritten (Files.single_proper _ _) parsed (fun _ _ => isNoun_of_answer) outside rfl
      (Loading.run_of_result result)).2⟩

/-- A request on a line on which a block comment begins that ends on the next one. -/
def commentedFurniture : String :=
  "Deklination Duden(Tisch) /* der\nTisch */\n"

/-- With the line of a request goes the beginning of a comment, and the rest of the comment is left. -/
theorem commentedFurniture_lost :
    ∃ p dictionary files', (TokenStream.ofQueue (.single "moebel.gm" commentedFurniture) furnitureQueue).program = .ok p ∧
      (p.dictionary askingForTables).run (.single "moebel.gm" commentedFurniture) = (.ok dictionary, files') ∧
      files'.textAt ["moebel.gm"] = .ok (tisch.text ++ "\nTisch */\n") ∧
      ∀ p', (TokenStream.ofQueue files' furnitureQueue).program ≠ .ok p' := by
  have readable : Files.text (.single "moebel.gm" commentedFurniture) (.found ["moebel.gm"]) = .ok commentedFurniture :=
    eq_ok_of_toOption (by decide +kernel)
  have stream := @TokenStream.ofQueue_of_dequeue (.single "moebel.gm" commentedFurniture) furnitureQueue
    ⟨[], [.found ["moebel.gm"]]⟩ _ _ rfl (by decide +kernel) readable (by decide +kernel)
  have computed : ((TokenStream.ofQueue (.single "moebel.gm" commentedFurniture) furnitureQueue).program.bind fun p =>
      ((p.dictionary askingForTables).result (.single "moebel.gm" commentedFurniture)).map fun (_, after) =>
        (after.textAt ["moebel.gm"]).toOption).toOption = some (some (tisch.text ++ "\nTisch */\n")) := by
    rw [stream]
    decide +kernel
  obtain ⟨p, ⟨dictionary, files'⟩, parsed, result, written⟩ := exists_ok_of_map computed
  have loaded := Loading.run_of_result result
  obtain ⟨_, _, rewritten, _⟩ := Program.dictionary_eq_ok (fun _ _ answer => answer) (fun _ _ => isNoun_of_answer) rfl loaded
  have readable' : files'.text (.found ["moebel.gm"]) = .ok (tisch.text ++ "\nTisch */\n") := eq_ok_of_toOption written
  have lines := Source.readLines_of_identify (funext rewritten.respelled.identify) ⟨⟨[], [.found ["moebel.gm"]]⟩, false⟩
    (Source.linesOf (FileName.found ["moebel.gm"]).path (tisch.text ++ "\nTisch */\n"))
  have stream' := @TokenStream.ofQueue_of_dequeue files' furnitureQueue ⟨[], [.found ["moebel.gm"]]⟩ _ _ rfl
    (by decide +kernel) readable' (by rw [lines]; decide +kernel)
  refine ⟨p, dictionary, files', parsed, loaded, eq_ok_of_toOption written, fun p' parsed' => ?_⟩
  have refused : (TokenStream.ofQueue files' furnitureQueue).program.isOk = false := by
    rw [stream', lines]
    decide +kernel
  rw [parsed'] at refused
  exact Bool.noConfusion refused

end Satzbau

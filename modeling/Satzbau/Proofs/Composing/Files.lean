import Satzbau.Proofs.Composing.Sequence
import Satzbau.Proofs.Discovering.Reader
import Satzbau.Proofs.Parsing.TopLevel
import Satzbau.Proofs.Respelling.Queues

namespace Satzbau

namespace Source

variable {files : Files} {inComment : Bool} {line : Lexer.Line} {lines : List Lexer.Line}

theorem WithoutImports.first (alone : WithoutImports inComment (line :: lines)) {tokens : List Token}
    (read : (line.tokens inComment).1 = .ok tokens) : importTarget? tokens = none :=
  alone tokens (List.mem_filterMap.mpr ⟨.ok tokens, by rw [readings, read]; exact List.mem_cons_self .., rfl⟩)

theorem WithoutImports.later (alone : WithoutImports inComment (line :: lines)) :
    WithoutImports (line.tokens inComment).2 lines := by
  intro tokens member
  obtain ⟨reading, among, same⟩ := List.mem_filterMap.mp member
  exact alone tokens (List.mem_filterMap.mpr ⟨reading, by rw [readings]; exact List.mem_cons_of_mem _ among, same⟩)

/-- Lines that import nothing are read in the same way whatever waits to be read, and that goes on waiting. -/
theorem readLines_alone (alone : WithoutImports inComment lines) (queue queue' : ImportQueue) :
    readLines files ⟨queue, inComment⟩ lines = ((readLines files ⟨queue', inComment⟩ lines).1, queue) := by
  induction lines generalizing inComment with
  | nil => rfl
  | cons line lines ih =>
    have here (waiting : ImportQueue) := @readLine_passed files inComment line (fun _ => alone.first) waiting queue'
    simp only [readLines]
    rw [here queue, here queue']
    dsimp only
    rw [ih alone.later]

end Source

/-- A file that can be read, imports nothing and is a program by itself. -/
structure Files.Holds (files : Files) (path : Path) (p : Program) : Prop where
  readable : ∃ text, files.text (files.identify path) = .ok text ∧
    Source.WithoutImports false (Source.linesOf (files.identify path).path text)
  parsed : ∃ queue, ImportQueue.ofPaths files [path] = .ok queue ∧ (TokenStream.ofQueue files queue).program = .ok p

/-- What is read of a file that imports nothing. -/
def Source.own (files : Files) (name : FileName) (text : String) : TokenStream :=
  ⟨(readLines files ⟨.empty, false⟩ (linesOf name.path text)).1, fileEnd name.path (linesOf name.path text).length⟩

/-- The next file that is to be read, if it imports nothing. -/
theorem Source.readQueue_alone {files : Files} {name : FileName} {waiting visited : List FileName} {text : String}
    (new : ∀ other ∈ visited, name.same other = false) (readable : files.text name = .ok text)
    (alone : WithoutImports false (linesOf name.path text)) (last : Token) :
    readQueue files ⟨name :: waiting, visited⟩ last =
      ⟨(own files name text).items ++ (readQueue files ⟨waiting, name :: visited⟩ (own files name text).fileEnd).items,
        (readQueue files ⟨waiting, name :: visited⟩ (own files name text).fileEnd).fileEnd⟩ := by
  have unvisited : ImportQueue.hasVisited ⟨name :: waiting, visited⟩ name = false :=
    List.any_eq_false.mpr fun other member => by simp [new other member]
  rw [readQueue_of_dequeue files rfl unvisited readable, readLines_alone alone _ .empty]
  rfl

/-- A file that imports nothing is read alone as what stands in it. -/
theorem TokenStream.ofQueue_alone {files : Files} {name : FileName} {text : String} (readable : files.text name = .ok text)
    (alone : Source.WithoutImports false (Source.linesOf name.path text)) :
    ofQueue files ⟨[name], []⟩ = Source.own files name text := by
  have stream := @Source.readQueue_alone files name [] [] text (fun _ => nofun) readable alone (Source.fileEnd ⟨""⟩ 0)
  have nothing := @Source.readQueue_of_pending files ⟨[], [name]⟩ rfl
  rw [nothing, List.append_nil] at stream
  exact stream

namespace Files.Holds

variable {files : Files} {path : Path} {p : Program}

theorem of_own {name : FileName} {text : String} (identified : files.identify path = name)
    (readable : files.text name = .ok text) (alone : Source.WithoutImports false (Source.linesOf name.path text))
    (parsed : (Source.own files name text).program = .ok p) : files.Holds path p := by
  subst identified
  rw [← TokenStream.ofQueue_alone readable alone] at parsed
  exact ⟨⟨text, readable, alone⟩, _, ImportQueue.ofPaths_singleton files path, parsed⟩

theorem readsAlone (holds : files.Holds path p) :
    ∃ text, files.text (files.identify path) = .ok text ∧
      Source.WithoutImports false (Source.linesOf (files.identify path).path text) ∧
      Parser.ReadsAlone (Source.own files (files.identify path) text) p := by
  obtain ⟨⟨text, readable, alone⟩, queue, seeded, parsed⟩ := holds
  rw [ImportQueue.ofPaths_singleton] at seeded
  cases seeded
  rw [TokenStream.ofQueue_alone readable alone] at parsed
  exact ⟨text, readable, alone, rfl, Source.readLines_closed _ _ 0, parsed⟩

end Files.Holds

/-- What waits to be read is read file by file, if all files are programs by themselves and none was read before. -/
theorem Source.readQueue_joined {files : Files} {paths : List Path} {programs : List Program}
    (holds : List.Forall₂ files.Holds paths programs) (distinct : Distinct (paths.map files.identify))
    {visited : List FileName} (new : ∀ path ∈ paths, ∀ other ∈ visited, (files.identify path).same other = false) (last : Token) :
    ∃ sources, List.Forall₂ Parser.ReadsAlone sources programs ∧
      (readQueue files ⟨paths.map files.identify, visited⟩ last).items = sources.flatMap TokenStream.items := by
  induction holds generalizing visited last with
  | nil => exact ⟨[], .nil, by rw [readQueue_of_pending files rfl]; rfl⟩
  | @cons path p paths programs first others ih =>
    obtain ⟨behind, distinct⟩ := List.pairwise_cons.mp distinct
    obtain ⟨text, readable, alone, reads⟩ := first.readsAlone
    have unread : ∀ other ∈ paths, ∀ name ∈ files.identify path :: visited, (files.identify other).same name = false := by
      intro other member name among
      rcases List.mem_cons.mp among with rfl | before
      · rw [FileName.same_comm]
        exact behind _ (List.mem_map_of_mem member)
      · exact new other (List.mem_cons_of_mem _ member) name before
    obtain ⟨sources, all, items⟩ := ih distinct unread (own files (files.identify path) text).fileEnd
    refine ⟨own files (files.identify path) text :: sources, .cons reads all, ?_⟩
    rw [List.map_cons, readQueue_alone (new path (List.mem_cons_self ..)) readable alone]
    dsimp only
    rw [items, List.flatMap_cons]

/-- Different files that import nothing and are programs by themselves are read together as one program: their
definitions and statements in the order of the files, with ids behind those of the files before. -/
theorem TokenStream.program_ofPaths {files : Files} {paths : List Path} {programs : List Program}
    (distinct : Distinct (paths.map files.identify)) (holds : List.Forall₂ files.Holds paths programs) :
    ∃ queue, ImportQueue.ofPaths files paths = .ok queue ∧
      (TokenStream.ofQueue files queue).program = .ok (.joined (Program.numberedFrom 0 programs)) := by
  obtain ⟨sources, alone, items⟩ := @Source.readQueue_joined files paths programs holds distinct [] (fun _ _ _ => nofun)
    (Source.fileEnd ⟨""⟩ 0)
  obtain ⟨_, atEnd⟩ := Source.readQueue_closed files ⟨paths.map files.identify, []⟩ (Source.fileEnd ⟨""⟩ 0) 0 rfl
  obtain ⟨u, reads⟩ := Parser.program_joined atEnd alone 0
  rw [← items] at reads
  refine ⟨_, ImportQueue.ofPaths_eq files paths, ?_⟩
  rw [distinct.discovered_eq]
  exact TokenStream.program_eq_ok.mpr ⟨u, reads _ (Nat.le_refl _)⟩

/-- A conditional with nothing behind it but a comment that does not end. -/
def openEnded : String :=
  "wenn wahr: schlafe.\n/* noch"

def reading : String :=
  "lies das Buch"

def openEndedAndReading : Files :=
  ⟨[(["a.gm"], openEnded.toUTF8), (["b.gm"], reading.toUTF8)], [], []⟩

theorem openEndedAndReading_joined :
    ∃ first second queue, openEndedAndReading.Holds ⟨"a.gm"⟩ first ∧ openEndedAndReading.Holds ⟨"b.gm"⟩ second ∧
      first.idCount = 1 ∧ idsOf (second.shifted 1).occurrences = [1, 2] ∧
      ImportQueue.ofPaths openEndedAndReading [⟨"a.gm"⟩, ⟨"b.gm"⟩] = .ok queue ∧
      (TokenStream.ofQueue openEndedAndReading queue).program = .ok (.joined [first.shifted 0, second.shifted 1]) := by
  have atFirst : openEndedAndReading.identify ⟨"a.gm"⟩ = .found ["a.gm"] := by decide +kernel
  have atSecond : openEndedAndReading.identify ⟨"b.gm"⟩ = .found ["b.gm"] := by decide +kernel
  have readable : openEndedAndReading.text (.found ["a.gm"]) = .ok openEnded := eq_ok_of_toOption (by decide +kernel)
  have readable' : openEndedAndReading.text (.found ["b.gm"]) = .ok reading := eq_ok_of_toOption (by decide +kernel)
  have computed : ((Source.own openEndedAndReading (.found ["a.gm"]) openEnded).program.map Program.idCount).toOption =
      some 1 := by
    decide +kernel
  have computed' : ((Source.own openEndedAndReading (.found ["b.gm"]) reading).program.map fun p =>
      idsOf (p.shifted 1).occurrences).toOption = some [1, 2] := by
    decide +kernel
  obtain ⟨first, parsed, count⟩ := exists_ok_of_view computed
  obtain ⟨second, parsed', ids⟩ := exists_ok_of_view computed'
  have holds := Files.Holds.of_own atFirst readable (by unfold Source.WithoutImports; decide +kernel) parsed
  have holds' := Files.Holds.of_own atSecond readable' (by unfold Source.WithoutImports; decide +kernel) parsed'
  have distinct : Distinct ([Path.mk "a.gm", ⟨"b.gm"⟩].map openEndedAndReading.identify) := by
    unfold Distinct
    simp only [List.map_cons, List.map_nil, List.pairwise_pair, atFirst, atSecond]
    decide +kernel
  obtain ⟨queue, seeded, joined⟩ := TokenStream.program_ofPaths distinct (.cons holds (.cons holds' .nil))
  rw [Program.numberedFrom, Program.numberedFrom, count] at joined
  exact ⟨first, second, queue, holds, holds', count, ids, seeded, joined⟩

end Satzbau

import Satzbau.Proofs.Backtracking
import Satzbau.Proofs.Parsing.AllowedDefinitions
import Satzbau.Proofs.Repeating.Calling
import Satzbau.Proofs.Repeating.Parsed

namespace Satzbau

variable {p : Program} {dictionary : Dictionary} {compiled : CompiledProgram} {f : FunctionDefinition}

/-- Whether a program was read from files or a text. -/
def Program.IsRead (p : Program) : Prop :=
  ∃ stream : TokenStream, stream.IsRead ∧ stream.program = .ok p

theorem FunctionDefinition.header_mem (member : .function f ∈ p.definitions) : f.header ∈ p.headers := by
  refine List.mem_map_of_mem (List.mem_flatMap.mpr ⟨_, member, ?_⟩)
  exact List.mem_singleton_self f

theorem FunctionDefinition.header_sublist (member : .function f ∈ p.definitions) :
    f.header.occurrences.Sublist p.occurrences := by
  have inFunction : f.header.occurrences.Sublist f.occurrences := List.sublist_append_left _ _
  have only : [Definition.function f].flatMap Definition.occurrences = f.occurrences := List.flatMap_singleton ..
  refine inFunction.trans (.trans ?_ (List.sublist_append_left _ _))
  rw [← only]
  exact (List.singleton_sublist.mpr member).flatMap _

theorem FunctionDefinition.roles_mem (member : .function f ∈ p.definitions) : f.header.roles ∈ p.roles :=
  List.mem_append_left _ (List.mem_map_of_mem (header_mem member))

/-- A program that is checked is checked as well with a call as its last statement whose roles are the
same as those of the header of a function, and the roles are settled as those of the header. -/
theorem Program.IsChecked.annotations_call {a : Annotations} (known : p.IsChecked dictionary a)
    (member : .function f ∈ p.definitions) {found : Roles} (same : f.header.roles.Same found) {id : NodeId}
    (distinct : (idsOf (p.followedBy ⟨[], [.call (found.call id)]⟩).occurrences).Nodup) :
    ∃ b, (p.followedBy ⟨[], [.call (found.call id)]⟩).annotations dictionary = .ok b ∧ a.KeptIn b ∧
      f.header.roles.Settled dictionary a ∧ found.Settled dictionary b := by
  have ofHeader := (Program.agrees_noted known.distinct known.checked).headers f.header (FunctionDefinition.header_mem member)
  have settled := ofHeader.settled (known.distinct.sublist ((FunctionDefinition.header_sublist member).map _))
  have occurrences : blockOccurrences [.call (found.call id)] = (found.call id).occurrences := by
    rw [blockOccurrences, blockOccurrences, List.append_nil, Statement.occurrences]
  rw [occurrences_followedBy, occurrences, idsOf_append] at distinct
  obtain ⟨_, distinctCall, disjoint⟩ := List.nodup_append.mp distinct
  have run := annotations_eq_ok.mp known.checked
  have grew := (check_settles dictionary p).grows .empty
  rw [run] at grew
  have unseen : Checker.Unseen (idsOf (found.call id).occurrences) a := fun other inside =>
    grew.get?_of_not_mem fun before => disjoint other before other inside rfl
  have settles := (@Checker.checkCall_settles dictionary (found.call id)).widen (phraseIds_sublist _)
  have passes := settles.complete distinctCall a unseen () (settled.agrees_call same id)
  have grewCall := settles.grows a
  have agrees := settles.sound distinctCall a unseen () passes
  cases result : (Checker.checkCall dictionary (found.call id)).run a with
  | mk outcome b =>
    rw [result] at passes grewCall agrees
    cases passes
    refine ⟨b, annotations_followedBy known.checked ?_, grewCall.keptIn, settled, Roles.settled_call agrees distinctCall⟩
    rw [Checker.checkBlock, Checking.bind_run, Checker.checkStatement, result]
    rfl

/-- A call with the same roles as the header of a function, as the last statement of a program that is
checked without it: the program is checked with it as well, and the call runs the function. -/
theorem Program.analyze_call (read : p.IsRead) (analyzed : p.analyze dictionary = .ok compiled)
    (member : .function f ∈ p.definitions) {found : Roles} (same : f.header.roles.Same found) {id : NodeId}
    (read' : (p.followedBy ⟨[], [.call (found.call id)]⟩).IsRead) :
    ∃ compiled', (p.followedBy ⟨[], [.call (found.call id)]⟩).analyze dictionary = .ok compiled' ∧
      compiled'.function (found.call id) = .ok f := by
  obtain ⟨a, definitions, checked, defined, verified, rfl⟩ := Program.analyze_eq_ok.mp analyzed
  have known : p.IsChecked dictionary a := ⟨read, checked⟩
  have distinct : (idsOf (p.followedBy ⟨[], [.call (found.call id)]⟩).occurrences).Nodup := by
    obtain ⟨stream, _, parsed⟩ := read'
    exact stream.nodup_ids parsed
  obtain ⟨b, checked', kept, settled, settled'⟩ := known.annotations_call member same distinct
  have known' : (p.followedBy ⟨[], [.call (found.call id)]⟩).IsChecked dictionary b := ⟨read', checked'⟩
  have calls : (p.followedBy ⟨[], [.call (found.call id)]⟩).calls = p.calls ++ [found.call id] := by
    rw [Program.calls_followedBy, Roles.calls_call]
  -- the signatures of the header and of the call
  have inCalls : found ∈ (p.followedBy ⟨[], [.call (found.call id)]⟩).roles := by
    refine List.mem_append_right _ ?_
    rw [calls, List.map_append, List.map_singleton, Roles.roles_call]
    exact List.mem_append_right _ (List.mem_singleton_self _)
  have roles := FunctionDefinition.roles_mem member
  have signed := Roles.signature_eq_canonical (known.written _ roles) (known.noted _ roles)
  have signed' := Roles.signature_eq_canonical (known'.written _ inCalls) (known'.noted _ inCalls)
  have sameText := Signature.text_of_alike (settled.alike settled' same)
  obtain ⟨signature, index, signedHeader, found', entry⟩ := Definitions.ofProgram_lookup defined member
  rw [FunctionHeader.signature_eq, signed] at signedHeader
  cases signedHeader
  have signedCall : [found.call id].mapM (Definitions.callSignature b) = .ok [(id, (found.canonical b).text)] := by
    rw [List.mapM_cons, Definitions.callSignature, Call.signature_eq, Roles.roles_call, signed']
    rfl
  rw [← Roles.calls_call] at signedCall
  have defined' := Definitions.ofProgram_followedBy kept defined signedCall
  have new : id ∉ definitions.calls.map Prod.fst := Definitions.id_not_mem_calls defined distinct
  rw [sameText] at entry
  have names : { definitions with calls := definitions.calls ++ [(id, (found.canonical b).text)] }.function
      (found.call id) = .ok (.function index) := Definitions.function_append new entry
  have verified' : { definitions with calls := definitions.calls ++ [(id, (found.canonical b).text)] }.verify
      (p.followedBy ⟨[], [.call (found.call id)]⟩) = .ok () := by
    refine Definitions.verify_followedBy verified fun c inside => ?_
    rw [Roles.calls_call, List.mem_singleton] at inside
    rw [inside]
    exact ⟨_, names⟩
  refine ⟨_, Program.analyze_eq_ok.mpr ⟨b, _, checked', defined', verified', rfl⟩, ?_⟩
  unfold CompiledProgram.function
  dsimp only
  rw [names]
  show CompiledProgram.atPlace _ (Callable.definition? _ (.function index)) = .ok f
  unfold Callable.definition?
  dsimp only
  rw [Program.definitions_followedBy, found']
  rfl

namespace Source

/-- Whether no file is left to be read behind a text. -/
def ImportsNothing (files : Files) (path : Path) (text : String) : Prop :=
  (after files path text).queue.pending = []

/-- Whether a block comment is still open where a text ends. -/
def EndsInComment (files : Files) (path : Path) (text : String) : Prop :=
  (after files path text).inComment = true

end Source

/-- The line of a call of a function, and the kinds of words that stand before its roles. -/
def Definition.callLine? : Definition → Option (String × List (Option TokenKind))
  | .function f => some (f.header.roles.line, f.header.parameters.map fun x => x.phrase.determiner.map Token.kind)
  | _ => none

theorem Definition.function_of_callLine? {line : String} {kinds : List (Option TokenKind)} {others : List (String × List (Option TokenKind))}
    (viewed : p.definitions.filterMap callLine? = (line, kinds) :: others)
    (articles : ∀ kind ∈ kinds, kind = some (.determiner .definite) ∨ kind = some (.determiner .indefinite)) :
    ∃ f, .function f ∈ p.definitions ∧ f.header.roles.line = line ∧ ∀ x ∈ f.header.parameters, x.phrase.HasArticle := by
  have member : (line, kinds) ∈ p.definitions.filterMap callLine? := by
    rw [viewed]
    exact List.mem_cons_self ..
  obtain ⟨d, inside, here⟩ := List.mem_filterMap.mp member
  cases d with
  | function f =>
    cases here
    refine ⟨f, inside, rfl, fun x among => ?_⟩
    have known := articles _ (List.mem_map_of_mem among)
    cases determiner : x.phrase.determiner with
    | none =>
      rw [determiner] at known
      rcases known with impossible | impossible
      · contradiction
      · contradiction
    | some d =>
      rw [determiner] at known
      exact ⟨d, determiner, known.imp Option.some.inj Option.some.inj⟩
  | noun c => contradiction
  | implementation i => contradiction
  | declension d => contradiction

/-- A function with an object, two roles of one preposition, names and a suffix. -/
def layingDown : String :=
  "Verb lege die Zahl X auf einen Menschen, den Menschen Y ab:\n  intern\n."

/-- A file that begins with what can stand behind a conditional. -/
def elsewhere : Files :=
  ⟨[(["b.gm"], "sonst:\n.\n".toUTF8)], [], []⟩

/-- A function, and a conditional that goes on in another file. -/
def branching : String :=
  "importiere \"b.gm\"\nVerb laufe:\n  intern\n.\nwenn wahr:\n.\n"

end Satzbau

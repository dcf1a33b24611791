import Satzbau.Proofs.Checking.Occurring
import Satzbau.Proofs.Checking.Search
import Satzbau.Proofs.Lexing
import Satzbau.Proofs.Parsing.NumberedDefinitions

namespace Satzbau

/-- The annotation of a phrase is what it is read as in a case, in whichever number it agrees. -/
def NounPhrase.NotedIn (dictionary : Dictionary) (a : Annotations) (c : Case) (p : NounPhrase) : Prop :=
  ∃ reading, Agreement.annotate dictionary p (.single c) .all = .ok reading ∧ a.get? p.id = some reading

/-- The annotations of roles: an object is read in the accusative, and what a preposition introduces
is read in one of the cases that it governs. -/
structure Roles.Noted (dictionary : Dictionary) (a : Annotations) (r : Roles) : Prop where
  object : ∀ p ∈ r.object.toList, p.NotedIn dictionary a .accusative
  groups : ∀ g ∈ r.groups, ∃ cases, Preposition.cases? g.preposition.text = some cases ∧
    ∃ c ∈ cases, ∀ p ∈ g.items, p.NotedIn dictionary a c

variable {dictionary : Dictionary} {a : Annotations}

theorem FunctionHeader.Agrees.noted {h : FunctionHeader} (agrees : h.Agrees (.noted dictionary a)) :
    h.roles.Noted dictionary a where
  object := by
    intro phrase member
    rw [FunctionHeader.roles, ObjectRole.toList_map] at member
    obtain ⟨p, inside, rfl⟩ := List.mem_map.mp member
    exact agrees.object p inside
  groups := by
    intro group member
    obtain ⟨g, inside, rfl⟩ := List.mem_map.mp member
    obtain ⟨cases, known, c, governed, _, atItems⟩ := agrees.groups g inside
    refine ⟨cases, known, c, governed, fun phrase inItems => ?_⟩
    obtain ⟨p, among, rfl⟩ := List.mem_map.mp inItems
    exact atItems p among

theorem Argument.Agrees.noted {argument : Argument} {c : Case} (agrees : argument.Agrees (.noted dictionary a) c) :
    argument.phrase.NotedIn dictionary a c := by
  obtain ⟨phrase, value⟩ := argument
  obtain ⟨reading, known, _⟩ := agrees
  exact ⟨reading, known⟩

theorem argumentsAgree.mem {J : Judgement} {c : Case} {arguments : List Argument}
    (agree : argumentsAgree J c arguments) : ∀ argument ∈ arguments, argument.Agrees J c := by
  induction arguments with
  | nil => exact nofun
  | cons first later ih =>
    intro argument member
    obtain rfl | inLater := List.mem_cons.mp member
    · exact agree.1
    · exact ih agree.2 argument inLater

theorem groupsAgree.mem {J : Judgement} {groups : List (PrepositionGroup Argument)} (agree : groupsAgree J groups) :
    ∀ g ∈ groups, groupAgrees g.preposition (J.ofCall g) fun c => argumentsAgree J c g.items := by
  induction groups with
  | nil => exact nofun
  | cons first later ih =>
    intro g member
    obtain rfl | inLater := List.mem_cons.mp member
    · exact agree.1
    · exact ih agree.2 g inLater

theorem Call.Agrees.noted {call : Call} (agrees : call.Agrees (.noted dictionary a)) :
    call.roles.Noted dictionary a := by
  obtain ⟨id, verb, object, groups, suffix⟩ := call
  obtain ⟨atObject, atGroups⟩ := agrees
  refine ⟨fun phrase member => ?_, fun group member => ?_⟩
  · cases object with
    | thing argument =>
      rw [List.mem_singleton.mp member]
      exact Argument.Agrees.noted atObject
    | absent => contradiction
    | reflexive token => contradiction
  · obtain ⟨g, inside, rfl⟩ := List.mem_map.mp member
    obtain ⟨cases, known, c, governed, _, atItems⟩ := atGroups.mem g inside
    refine ⟨cases, known, c, governed, fun phrase inItems => ?_⟩
    obtain ⟨argument, among, rfl⟩ := List.mem_map.mp inItems
    exact (atItems.mem argument among).noted

theorem Program.Agrees.headers {J : Judgement} {p : Program} (agrees : p.Agrees J) :
    ∀ h ∈ p.headers, h.Agrees J := by
  intro h member
  obtain ⟨f, inFunctions, rfl⟩ := List.mem_map.mp member
  obtain ⟨d, inDefinitions, inDefinition⟩ := List.mem_flatMap.mp inFunctions
  have atDefinition := agrees.1 d inDefinitions
  cases d with
  | function g =>
    rw [List.mem_singleton.mp inDefinition]
    exact atDefinition.1
  | implementation i => exact (atDefinition.2.1 f inDefinition).1
  | noun c => contradiction
  | declension d => contradiction

/-- A program that was read from files or a text and passes the grammar check. -/
structure Program.IsChecked (p : Program) (dictionary : Dictionary) (a : Annotations) : Prop where
  read : ∃ stream : TokenStream, stream.IsRead ∧ stream.program = .ok p
  checked : p.annotations dictionary = .ok a

namespace Program.IsChecked

variable {p : Program}

theorem distinct (known : p.IsChecked dictionary a) : (idsOf p.occurrences).Nodup := by
  obtain ⟨stream, _, parsed⟩ := known.read
  exact stream.nodup_ids parsed

theorem written (known : p.IsChecked dictionary a) : ∀ r ∈ p.roles, r.Written Token.Lexed := by
  obtain ⟨stream, read, parsed⟩ := known.read
  obtain ⟨occurrences, headers⟩ := stream.program_written parsed read.lexed.fileEnd read.lexed.items
  intro r member
  obtain inHeaders | inCalls := List.mem_append.mp member
  · obtain ⟨h, inside, rfl⟩ := List.mem_map.mp inHeaders
    exact headers h inside
  · obtain ⟨c, inside, rfl⟩ := List.mem_map.mp inCalls
    rw [Program.calls_eq, Occurrence.mem_calls] at inside
    exact occurrences (.call c) inside

theorem noted (known : p.IsChecked dictionary a) : ∀ r ∈ p.roles, r.Noted dictionary a := by
  have agrees := Program.agrees_noted known.distinct known.checked
  intro r member
  obtain inHeaders | inCalls := List.mem_append.mp member
  · obtain ⟨h, inside, rfl⟩ := List.mem_map.mp inHeaders
    exact (agrees.headers h inside).noted
  · obtain ⟨c, inside, rfl⟩ := List.mem_map.mp inCalls
    exact (agrees.calls c inside).noted

end Program.IsChecked

end Satzbau

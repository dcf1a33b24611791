import Satzbau.Definitions
import Satzbau.Proofs.Occurrence

namespace Satzbau

/-- Where a call stands. -/
inductive CallPlace
  /-- At none of the other places. -/
  | free
  /-- In front of the `:` of a method block that is not within methods itself. -/
  | subject
  /-- Among the methods and conversions of an implementation, or between `:` and `!` of a method block. -/
  | methods
deriving DecidableEq, Repr

namespace CallPlace

/-- The place of the subject of a method block. -/
def ofSubject : CallPlace → CallPlace
  | free => subject
  | place => place

/-- Whether a walk has met something that opens methods. -/
def isOpen : CallPlace → Bool
  | free => false
  | subject | methods => true

@[simp] theorem isOpen_ofSubject (place : CallPlace) : place.ofSubject.isOpen = true := by
  cases place <;> rfl

end CallPlace

abbrev PlacedCall := CallPlace × Call

/-- The calls among what occurs at one place. -/
def placedCalls (place : CallPlace) (occurrences : List Occurrence) : List PlacedCall :=
  (Occurrence.calls occurrences).map fun c => (place, c)

mutual

/-- The calls of a statement with their places, in the order of the text. -/
def Statement.placedCalls (place : CallPlace) : Statement → List PlacedCall
  | .declaration _ owner _ value =>
    Satzbau.placedCalls place (valueOccurrences owner) ++ Satzbau.placedCalls place value.occurrences
  | .conditional _ branches otherwise => branchPlacedCalls place branches ++ otherwisePlacedCalls place otherwise
  | .whileLoop _ condition body => Satzbau.placedCalls place condition.occurrences ++ blockPlacedCalls place body
  | .forEach _ _ source body => Satzbau.placedCalls place (valueOccurrences source) ++ blockPlacedCalls place body
  | .give _ value => Satzbau.placedCalls place (valueOccurrences value)
  | .methodBlock subject body =>
    Satzbau.placedCalls place.ofSubject subject.occurrences ++ blockPlacedCalls .methods body
  | .call c => Satzbau.placedCalls place c.occurrences
  | .loopControl .. | .builtin _ => []

def blockPlacedCalls (place : CallPlace) : List Statement → List PlacedCall
  | [] => []
  | s :: later => s.placedCalls place ++ blockPlacedCalls place later

def branchPlacedCalls (place : CallPlace) : List Branch → List PlacedCall
  | [] => []
  | ⟨condition, body⟩ :: later =>
    Satzbau.placedCalls place condition.occurrences ++ blockPlacedCalls place body ++ branchPlacedCalls place later

def otherwisePlacedCalls (place : CallPlace) : Option (List Statement) → List PlacedCall
  | none => []
  | some body => blockPlacedCalls place body

end

def Definition.placedCalls : Definition → List PlacedCall
  | .function f => blockPlacedCalls .free f.body
  | .noun c => blockPlacedCalls .free c.body
  | .implementation i =>
    i.methods.flatMap (fun f => blockPlacedCalls .methods f.body) ++
      i.conversions.flatMap fun c => blockPlacedCalls .methods c.body
  | .declension _ => []

/-- The calls of a program with their places, in the order of the text. -/
def Program.placedCalls (p : Program) : List PlacedCall :=
  p.definitions.flatMap Definition.placedCalls ++ blockPlacedCalls .free p.statements

namespace Node

/-- The calls that a walk meets, with what they inherit. -/
def visitedCalls {α : Type} (pass : Node → α → α) (inherited : α) (node : Node) : List (α × Call) :=
  (visits pass inherited node).filterMap fun visit => visit.2.call?.map fun c => (visit.1, c)

variable {α : Type} (pass : Node → α → α) (inherited : α)

theorem visitedCalls_eq (node : Node) : node.visitedCalls pass inherited =
    node.call?.toList.map (fun c => (inherited, c)) ++ node.children.flatMap (visitedCalls pass (pass node inherited)) := by
  have attached : node.children.flatMap (visitedCalls pass (pass node inherited)) =
      node.children.attach.flatMap fun child => visitedCalls pass (pass node inherited) child.1 := by
    rw [← List.flatMap_map Subtype.val, List.attach_map_subtype_val]
  rw [visitedCalls, visits_eq, List.filterMap_cons, List.filterMap_flatMap, attached]
  cases node.call? <;> rfl

/-- Expressions and calls have only expressions and calls within them. -/
def isInner : Node → Bool
  | expression _ | call _ => true
  | definition _ | statement _ => false

theorem isInner_of_mem_children {node child : Node} (inner : node.isInner = true) (member : child ∈ node.children) :
    child.isInner = true := by
  have ofArguments {arguments : List Argument} (inside : child ∈ ofArguments arguments) : child.isInner = true := by
    obtain ⟨⟨phrase, value⟩, _, within⟩ := List.mem_flatMap.mp inside
    cases value with
    | none => contradiction
    | some e =>
      rw [List.mem_singleton.mp within]
      rfl
  cases node with
  | definition d => contradiction
  | statement s => contradiction
  | call c => exact ofArguments member
  | expression e =>
    cases e with
    | instantiation phrase fields => exact ofArguments member
    | list phrase items =>
      obtain ⟨item, _, rfl⟩ := List.mem_map.mp member
      rfl
    | _ => grind [children, ofExpression, isInner]

/-- Where nothing that is met within an expression or a call changes what is handed down, all calls
within it inherit the same. -/
theorem visitedCalls_of_isInner (keeps : ∀ node, node.isInner = true → pass node inherited = inherited) (node : Node)
    (inner : node.isInner = true) : node.visitedCalls pass inherited = node.calls.map fun c => (inherited, c) := by
  rw [visitedCalls_eq, calls_eq_children, keeps node inner, List.map_append, List.map_flatMap]
  congr 1
  refine congrArg List.flatten (List.map_congr_left fun child member => ?_)
  exact visitedCalls_of_isInner keeps child (isInner_of_mem_children inner member)
termination_by sizeOf node
decreasing_by exact sizeOf_lt_of_mem_children member

/-- The calls at the places that a walk tells apart. -/
abbrev openCalls (place : Bool) : Node → List (Bool × Call) :=
  visitedCalls (fun node inherited => inherited || Definitions.opensMethods node) place

end Node

/-- What a walk tells of a call's place. -/
def PlacedCall.visited (placed : PlacedCall) : Bool × Call :=
  (placed.1.isOpen, placed.2)

theorem visited_placedCalls (place : CallPlace) (occurrences : List Occurrence) :
    (placedCalls place occurrences).map PlacedCall.visited =
      (Occurrence.calls occurrences).map fun c => (place.isOpen, c) := by
  rw [placedCalls, List.map_map]
  rfl

namespace Node

variable (place : CallPlace)

theorem openCalls_of_isInner (node : Node) (inner : node.isInner = true) :
    node.openCalls place.isOpen = (placedCalls place node.occurrences).map PlacedCall.visited := by
  rw [visited_placedCalls]
  refine visitedCalls_of_isInner _ _ (fun node inner => ?_) node inner
  cases node with
  | expression e => exact Bool.or_false _
  | call c => exact Bool.or_false _
  | definition d => contradiction
  | statement s => contradiction

theorem openCalls_ofValue (value : Option Expression) :
    (ofValue value).flatMap (openCalls place.isOpen) =
      (placedCalls place (valueOccurrences value)).map PlacedCall.visited := by
  cases value with
  | none => rfl
  | some e =>
    show (expression e).openCalls place.isOpen ++ [] = _
    rw [List.append_nil]
    exact openCalls_of_isInner place _ rfl

theorem openCalls_statement (inherited : Bool) (s : Statement) : (statement s).openCalls inherited =
    (ofStatement s).flatMap (openCalls (inherited || Definitions.opensMethods (.statement s))) :=
  visitedCalls_eq _ inherited (statement s)

theorem openCalls_definition (inherited : Bool) (d : Definition) : (definition d).openCalls inherited =
    (ofDefinition d).flatMap (openCalls (inherited || Definitions.opensMethods (.definition d))) :=
  visitedCalls_eq _ inherited (definition d)

/-- Most statements hand down what they inherit. -/
theorem openCalls_of_quiet {s : Statement} (quiet : Definitions.opensMethods (.statement s) = false) :
    (statement s).openCalls place.isOpen = (ofStatement s).flatMap (openCalls place.isOpen) := by
  rw [openCalls_statement, quiet, Bool.or_false]

end Node

mutual

/-- A walk through a statement meets its calls in the order of the text, and tells their places. -/
theorem Statement.openCalls_eq (place : CallPlace) (s : Statement) :
    (Node.statement s).openCalls place.isOpen = (s.placedCalls place).map PlacedCall.visited :=
  match s with
  | .declaration _ owner _ value => by
    rw [Node.openCalls_of_quiet place rfl, Node.ofStatement, List.flatMap_append, Node.openCalls_ofValue,
      List.flatMap_singleton, Node.openCalls_of_isInner place _ rfl, Statement.placedCalls, List.map_append]
    rfl
  | .conditional _ branches otherwise => by
    rw [Node.openCalls_of_quiet place rfl, Node.ofStatement, List.flatMap_append, openCalls_ofBranches place branches,
      openCalls_ofOtherwise place otherwise, Statement.placedCalls, List.map_append]
  | .whileLoop _ condition body => by
    rw [Node.openCalls_of_quiet place rfl, Node.ofStatement, List.flatMap_cons, Node.openCalls_of_isInner place _ rfl,
      openCalls_ofBlock place body, Statement.placedCalls, List.map_append]
    rfl
  | .forEach _ _ source body => by
    rw [Node.openCalls_of_quiet place rfl, Node.ofStatement, List.flatMap_append, Node.openCalls_ofValue,
      openCalls_ofBlock place body, Statement.placedCalls, List.map_append]
  | .give _ value => by
    rw [Node.openCalls_of_quiet place rfl, Node.ofStatement, Node.openCalls_ofValue, Statement.placedCalls]
  | .methodBlock subject body => by
    -- The whole statement opens methods, its subject as well.
    have atSubject := Node.openCalls_of_isInner place.ofSubject (.expression subject) rfl
    have inBody := openCalls_ofBlock .methods body
    rw [CallPlace.isOpen_ofSubject] at atSubject
    have opened : (place.isOpen || Definitions.opensMethods (.statement (.methodBlock subject body))) = true :=
      Bool.or_true _
    rw [Node.openCalls_statement, opened, Node.ofStatement, List.flatMap_cons, atSubject, Statement.placedCalls,
      List.map_append]
    exact congrArg _ inBody
  | .call c => by
    rw [Node.openCalls_of_quiet place rfl, Node.ofStatement, List.flatMap_singleton, Node.openCalls_of_isInner place _ rfl,
      Statement.placedCalls]
    rfl
  | .loopControl .. | .builtin _ => by
    rw [Node.openCalls_of_quiet place rfl]
    rfl

theorem openCalls_ofBlock (place : CallPlace) (block : List Statement) :
    (Node.ofBlock block).flatMap (Node.openCalls place.isOpen) = (blockPlacedCalls place block).map PlacedCall.visited :=
  match block with
  | [] => rfl
  | s :: later => by
    have first := s.openCalls_eq place
    have rest := openCalls_ofBlock place later
    rw [blockPlacedCalls, List.map_append, ← first, ← rest]
    rfl

theorem openCalls_ofBranches (place : CallPlace) (branches : List Branch) :
    (Node.ofBranches branches).flatMap (Node.openCalls place.isOpen) =
      (branchPlacedCalls place branches).map PlacedCall.visited :=
  match branches with
  | [] => rfl
  | ⟨condition, body⟩ :: later => by
    have atCondition := Node.openCalls_of_isInner place (.expression condition) rfl
    have inBody := openCalls_ofBlock place body
    have rest := openCalls_ofBranches place later
    have unfolded : Node.ofBranches (⟨condition, body⟩ :: later) =
        .expression condition :: (Node.ofBlock body ++ Node.ofBranches later) := by
      simp [Node.ofBranches]
    rw [unfolded, List.flatMap_cons, List.flatMap_append, atCondition, inBody, rest, branchPlacedCalls,
      List.map_append, List.map_append, List.append_assoc]
    rfl

theorem openCalls_ofOtherwise (place : CallPlace) (otherwise : Option (List Statement)) :
    ((otherwise.map Node.ofBlock).getD []).flatMap (Node.openCalls place.isOpen) =
      (otherwisePlacedCalls place otherwise).map PlacedCall.visited :=
  match otherwise with
  | none => rfl
  | some body => openCalls_ofBlock place body

end

theorem Definition.openCalls_eq (d : Definition) :
    (Node.definition d).openCalls false = d.placedCalls.map PlacedCall.visited := by
  have free (block : Block) := openCalls_ofBlock .free block
  have methods (block : Block) := openCalls_ofBlock .methods block
  rw [Node.openCalls_definition]
  cases d with
  | function f => exact free f.body
  | noun c => exact free c.body
  | declension d => rfl
  | implementation i =>
    rw [Node.ofDefinition, List.flatMap_append, List.flatMap_assoc, List.flatMap_assoc, Definition.placedCalls,
      List.map_append, List.map_flatMap, List.map_flatMap]
    congr 1
    · exact congrArg List.flatten (List.map_congr_left fun f _ => methods f.body)
    · exact congrArg List.flatten (List.map_congr_left fun c _ => methods c.body)

/-- A walk through a program meets its calls in the order of the text, and tells of each whether it
stands where methods may be named. -/
theorem Program.openCalls_eq (p : Program) :
    p.nodes.flatMap (Node.openCalls false) = p.placedCalls.map PlacedCall.visited := by
  rw [Program.nodes, List.flatMap_append, Program.placedCalls, List.map_append, List.map_flatMap, List.flatMap_map]
  congr 1
  · exact congrArg List.flatten (List.map_congr_left fun d _ => d.openCalls_eq)
  · exact openCalls_ofBlock .free p.statements

/-- A search that a walk makes among the calls is a search among the calls with their places. -/
theorem Program.findSome?_visits {β : Type} (p : Program) (testCall : Bool → Call → Option β)
    {test : Bool × Node → Option β} (ofCall : ∀ visit, test visit = visit.2.call?.bind (testCall visit.1)) :
    (p.visits (fun node inherited => inherited || Definitions.opensMethods node) false).findSome? test =
      p.placedCalls.findSome? fun placed => testCall placed.1.isOpen placed.2 := by
  have met : p.placedCalls.map PlacedCall.visited =
      (p.visits (fun node inherited => inherited || Definitions.opensMethods node) false).filterMap fun visit =>
        visit.2.call?.map fun c => (visit.1, c) := by
    rw [← p.openCalls_eq, Program.visits, List.filterMap_flatMap]
    rfl
  have same : (p.placedCalls.findSome? fun placed => testCall placed.1.isOpen placed.2) =
      (p.placedCalls.map PlacedCall.visited).findSome? fun visited => testCall visited.1 visited.2 := by
    rw [List.findSome?_map]
    rfl
  rw [same, met, ← List.head?_filterMap, ← List.head?_filterMap, List.filterMap_filterMap]
  congr 2
  funext visit
  rw [ofCall]
  cases visit.2.call? <;> rfl

/-- The calls with their places are all calls of the program. -/
theorem Program.placedCalls_calls (p : Program) : p.placedCalls.map Prod.snd = p.calls := by
  have visited : p.placedCalls.map Prod.snd = (p.nodes.flatMap (Node.openCalls false)).map Prod.snd := by
    rw [p.openCalls_eq, List.map_map]
    rfl
  have forgotten (node : Node) : (node.openCalls false).map Prod.snd = node.calls := by
    rw [← Node.filterMap_visits (fun node inherited => inherited || Definitions.opensMethods node) false node,
      Node.openCalls, Node.visitedCalls, List.map_filterMap]
    congr 1
    funext visit
    cases visit.2.call? <;> rfl
  rw [visited, p.calls_eq_nodes, List.map_flatMap]
  simp only [forgotten]

end Satzbau

import Satzbau.Program

namespace Satzbau

/-- What a walk through a program meets. -/
inductive Node
  | definition (d : Definition)
  | statement (s : Statement)
  | expression (e : Expression)
  | call (c : Call)

namespace Node

def ofBlock (block : Block) : List Node :=
  block.map statement

def ofValue (value : Option Expression) : List Node :=
  (value.map expression).toList

def ofArguments (arguments : List Argument) : List Node :=
  arguments.flatMap fun a => ofValue a.value

def ofBranches (branches : List Branch) : List Node :=
  branches.flatMap fun b => expression b.condition :: ofBlock b.body

def ofDefinition : Definition → List Node
  | .function d => ofBlock d.body
  | .noun d => ofBlock d.body
  | .implementation d =>
    d.methods.flatMap (fun m => ofBlock m.body) ++ d.conversions.flatMap fun c => ofBlock c.body
  | .declension _ => []

def ofStatement : Statement → List Node
  | .declaration _ owner _ value => ofValue owner ++ [expression value]
  | .conditional _ branches otherwise => ofBranches branches ++ (otherwise.map ofBlock).getD []
  | .whileLoop _ condition body => expression condition :: ofBlock body
  | .forEach _ _ source body => ofValue source ++ ofBlock body
  | .give _ value => ofValue value
  | .methodBlock subject body => expression subject :: ofBlock body
  | .call c => [call c]
  | .loopControl .. | .builtin _ => []

def ofExpression : Expression → List Node
  | .list _ items => items.map expression
  | .element _ index => [expression index]
  | .call c => [call c]
  | .binary _ _ left right => [expression left, expression right]
  | .minus _ operand => [expression operand]
  | .conversion _ value _ => [expression value]
  | .instantiation _ fields => ofArguments fields
  | .property _ owner => [expression owner]
  | .literal _ | .noun _ | .ownProperty _ | .subjectProperty _ | .self _ | .you _ => []

/-- What stands directly within a node, in the order of a walk. -/
def children : Node → List Node
  | definition d => ofDefinition d
  | statement s => ofStatement s
  | expression e => ofExpression e
  | call c => ofArguments c.arguments

theorem sizeOf_le_of_mem_ofBlock {block : Block} {child : Node} (member : child ∈ ofBlock block) :
    sizeOf child ≤ sizeOf block := by
  obtain ⟨s, inside, rfl⟩ := List.mem_map.mp member
  have smaller := List.sizeOf_lt_of_mem inside
  simp only [statement.sizeOf_spec]
  omega

theorem sizeOf_le_of_mem_ofValue {value : Option Expression} {child : Node}
    (member : child ∈ ofValue value) : sizeOf child ≤ sizeOf value := by
  cases value with
  | none => simp [ofValue] at member
  | some e =>
    simp only [ofValue, Option.map_some, Option.toList_some, List.mem_singleton] at member
    subst member
    simp

theorem sizeOf_lt_of_mem_ofArguments {arguments : List Argument} {child : Node}
    (member : child ∈ ofArguments arguments) : ∃ a ∈ arguments, sizeOf child < sizeOf a := by
  obtain ⟨⟨phrase, value⟩, inside, within⟩ := List.mem_flatMap.mp member
  refine ⟨_, inside, ?_⟩
  have smaller : sizeOf child ≤ sizeOf value := sizeOf_le_of_mem_ofValue within
  simp only [Argument.mk.sizeOf_spec]
  omega

theorem sizeOf_lt_of_mem_ofBranches {branches : List Branch} {child : Node}
    (member : child ∈ ofBranches branches) : sizeOf child < sizeOf branches := by
  obtain ⟨⟨condition, body⟩, inside, within⟩ := List.mem_flatMap.mp member
  have outer := List.sizeOf_lt_of_mem inside
  simp only [Branch.mk.sizeOf_spec] at outer
  rcases List.mem_cons.mp within with rfl | deeper
  · simp only [expression.sizeOf_spec]
    omega
  · have smaller : sizeOf child ≤ sizeOf body := sizeOf_le_of_mem_ofBlock deeper
    omega

theorem sizeOf_lt_of_mem_arguments {c : Call} {a : Argument} (member : a ∈ c.arguments) :
    sizeOf a < sizeOf c := by
  obtain ⟨id, verb, object, groups, suffix⟩ := c
  simp only [Call.mk.sizeOf_spec]
  rcases List.mem_append.mp member with direct | governed
  · cases object with
    | thing item =>
      simp only [ObjectRole.toList, List.mem_singleton] at direct
      subst direct
      simp only [ObjectRole.thing.sizeOf_spec]
      omega
    | _ => simp [ObjectRole.toList] at direct
  · obtain ⟨⟨preposition, items⟩, inside, within⟩ := List.mem_flatMap.mp governed
    have group := List.sizeOf_lt_of_mem inside
    have item : sizeOf a < sizeOf items := List.sizeOf_lt_of_mem within
    simp only [PrepositionGroup.mk.sizeOf_spec] at group
    omega

theorem sizeOf_lt_of_mem_ofDefinition {d : Definition} {child : Node} (member : child ∈ ofDefinition d) :
    sizeOf child < sizeOf d := by
  cases d with
  | function f =>
    obtain ⟨header, body⟩ := f
    have smaller : sizeOf child ≤ sizeOf body := sizeOf_le_of_mem_ofBlock member
    simp only [Definition.function.sizeOf_spec, FunctionDefinition.mk.sizeOf_spec]
    omega
  | noun c =>
    obtain ⟨token, name, fields, body⟩ := c
    have smaller : sizeOf child ≤ sizeOf body := sizeOf_le_of_mem_ofBlock member
    simp only [Definition.noun.sizeOf_spec, ClassDefinition.mk.sizeOf_spec]
    omega
  | implementation i =>
    obtain ⟨token, owner, methods, conversions⟩ := i
    simp only [Definition.implementation.sizeOf_spec, ImplementationDefinition.mk.sizeOf_spec]
    rcases List.mem_append.mp member with inMethods | inConversions
    · obtain ⟨⟨header, body⟩, inside, within⟩ := List.mem_flatMap.mp inMethods
      have outer := List.sizeOf_lt_of_mem inside
      have smaller : sizeOf child ≤ sizeOf body := sizeOf_le_of_mem_ofBlock within
      simp only [FunctionDefinition.mk.sizeOf_spec] at outer
      omega
    · obtain ⟨⟨sign, target, body⟩, inside, within⟩ := List.mem_flatMap.mp inConversions
      have outer := List.sizeOf_lt_of_mem inside
      have smaller : sizeOf child ≤ sizeOf body := sizeOf_le_of_mem_ofBlock within
      simp only [ConversionDefinition.mk.sizeOf_spec] at outer
      omega
  | declension d => simp [ofDefinition] at member

theorem sizeOf_le_of_mem_ofStatement {s : Statement} {child : Node} (member : child ∈ ofStatement s) :
    sizeOf child ≤ sizeOf s := by
  cases s with
  | declaration target owner verb value =>
    simp only [Statement.declaration.sizeOf_spec]
    rcases List.mem_append.mp member with inOwner | atValue
    · have smaller := sizeOf_le_of_mem_ofValue inOwner
      omega
    · obtain rfl := List.mem_singleton.mp atValue
      simp only [expression.sizeOf_spec]
      omega
  | conditional token branches otherwise =>
    simp only [Statement.conditional.sizeOf_spec]
    rcases List.mem_append.mp member with inBranches | inOtherwise
    · have smaller := sizeOf_lt_of_mem_ofBranches inBranches
      omega
    · cases otherwise with
      | none => simp at inOtherwise
      | some block =>
        have smaller := sizeOf_le_of_mem_ofBlock inOtherwise
        simp only [Option.some.sizeOf_spec]
        omega
  | whileLoop token condition body =>
    simp only [Statement.whileLoop.sizeOf_spec]
    rcases List.mem_cons.mp member with rfl | inBody
    · simp only [expression.sizeOf_spec]
      omega
    · have smaller := sizeOf_le_of_mem_ofBlock inBody
      omega
  | forEach token binder source body =>
    simp only [Statement.forEach.sizeOf_spec]
    rcases List.mem_append.mp member with inSource | inBody
    · have smaller := sizeOf_le_of_mem_ofValue inSource
      omega
    · have smaller := sizeOf_le_of_mem_ofBlock inBody
      omega
  | give token value =>
    have smaller := sizeOf_le_of_mem_ofValue member
    simp only [Statement.give.sizeOf_spec]
    omega
  | methodBlock subject body =>
    simp only [Statement.methodBlock.sizeOf_spec]
    rcases List.mem_cons.mp member with rfl | inBody
    · simp only [expression.sizeOf_spec]
      omega
    · have smaller := sizeOf_le_of_mem_ofBlock inBody
      omega
  | call c =>
    obtain rfl := List.mem_singleton.mp member
    simp
  | loopControl control token => simp [ofStatement] at member
  | builtin token => simp [ofStatement] at member

theorem sizeOf_le_of_mem_ofExpression {e : Expression} {child : Node}
    (member : child ∈ ofExpression e) : sizeOf child ≤ sizeOf e := by
  cases e with
  | list phrase items =>
    obtain ⟨item, inside, rfl⟩ := List.mem_map.mp member
    have smaller := List.sizeOf_lt_of_mem inside
    simp only [expression.sizeOf_spec, Expression.list.sizeOf_spec]
    omega
  | instantiation phrase fields =>
    obtain ⟨field, inside, within⟩ := sizeOf_lt_of_mem_ofArguments member
    have smaller := List.sizeOf_lt_of_mem inside
    simp only [Expression.instantiation.sizeOf_spec]
    omega
  | binary operator token left right =>
    simp only [Expression.binary.sizeOf_spec]
    rcases List.mem_cons.mp member with rfl | atRight
    · simp only [expression.sizeOf_spec]
      omega
    · obtain rfl := List.mem_singleton.mp atRight
      simp only [expression.sizeOf_spec]
      omega
  | _ => grind [ofExpression]

/-- A node is larger than whatever stands within it. -/
theorem sizeOf_lt_of_mem_children {node child : Node} (member : child ∈ node.children) :
    sizeOf child < sizeOf node := by
  cases node with
  | definition d =>
    have smaller := sizeOf_lt_of_mem_ofDefinition member
    simp only [definition.sizeOf_spec]
    omega
  | statement s =>
    have smaller := sizeOf_le_of_mem_ofStatement member
    simp only [statement.sizeOf_spec]
    omega
  | expression e =>
    have smaller := sizeOf_le_of_mem_ofExpression member
    simp only [expression.sizeOf_spec]
    omega
  | call c =>
    obtain ⟨a, inside, within⟩ := sizeOf_lt_of_mem_ofArguments member
    have smaller := sizeOf_lt_of_mem_arguments inside
    simp only [call.sizeOf_spec]
    omega

/-- Visits a node and then all that stands within it. Every node is met with something it
inherits: `pass` says what a node hands down to its children. -/
def visits {α : Type} (pass : Node → α → α) (inherited : α) (node : Node) : List (α × Node) :=
  (inherited, node) ::
    node.children.attach.flatMap fun ⟨child, _⟩ => visits pass (pass node inherited) child
termination_by sizeOf node
decreasing_by
  rename_i member
  exact sizeOf_lt_of_mem_children member

end Node

/-- The outermost nodes of a program: its definitions, then its statements. -/
def Program.nodes (p : Program) : List Node :=
  p.definitions.map Node.definition ++ Node.ofBlock p.statements

def Program.visits {α : Type} (pass : Node → α → α) (inherited : α) (p : Program) : List (α × Node) :=
  p.nodes.flatMap (Node.visits pass inherited)

/-- Every node of a program with the number of nodes around it. -/
def Program.walk (p : Program) : List (Nat × Node) :=
  p.visits (fun _ depth => depth + 1) 0

/-- The calls of a program in the order of a walk. -/
def Program.calls (p : Program) : List Call :=
  p.walk.filterMap fun
    | (_, .call c) => some c
    | _ => none

end Satzbau

import Satzbau.Visit

namespace Satzbau

/-- What carries an id in a program. -/
inductive Occurrence
  | phrase (p : NounPhrase)
  | call (c : Call)

namespace Occurrence

def id : Occurrence → NodeId
  | phrase p => p.id
  | call c => c.id

def phraseId? : Occurrence → Option NodeId
  | phrase p => some p.id
  | call _ => none

/-- The calls among occurrences. -/
def calls : List Occurrence → List Call
  | [] => []
  | phrase _ :: later => calls later
  | call c :: later => c :: calls later

@[simp] theorem calls_nil : calls [] = [] := rfl

@[simp] theorem calls_phrase (p : NounPhrase) (later : List Occurrence) :
    calls (phrase p :: later) = calls later := rfl

@[simp] theorem calls_call (c : Call) (later : List Occurrence) :
    calls (call c :: later) = c :: calls later := rfl

@[simp] theorem calls_append (first later : List Occurrence) :
    calls (first ++ later) = calls first ++ calls later := by
  induction first with
  | nil => rfl
  | cons o others ih => cases o <;> simp [ih]

@[simp] theorem calls_flatMap {α : Type} (f : α → List Occurrence) (xs : List α) :
    calls (xs.flatMap f) = xs.flatMap fun x => calls (f x) := by
  induction xs with
  | nil => rfl
  | cons x others ih => simp [ih]

theorem mem_calls {c : Call} {occurrences : List Occurrence} :
    c ∈ calls occurrences ↔ call c ∈ occurrences := by
  induction occurrences with
  | nil => simp
  | cons o others ih => cases o <;> simp [ih]

end Occurrence

/-- The ids of what carries one. -/
def idsOf (occurrences : List Occurrence) : List NodeId :=
  occurrences.map Occurrence.id

@[simp] theorem idsOf_nil : idsOf [] = [] := rfl

@[simp] theorem idsOf_phrase (p : NounPhrase) (later : List Occurrence) :
    idsOf (.phrase p :: later) = p.id :: idsOf later := rfl

@[simp] theorem idsOf_call (c : Call) (later : List Occurrence) :
    idsOf (.call c :: later) = c.id :: idsOf later := rfl

@[simp] theorem idsOf_append (first later : List Occurrence) :
    idsOf (first ++ later) = idsOf first ++ idsOf later :=
  List.map_append

/-- The ids of the phrases among what carries one. -/
def phraseIds (occurrences : List Occurrence) : List NodeId :=
  occurrences.filterMap Occurrence.phraseId?

@[simp] theorem phraseIds_nil : phraseIds [] = [] := rfl

@[simp] theorem phraseIds_phrase (p : NounPhrase) (later : List Occurrence) :
    phraseIds (.phrase p :: later) = p.id :: phraseIds later := rfl

@[simp] theorem phraseIds_call (c : Call) (later : List Occurrence) :
    phraseIds (.call c :: later) = phraseIds later := rfl

@[simp] theorem phraseIds_append (first later : List Occurrence) :
    phraseIds (first ++ later) = phraseIds first ++ phraseIds later :=
  List.filterMap_append

@[simp] theorem phraseIds_flatMap {α : Type} (occurrences : α → List Occurrence) (xs : List α) :
    phraseIds (xs.flatMap occurrences) = xs.flatMap fun x => phraseIds (occurrences x) := by
  rw [phraseIds, List.filterMap_flatMap]
  rfl

theorem mem_phraseIds {id : NodeId} {occurrences : List Occurrence} :
    id ∈ phraseIds occurrences ↔ ∃ p, .phrase p ∈ occurrences ∧ p.id = id := by
  rw [phraseIds, List.mem_filterMap]
  constructor
  · rintro ⟨o, member, same⟩
    cases o with
    | phrase p => exact ⟨p, member, Option.some.inj same⟩
    | call c => contradiction
  · rintro ⟨p, member, same⟩
    exact ⟨.phrase p, member, congrArg some same⟩

theorem phraseIds_sublist (occurrences : List Occurrence) : (phraseIds occurrences).Sublist (idsOf occurrences) := by
  induction occurrences with
  | nil => exact .slnil
  | cons o later ih =>
    cases o with
    | phrase p => exact ih.cons_cons p.id
    | call c => exact ih.cons c.id

theorem callIds_sublist (occurrences : List Occurrence) :
    ((Occurrence.calls occurrences).map Call.id).Sublist (idsOf occurrences) := by
  induction occurrences with
  | nil => exact .slnil
  | cons o later ih =>
    cases o with
    | phrase p => exact ih.cons p.id
    | call c => exact ih.cons_cons c.id

/-- The property with which an expression begins, past operators and conversions. -/
def Expression.leadingProperty? (e : Expression) : Option NounPhrase :=
  match e.firstOperand with
  | .property phrase _ => some phrase
  | _ => none

/-- Whether the phrase of a role is also the property with which its value begins, as it is in
`die Zeile des Buches`. Such a phrase is one phrase that two places share. -/
def Argument.sharesPhrase (phrase : NounPhrase) (value : Option Expression) : Bool :=
  value.bind Expression.leadingProperty? == some phrase

mutual

/-- What carries an id in an expression, in the order of the text. -/
def Expression.occurrences : Expression → List Occurrence
  | .literal _ | .self _ | .you _ => []
  | .noun phrase | .ownProperty phrase | .subjectProperty phrase => [.phrase phrase]
  | .list phrase items => .phrase phrase :: itemOccurrences items
  | .element phrase index => .phrase phrase :: index.occurrences
  | .call c => c.occurrences
  | .binary _ _ left right => left.occurrences ++ right.occurrences
  | .minus _ operand => operand.occurrences
  | .conversion _ value target => value.occurrences ++ [.phrase target]
  | .instantiation phrase fields => .phrase phrase :: argumentOccurrences fields
  | .property phrase owner => .phrase phrase :: owner.occurrences

def itemOccurrences : List Expression → List Occurrence
  | [] => []
  | item :: later => item.occurrences ++ itemOccurrences later

def valueOccurrences : Option Expression → List Occurrence
  | none => []
  | some value => value.occurrences

def Argument.occurrences : Argument → List Occurrence
  | ⟨phrase, value⟩ =>
    if Argument.sharesPhrase phrase value then valueOccurrences value
    else .phrase phrase :: valueOccurrences value

def argumentOccurrences : List Argument → List Occurrence
  | [] => []
  | argument :: later => argument.occurrences ++ argumentOccurrences later

def objectOccurrences : ObjectRole Argument → List Occurrence
  | .thing argument => argument.occurrences
  | .absent | .reflexive _ => []

def groupOccurrences : List (PrepositionGroup Argument) → List Occurrence
  | [] => []
  | ⟨_, items⟩ :: later => argumentOccurrences items ++ groupOccurrences later

def Call.occurrences : Call → List Occurrence
  | ⟨id, verb, object, groups, suffix⟩ =>
    .call ⟨id, verb, object, groups, suffix⟩ :: (objectOccurrences object ++ groupOccurrences groups)

end

mutual

def Statement.occurrences : Statement → List Occurrence
  | .declaration target owner _ value =>
    .phrase target :: (valueOccurrences owner ++ value.occurrences)
  | .conditional _ branches otherwise => branchOccurrences branches ++ otherwiseOccurrences otherwise
  | .whileLoop _ condition body => condition.occurrences ++ blockOccurrences body
  | .forEach _ binder source body => .phrase binder :: (valueOccurrences source ++ blockOccurrences body)
  | .give _ value => valueOccurrences value
  | .methodBlock subject body => subject.occurrences ++ blockOccurrences body
  | .call c => c.occurrences
  | .loopControl .. | .builtin _ => []

def blockOccurrences : List Statement → List Occurrence
  | [] => []
  | s :: later => s.occurrences ++ blockOccurrences later

def branchOccurrences : List Branch → List Occurrence
  | [] => []
  | ⟨condition, body⟩ :: later => condition.occurrences ++ blockOccurrences body ++ branchOccurrences later

def otherwiseOccurrences : Option (List Statement) → List Occurrence
  | none => []
  | some body => blockOccurrences body

end

def Parameter.occurrences (p : Parameter) : List Occurrence :=
  [.phrase p.phrase]

def FunctionHeader.occurrences (h : FunctionHeader) : List Occurrence :=
  h.result.toList.map .phrase ++ h.parameters.flatMap Parameter.occurrences

def FunctionDefinition.occurrences (f : FunctionDefinition) : List Occurrence :=
  f.header.occurrences ++ blockOccurrences f.body

def ConversionDefinition.occurrences (c : ConversionDefinition) : List Occurrence :=
  .phrase c.target :: blockOccurrences c.body

def Definition.occurrences : Definition → List Occurrence
  | .function f => f.occurrences
  | .noun c => .phrase c.name :: (c.fields.flatMap Parameter.occurrences ++ blockOccurrences c.body)
  | .implementation i =>
    .phrase i.owner :: (i.methods.flatMap FunctionDefinition.occurrences ++
      i.conversions.flatMap ConversionDefinition.occurrences)
  | .declension _ => []

def Program.occurrences (p : Program) : List Occurrence :=
  p.definitions.flatMap Definition.occurrences ++ blockOccurrences p.statements

theorem Expression.leadingProperty?_mem {e : Expression} {p : NounPhrase} (leads : e.leadingProperty? = some p) :
    .phrase p ∈ e.occurrences := by
  match e with
  | .binary operator token left right =>
    have inLeft := leadingProperty?_mem (e := left) leads
    simp [Expression.occurrences, inLeft]
  | .conversion token value target =>
    have inValue := leadingProperty?_mem (e := value) leads
    simp [Expression.occurrences, inValue]
  | .property phrase owner =>
    cases leads
    simp [Expression.occurrences]
  | .literal _ | .noun _ | .list _ _ | .element _ _ | .call _ | .minus _ _ | .instantiation _ _
  | .ownProperty _ | .subjectProperty _ | .self _ | .you _ =>
    simp [Expression.leadingProperty?, Expression.firstOperand] at leads

theorem itemOccurrences_eq (items : List Expression) :
    itemOccurrences items = items.flatMap Expression.occurrences := by
  induction items with
  | nil => simp [itemOccurrences]
  | cons item later ih => simp [itemOccurrences, ih]

theorem argumentOccurrences_eq (arguments : List Argument) :
    argumentOccurrences arguments = arguments.flatMap Argument.occurrences := by
  induction arguments with
  | nil => simp [argumentOccurrences]
  | cons argument later ih => simp [argumentOccurrences, ih]

theorem blockOccurrences_eq (block : Block) : blockOccurrences block = block.flatMap Statement.occurrences := by
  induction block with
  | nil => simp [blockOccurrences]
  | cons s later ih => simp [blockOccurrences, ih]

theorem branchOccurrences_cons (b : Branch) (later : List Branch) :
    branchOccurrences (b :: later) = branchOccurrences [b] ++ branchOccurrences later := by
  obtain ⟨condition, body⟩ := b
  simp [branchOccurrences]

theorem Call.occurrences_eq (c : Call) :
    c.occurrences = .call c :: c.arguments.flatMap Argument.occurrences := by
  obtain ⟨id, verb, object, groups, suffix⟩ := c
  have ofGroups : groupOccurrences groups =
      (groups.flatMap PrepositionGroup.items).flatMap Argument.occurrences := by
    induction groups with
    | nil => simp [groupOccurrences]
    | cons g later ih => simp [groupOccurrences, ih, argumentOccurrences_eq]
  cases object <;> simp [Call.occurrences, Call.arguments, objectOccurrences, ObjectRole.toList, ofGroups]

theorem FunctionHeader.calls_occurrences (h : FunctionHeader) : Occurrence.calls h.occurrences = [] := by
  cases result : h.result <;> simp [FunctionHeader.occurrences, Parameter.occurrences, result]

namespace Node

/-- What carries an id within a node. -/
def occurrences : Node → List Occurrence
  | definition d => d.occurrences
  | statement s => s.occurrences
  | expression e => e.occurrences
  | call c => c.occurrences

def call? : Node → Option Call
  | call c => some c
  | _ => none

def calls (node : Node) : List Call :=
  Occurrence.calls node.occurrences

theorem calls_ofBlock (block : Block) :
    (ofBlock block).flatMap calls = Occurrence.calls (blockOccurrences block) := by
  rw [blockOccurrences_eq, Occurrence.calls_flatMap, ofBlock, List.flatMap_map]
  rfl

theorem calls_ofValue (value : Option Expression) :
    (ofValue value).flatMap calls = Occurrence.calls (valueOccurrences value) := by
  cases value <;> simp [ofValue, valueOccurrences, calls, occurrences]

theorem calls_ofArguments (arguments : List Argument) :
    (ofArguments arguments).flatMap calls = Occurrence.calls (arguments.flatMap Argument.occurrences) := by
  rw [Occurrence.calls_flatMap, ofArguments, List.flatMap_assoc]
  congr 1
  funext ⟨phrase, value⟩
  rw [calls_ofValue, Argument.occurrences]
  split
  · rfl
  · rfl

theorem calls_ofBranches (branches : List Branch) :
    (ofBranches branches).flatMap calls = Occurrence.calls (branchOccurrences branches) := by
  induction branches with
  | nil => rfl
  | cons b later ih =>
    obtain ⟨condition, body⟩ := b
    have unfolded : ofBranches (⟨condition, body⟩ :: later) =
        expression condition :: (ofBlock body ++ ofBranches later) := by
      simp [ofBranches]
    rw [unfolded, branchOccurrences, List.flatMap_cons, List.flatMap_append, calls_ofBlock, ih]
    simp [calls, occurrences]

theorem calls_ofDefinition (d : Definition) :
    (ofDefinition d).flatMap calls = Occurrence.calls d.occurrences := by
  cases d with
  | function f =>
    simp [Definition.occurrences, FunctionDefinition.occurrences, ofDefinition, calls_ofBlock,
      FunctionHeader.calls_occurrences]
  | noun c => simp [Definition.occurrences, ofDefinition, calls_ofBlock, Parameter.occurrences]
  | implementation i =>
    simp [Definition.occurrences, FunctionDefinition.occurrences, ConversionDefinition.occurrences,
      ofDefinition, List.flatMap_assoc, calls_ofBlock, FunctionHeader.calls_occurrences]
  | declension d => rfl

theorem calls_ofStatement (s : Statement) :
    (ofStatement s).flatMap calls = Occurrence.calls s.occurrences := by
  cases s with
  | conditional token branches otherwise =>
    cases otherwise <;>
      simp [Statement.occurrences, ofStatement, calls_ofBranches, calls_ofBlock, otherwiseOccurrences]
  | _ => simp [Statement.occurrences, ofStatement, calls_ofBlock, calls_ofValue, calls, occurrences]

theorem calls_ofExpression (e : Expression) :
    (ofExpression e).flatMap calls = Occurrence.calls e.occurrences := by
  cases e with
  | list phrase items =>
    simp [ofExpression, Expression.occurrences, itemOccurrences_eq, List.flatMap_map, calls, occurrences]
  | instantiation phrase fields =>
    simp [ofExpression, Expression.occurrences, calls_ofArguments, argumentOccurrences_eq]
  | _ => simp [ofExpression, Expression.occurrences, calls, occurrences]

/-- The calls within a node are itself, if it is one, and the calls within its children. -/
theorem calls_eq_children (node : Node) : node.calls = node.call?.toList ++ node.children.flatMap calls := by
  cases node with
  | definition d => simp [children, calls_ofDefinition, call?, calls, occurrences]
  | statement s => simp [children, calls_ofStatement, call?, calls, occurrences]
  | expression e => simp [children, calls_ofExpression, call?, calls, occurrences]
  | call c => simp [children, calls_ofArguments, call?, calls, occurrences, Call.occurrences_eq]

theorem visits_eq {α : Type} (pass : Node → α → α) (inherited : α) (node : Node) :
    visits pass inherited node =
      (inherited, node) :: node.children.attach.flatMap fun child => visits pass (pass node inherited) child.1 := by
  rw [visits]

/-- A walk meets the calls within a node in the order of the text, whatever it hands down. -/
theorem filterMap_visits {α : Type} (pass : Node → α → α) (inherited : α) (node : Node) :
    (visits pass inherited node).filterMap (fun visit => visit.2.call?) = node.calls := by
  rw [visits_eq, calls_eq_children, List.filterMap_cons]
  have below : (node.children.attach.flatMap fun child => visits pass (pass node inherited) child.1).filterMap
      (fun visit => visit.2.call?) = node.children.flatMap calls := by
    have attached : node.children.flatMap calls = node.children.attach.flatMap fun child => calls child.1 := by
      rw [← List.flatMap_map Subtype.val, List.attach_map_subtype_val]
    rw [List.filterMap_flatMap, attached]
    congr 1
    funext child
    exact filterMap_visits pass (pass node inherited) child.1
  rw [below]
  cases node.call? <;> rfl
termination_by sizeOf node
decreasing_by exact sizeOf_lt_of_mem_children child.2

end Node

theorem Program.calls_eq_nodes (p : Program) : p.calls = p.nodes.flatMap Node.calls := by
  have ofVisits : p.calls = p.walk.filterMap fun visit => visit.2.call? := by
    unfold Program.calls
    congr 1
    funext ⟨depth, node⟩
    cases node <;> rfl
  rw [ofVisits, Program.walk, Program.visits, List.filterMap_flatMap]
  simp only [Node.filterMap_visits]

/-- The calls that a walk meets are those that occur in the program. -/
theorem Program.calls_eq (p : Program) : p.calls = Occurrence.calls p.occurrences := by
  simp only [calls_eq_nodes, Program.nodes, List.flatMap_append, List.flatMap_map,
    Node.calls_ofBlock, Program.occurrences, Occurrence.calls_append, Occurrence.calls_flatMap]
  rfl

end Satzbau

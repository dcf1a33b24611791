import Mathlib.Data.List.Infix
import Mathlib.Data.List.Nodup
import Satzbau.Proofs.Occurrence

namespace Satzbau

namespace Node

/-- A field of a program or of a node, and the position in it where lists stand in a field. -/
inductive Step
  | definition (i : Nat)
  | statement (i : Nat)
  | body (i : Nat)
  | method (m i : Nat)
  | conversion (c i : Nat)
  | owner
  | value
  | condition
  | branchCondition (b : Nat)
  | branchBody (b i : Nat)
  | otherwise (i : Nat)
  | source
  | subject
  | call
  | item (i : Nat)
  | index
  | left
  | right
  | operand
  | field (i : Nat)
  | object
  | role (g i : Nat)
deriving DecidableEq, Repr

/-- One node stands directly within another, at some field of it. There is a case for every field of the
syntax that has definitions, statements, expressions or calls in it. -/
inductive Holds : Node → Step → Node → Prop
  | functionBody {f : FunctionDefinition} {i : Nat} {s : Statement} (here : f.body[i]? = some s) :
    Holds (definition (.function f)) (.body i) (statement s)
  | classBody {c : ClassDefinition} {i : Nat} {s : Statement} (here : c.body[i]? = some s) :
    Holds (definition (.noun c)) (.body i) (statement s)
  | methodBody {d : ImplementationDefinition} {m i : Nat} {f : FunctionDefinition} {s : Statement}
    (inMethod : d.methods[m]? = some f) (here : f.body[i]? = some s) :
    Holds (definition (.implementation d)) (.method m i) (statement s)
  | conversionBody {d : ImplementationDefinition} {m i : Nat} {c : ConversionDefinition} {s : Statement}
    (inConversion : d.conversions[m]? = some c) (here : c.body[i]? = some s) :
    Holds (definition (.implementation d)) (.conversion m i) (statement s)
  | declarationOwner {target : NounPhrase} {owner value : Expression} {verb : Token} :
    Holds (statement (.declaration target (some owner) verb value)) .owner (expression owner)
  | declarationValue {target : NounPhrase} {owner : Option Expression} {verb : Token} {value : Expression} :
    Holds (statement (.declaration target owner verb value)) .value (expression value)
  | branchCondition {token : Token} {branches : List Branch} {otherwise : Option Block} {b : Nat} {branch : Branch}
    (here : branches[b]? = some branch) :
    Holds (statement (.conditional token branches otherwise)) (.branchCondition b) (expression branch.condition)
  | branchBody {token : Token} {branches : List Branch} {otherwise : Option Block} {b i : Nat} {branch : Branch}
    {s : Statement} (inBranch : branches[b]? = some branch) (here : branch.body[i]? = some s) :
    Holds (statement (.conditional token branches otherwise)) (.branchBody b i) (statement s)
  | otherwise {token : Token} {branches : List Branch} {block : Block} {i : Nat} {s : Statement}
    (here : block[i]? = some s) :
    Holds (statement (.conditional token branches (some block))) (.otherwise i) (statement s)
  | whileCondition {token : Token} {condition : Expression} {body : Block} :
    Holds (statement (.whileLoop token condition body)) .condition (expression condition)
  | whileBody {token : Token} {condition : Expression} {body : Block} {i : Nat} {s : Statement}
    (here : body[i]? = some s) : Holds (statement (.whileLoop token condition body)) (.body i) (statement s)
  | forEachSource {token : Token} {binder : NounPhrase} {source : Expression} {body : Block} :
    Holds (statement (.forEach token binder (some source) body)) .source (expression source)
  | forEachBody {token : Token} {binder : NounPhrase} {source : Option Expression} {body : Block} {i : Nat}
    {s : Statement} (here : body[i]? = some s) :
    Holds (statement (.forEach token binder source body)) (.body i) (statement s)
  | giveValue {token : Token} {value : Expression} :
    Holds (statement (.give token (some value))) .value (expression value)
  | methodBlockSubject {subject : Expression} {body : Block} :
    Holds (statement (.methodBlock subject body)) .subject (expression subject)
  | methodBlockBody {subject : Expression} {body : Block} {i : Nat} {s : Statement} (here : body[i]? = some s) :
    Holds (statement (.methodBlock subject body)) (.body i) (statement s)
  | callStatement {c : Call} : Holds (statement (.call c)) .call (call c)
  | listItem {phrase : NounPhrase} {items : List Expression} {i : Nat} {e : Expression} (here : items[i]? = some e) :
    Holds (expression (.list phrase items)) (.item i) (expression e)
  | elementIndex {phrase : NounPhrase} {index : Expression} :
    Holds (expression (.element phrase index)) .index (expression index)
  | callExpression {c : Call} : Holds (expression (.call c)) .call (call c)
  | binaryLeft {operator : Operator} {token : Token} {left right : Expression} :
    Holds (expression (.binary operator token left right)) .left (expression left)
  | binaryRight {operator : Operator} {token : Token} {left right : Expression} :
    Holds (expression (.binary operator token left right)) .right (expression right)
  | minusOperand {token : Token} {operand : Expression} :
    Holds (expression (.minus token operand)) .operand (expression operand)
  | conversionValue {token : Token} {value : Expression} {target : NounPhrase} :
    Holds (expression (.conversion token value target)) .value (expression value)
  | instantiationField {phrase : NounPhrase} {fields : List Argument} {i : Nat} {a : Argument} {e : Expression}
    (here : fields[i]? = some a) (value : a.value = some e) :
    Holds (expression (.instantiation phrase fields)) (.field i) (expression e)
  | propertyOwner {phrase : NounPhrase} {owner : Expression} :
    Holds (expression (.property phrase owner)) .owner (expression owner)
  | callObject {c : Call} {a : Argument} {e : Expression} (here : c.object = .thing a) (value : a.value = some e) :
    Holds (call c) .object (expression e)
  | callRole {c : Call} {g i : Nat} {group : PrepositionGroup Argument} {a : Argument} {e : Expression}
    (inGroup : c.groups[g]? = some group) (here : group.items[i]? = some a) (value : a.value = some e) :
    Holds (call c) (.role g i) (expression e)

/-- A node stands at the end of a path into another one. -/
inductive At : Node → List Step → Node → Prop
  | here {node : Node} : At node [] node
  | within {node child inner : Node} {step : Step} {path : List Step} (holds : Holds node step child)
    (deeper : At child path inner) : At node (step :: path) inner

end Node

/-- A definition or statement of a program. -/
inductive Program.Holds (p : Program) : Node.Step → Node → Prop
  | definition {i : Nat} {d : Definition} (here : p.definitions[i]? = some d) : p.Holds (.definition i) (.definition d)
  | statement {i : Nat} {s : Statement} (here : p.statements[i]? = some s) : p.Holds (.statement i) (.statement s)

/-- A node stands at the end of a path into a program. -/
inductive Program.At (p : Program) : List Node.Step → Node → Prop
  | within {step : Node.Step} {node inner : Node} {path : List Node.Step} (holds : p.Holds step node)
    (deeper : node.At path inner) : p.At (step :: path) inner

namespace Node

namespace Step

/-- The nodes of one row, each with its step. A position of the row can be empty. -/
def ofRow (step : Nat → Step) (row : List (Option Node)) : List (Step × Node) :=
  row.zipIdx.filterMap fun entry => entry.1.map fun node => (step entry.2, node)

/-- The nodes of several rows, each with its step. -/
def ofRows (step : Nat → Nat → Step) (rows : List (List (Option Node))) : List (Step × Node) :=
  rows.zipIdx.flatMap fun entry => ofRow (step entry.2) entry.1

variable {one : Nat → Step} {two : Nat → Nat → Step} {row : List (Option Node)} {rows : List (List (Option Node))}
variable {step : Step} {node : Node}

theorem mem_ofRow : (step, node) ∈ ofRow one row ↔ ∃ i, row[i]? = some (some node) ∧ one i = step := by
  rw [ofRow, List.mem_filterMap]
  constructor
  · rintro ⟨⟨slot, i⟩, member, here⟩
    obtain ⟨_, rfl, same⟩ := Option.map_eq_some_iff.mp here
    obtain ⟨rfl, rfl⟩ := Prod.mk.inj same
    exact ⟨i, List.mem_zipIdx_iff_getElem?.mp member, rfl⟩
  · rintro ⟨i, here, rfl⟩
    exact ⟨(some node, i), List.mem_zipIdx_iff_getElem?.mpr here, rfl⟩

theorem mem_ofRow_map {α : Type} {slotOf : α → Option Node} {xs : List α} : (step, node) ∈ ofRow one (xs.map slotOf) ↔
    ∃ i x, xs[i]? = some x ∧ one i = step ∧ slotOf x = some node := by
  rw [mem_ofRow]
  simp only [List.getElem?_map, Option.map_eq_some_iff]
  refine exists_congr fun i => ⟨?_, ?_⟩
  · rintro ⟨⟨x, known, is⟩, same⟩
    exact ⟨x, known, same, is⟩
  · rintro ⟨x, known, same, is⟩
    exact ⟨⟨x, known, is⟩, same⟩

/-- Among the rows that some things have, a node stands in the row of one of them. -/
theorem mem_ofRows {α : Type} {rowOf : α → List (Option Node)} {xs : List α} :
    (step, node) ∈ ofRows two (xs.map rowOf) ↔ ∃ k x, xs[k]? = some x ∧ (step, node) ∈ ofRow (two k) (rowOf x) := by
  rw [ofRows, List.mem_flatMap]
  constructor
  · rintro ⟨⟨row, k⟩, member, inside⟩
    have there := List.mem_zipIdx_iff_getElem?.mp member
    rw [List.getElem?_map] at there
    obtain ⟨x, known, rfl⟩ := Option.map_eq_some_iff.mp there
    exact ⟨k, x, known, inside⟩
  · rintro ⟨k, x, known, inside⟩
    refine ⟨(rowOf x, k), List.mem_zipIdx_iff_getElem?.mpr ?_, inside⟩
    rw [List.getElem?_map, known]
    rfl

theorem ofRow_snd (one : Nat → Step) (row : List (Option Node)) : (ofRow one row).map Prod.snd = row.filterMap id := by
  have shifted (n : Nat) : ((row.zipIdx n).filterMap fun entry => entry.1.map fun node => (one entry.2, node)).map Prod.snd =
      row.filterMap id := by
    induction row generalizing n with
    | nil => rfl
    | cons slot later ih =>
      cases slot with
      | none => simpa [List.zipIdx_cons] using ih (n + 1)
      | some node => simpa [List.zipIdx_cons] using ih (n + 1)
  exact shifted 0

theorem ofRows_snd (two : Nat → Nat → Step) (rows : List (List (Option Node))) :
    (ofRows two rows).map Prod.snd = rows.flatMap (List.filterMap id) := by
  rw [ofRows, List.map_flatMap]
  simp only [ofRow_snd]
  rw [← List.flatMap_map Prod.fst, List.zipIdx_map_fst]

/-- Two entries of an indexed list have different indices. -/
theorem pairwise_zipIdx {α : Type} (xs : List α) : xs.zipIdx.Pairwise fun x y => x.2 ≠ y.2 := by
  have indices : (xs.zipIdx.map Prod.snd).Nodup := by
    rw [List.zipIdx_map_snd]
    exact List.nodup_range'
  exact List.pairwise_map.mp indices

theorem nodup_ofRow (injective : ∀ i j, one i = one j → i = j) : ((ofRow one row).map Prod.fst).Nodup := by
  rw [List.Nodup, List.pairwise_map, ofRow, List.pairwise_filterMap]
  refine (pairwise_zipIdx row).imp fun {x y} different => ?_
  intro _ atX _ atY same
  obtain ⟨_, _, rfl⟩ := Option.map_eq_some_iff.mp atX
  obtain ⟨_, _, rfl⟩ := Option.map_eq_some_iff.mp atY
  exact different (injective _ _ same)

theorem nodup_ofRows (injective : ∀ k l i j, two k i = two l j → k = l ∧ i = j) :
    ((ofRows two rows).map Prod.fst).Nodup := by
  rw [ofRows, List.map_flatMap, List.nodup_flatMap]
  refine ⟨fun entry _ => nodup_ofRow fun i j same => (injective _ _ i j same).2, ?_⟩
  refine (pairwise_zipIdx rows).imp fun {x y} different step inX inY => ?_
  obtain ⟨⟨_, _⟩, atX, rfl⟩ := List.mem_map.mp inX
  obtain ⟨⟨_, _⟩, atY, same⟩ := List.mem_map.mp inY
  obtain ⟨i, _, stepX⟩ := mem_ofRow.mp atX
  obtain ⟨j, _, stepY⟩ := mem_ofRow.mp atY
  exact different (injective _ _ i j (stepX.trans (same.symm.trans stepY.symm))).1

/-- Places of which none is a place of the other ones. -/
theorem nodup_append {xs ys : List (Step × Node)} (first : (xs.map Prod.fst).Nodup) (later : (ys.map Prod.fst).Nodup)
    (apart : ∀ x ∈ xs, ∀ y ∈ ys, x.1 ≠ y.1) : ((xs ++ ys).map Prod.fst).Nodup := by
  rw [List.map_append]
  refine List.nodup_append.mpr ⟨first, later, fun step inXs other inYs => ?_⟩
  obtain ⟨x, memberX, rfl⟩ := List.mem_map.mp inXs
  obtain ⟨y, memberY, rfl⟩ := List.mem_map.mp inYs
  exact apart x memberX y memberY

theorem step_ofRow {slot : Step × Node} (member : slot ∈ ofRow one row) : ∃ i, slot.1 = one i := by
  obtain ⟨i, _, same⟩ := mem_ofRow.mp member
  exact ⟨i, same.symm⟩

theorem step_ofRows {slot : Step × Node} (member : slot ∈ ofRows two rows) : ∃ k i, slot.1 = two k i := by
  obtain ⟨⟨row, k⟩, _, inside⟩ := List.mem_flatMap.mp member
  exact ⟨k, step_ofRow inside⟩

end Step

/-- The statements of a block, as a row. -/
def blockRow (block : Block) : List (Option Node) :=
  block.map fun s => some (statement s)

/-- The values of arguments, as a row. An argument that is a bare phrase has none. -/
def argumentRow (arguments : List Argument) : List (Option Node) :=
  arguments.map fun a => a.value.map expression

/-- The condition of a branch, and then its body. -/
def branchRow (b : Branch) : List (Option Node) :=
  some (expression b.condition) :: blockRow b.body

def branchStep (b : Nat) : Nat → Step
  | 0 => .branchCondition b
  | i + 1 => .branchBody b i

/-- What may stand alone in a field. -/
def single (step : Step) (value : Option Expression) : List (Step × Node) :=
  (value.map fun e => (step, expression e)).toList

def objectValue : ObjectRole Argument → Option Expression
  | .thing a => a.value
  | .absent | .reflexive _ => none

/-- What stands directly within a node, and where. -/
def slots : Node → List (Step × Node)
  | definition (.function f) => Step.ofRow .body (blockRow f.body)
  | definition (.noun c) => Step.ofRow .body (blockRow c.body)
  | definition (.implementation d) =>
    Step.ofRows .method (d.methods.map fun f => blockRow f.body) ++
      Step.ofRows .conversion (d.conversions.map fun c => blockRow c.body)
  | definition (.declension _) => []
  | statement (.declaration _ owner _ value) => single .owner owner ++ [(.value, expression value)]
  | statement (.conditional _ branches otherwise) =>
    Step.ofRows branchStep (branches.map branchRow) ++ Step.ofRow .otherwise (blockRow (otherwise.getD []))
  | statement (.whileLoop _ condition body) => (.condition, expression condition) :: Step.ofRow .body (blockRow body)
  | statement (.forEach _ _ source body) => single .source source ++ Step.ofRow .body (blockRow body)
  | statement (.give _ value) => single .value value
  | statement (.methodBlock subject body) => (.subject, expression subject) :: Step.ofRow .body (blockRow body)
  | statement (.call c) => [(.call, call c)]
  | statement (.loopControl ..) | statement (.builtin _) => []
  | expression (.list _ items) => Step.ofRow .item (items.map fun e => some (expression e))
  | expression (.element _ index) => [(.index, expression index)]
  | expression (.call c) => [(.call, call c)]
  | expression (.binary _ _ left right) => [(.left, expression left), (.right, expression right)]
  | expression (.minus _ operand) => [(.operand, expression operand)]
  | expression (.conversion _ value _) => [(.value, expression value)]
  | expression (.instantiation _ fields) => Step.ofRow .field (argumentRow fields)
  | expression (.property _ owner) => [(.owner, expression owner)]
  | expression (.literal _) | expression (.noun _) | expression (.ownProperty _) | expression (.subjectProperty _)
  | expression (.self _) | expression (.you _) => []
  | call c =>
    single .object (objectValue c.object) ++
      Step.ofRows .role (c.groups.map fun g => argumentRow g.items)

theorem filterMap_blockRow (block : Block) : (blockRow block).filterMap id = ofBlock block := by
  rw [blockRow, List.filterMap_map]
  exact congrFun List.filterMap_eq_map' block

theorem filterMap_argumentRow (arguments : List Argument) : (argumentRow arguments).filterMap id = ofArguments arguments := by
  rw [argumentRow, List.filterMap_map]
  exact List.filterMap_eq_flatMap_toList ..

theorem filterMap_branchRow (b : Branch) : (branchRow b).filterMap id = expression b.condition :: ofBlock b.body := by
  rw [← filterMap_blockRow]
  rfl

theorem single_snd (step : Step) (value : Option Expression) : (single step value).map Prod.snd = ofValue value := by
  cases value <;> rfl

/-- The places of a node are those of its children. -/
theorem slots_snd (node : Node) : node.slots.map Prod.snd = node.children := by
  have ofRows {α : Type} (step : Nat → Nat → Step) (row : α → List (Option Node)) (xs : List α) :
      (Step.ofRows step (xs.map row)).map Prod.snd = xs.flatMap fun x => (row x).filterMap id := by
    rw [Step.ofRows_snd, List.flatMap_map]
  cases node with
  | call c =>
    have object : ofArguments c.object.toList = ofValue (objectValue c.object) := by
      cases c.object with
      | absent | reflexive _ => rfl
      | thing a => exact List.append_nil _
    rw [slots, List.map_append, single_snd, ofRows, children, Call.arguments, ← object]
    simp only [filterMap_argumentRow, ofArguments, List.flatMap_append, List.flatMap_assoc]
  | definition d =>
    cases d with
    | function f => exact (Step.ofRow_snd ..).trans (filterMap_blockRow f.body)
    | noun c => exact (Step.ofRow_snd ..).trans (filterMap_blockRow c.body)
    | declension d => rfl
    | implementation d =>
      rw [slots, List.map_append, ofRows, ofRows]
      simp only [filterMap_blockRow]
      rfl
  | statement s =>
    cases s with
    | declaration target owner verb value =>
      rw [slots, List.map_append, single_snd]
      rfl
    | conditional token branches otherwise =>
      rw [slots, List.map_append, ofRows, Step.ofRow_snd, filterMap_blockRow]
      simp only [filterMap_branchRow]
      cases otherwise <;> rfl
    | whileLoop token condition body =>
      rw [slots, List.map_cons, Step.ofRow_snd, filterMap_blockRow]
      rfl
    | forEach token binder source body =>
      rw [slots, List.map_append, single_snd, Step.ofRow_snd, filterMap_blockRow]
      rfl
    | give token value => exact single_snd .value value
    | methodBlock subject body =>
      rw [slots, List.map_cons, Step.ofRow_snd, filterMap_blockRow]
      rfl
    | call c => rfl
    | loopControl _ _ | builtin _ => rfl
  | expression e =>
    cases e with
    | list phrase items =>
      rw [slots, Step.ofRow_snd, List.filterMap_map]
      exact congrFun List.filterMap_eq_map' items
    | instantiation phrase fields => exact (Step.ofRow_snd ..).trans (filterMap_argumentRow fields)
    | element _ _ | call _ | binary _ _ _ _ | minus _ _ | conversion _ _ _ | property _ _ => rfl
    | literal _ | noun _ | ownProperty _ | subjectProperty _ | self _ | you _ => rfl

theorem sizeOf_lt_of_mem_slots {node : Node} {slot : Step × Node} (member : slot ∈ node.slots) :
    sizeOf slot.2 < sizeOf node := by
  refine sizeOf_lt_of_mem_children ?_
  rw [← slots_snd]
  exact List.mem_map_of_mem member

section Rows

variable {one : Nat → Step} {step : Step} {child : Node}

theorem mem_blockRow {block : Block} : (step, child) ∈ Step.ofRow one (blockRow block) ↔
    ∃ i s, block[i]? = some s ∧ one i = step ∧ statement s = child := by
  rw [blockRow, Step.mem_ofRow_map]
  simp only [Option.some.injEq]

theorem mem_argumentRow {arguments : List Argument} : (step, child) ∈ Step.ofRow one (argumentRow arguments) ↔
    ∃ i a, arguments[i]? = some a ∧ one i = step ∧ ∃ e, a.value = some e ∧ expression e = child := by
  rw [argumentRow, Step.mem_ofRow_map]
  simp only [Option.map_eq_some_iff]

/-- In the row of a branch the condition is at 0, and the body behind it. -/
theorem mem_branchRow {b : Branch} : (step, child) ∈ Step.ofRow one (branchRow b) ↔
    (one 0 = step ∧ expression b.condition = child) ∨
      (step, child) ∈ Step.ofRow (fun i => one (i + 1)) (blockRow b.body) := by
  rw [Step.mem_ofRow, Step.mem_ofRow]
  constructor
  · rintro ⟨i | i, here, same⟩
    · exact .inl ⟨same, Option.some.inj (Option.some.inj here)⟩
    · exact .inr ⟨i, here, same⟩
  · rintro (⟨same, rfl⟩ | ⟨i, here, same⟩)
    · exact ⟨0, rfl, same⟩
    · exact ⟨i + 1, here, same⟩

theorem mem_single {field : Step} {value : Option Expression} :
    (step, child) ∈ single field value ↔ ∃ e, value = some e ∧ field = step ∧ expression e = child := by
  rw [single, Option.mem_toList, Option.map_eq_some_iff]
  simp only [Prod.mk.injEq]

end Rows

section Holds

variable {child : Node} {step : Step}

theorem holds_of_mem_call {c : Call} (member : (step, child) ∈ (call c).slots) : (call c).Holds step child := by
  rcases List.mem_append.mp member with inObject | inGroups
  · obtain ⟨e, value, rfl, rfl⟩ := mem_single.mp inObject
    cases object : c.object with
    | absent | reflexive _ =>
      rw [object] at value
      contradiction
    | thing a =>
      rw [object] at value
      exact .callObject object value
  · obtain ⟨g, group, inGroup, inside⟩ := Step.mem_ofRows.mp inGroups
    obtain ⟨i, a, known, rfl, e, value, rfl⟩ := mem_argumentRow.mp inside
    exact .callRole inGroup known value

theorem holds_of_mem_definition {d : Definition} (member : (step, child) ∈ (definition d).slots) :
    (definition d).Holds step child := by
  cases d with
  | function f =>
    obtain ⟨i, s, known, rfl, rfl⟩ := mem_blockRow.mp member
    exact .functionBody known
  | noun c =>
    obtain ⟨i, s, known, rfl, rfl⟩ := mem_blockRow.mp member
    exact .classBody known
  | declension d => contradiction
  | implementation d =>
    rcases List.mem_append.mp member with inMethods | inConversions
    · obtain ⟨m, f, inMethod, inside⟩ := Step.mem_ofRows.mp inMethods
      obtain ⟨i, s, known, rfl, rfl⟩ := mem_blockRow.mp inside
      exact .methodBody inMethod known
    · obtain ⟨m, c, inConversion, inside⟩ := Step.mem_ofRows.mp inConversions
      obtain ⟨i, s, known, rfl, rfl⟩ := mem_blockRow.mp inside
      exact .conversionBody inConversion known

theorem holds_of_mem_statement {s : Statement} (member : (step, child) ∈ (statement s).slots) :
    (statement s).Holds step child := by
  cases s with
  | declaration target owner verb value =>
    rcases List.mem_append.mp member with inOwner | atValue
    · obtain ⟨e, rfl, rfl, rfl⟩ := mem_single.mp inOwner
      exact .declarationOwner
    · cases List.mem_singleton.mp atValue
      exact .declarationValue
  | conditional token branches otherwise =>
    rcases List.mem_append.mp member with inBranches | inOtherwise
    · obtain ⟨b, branch, inBranch, inside⟩ := Step.mem_ofRows.mp inBranches
      rcases mem_branchRow.mp inside with ⟨rfl, rfl⟩ | inBody
      · exact .branchCondition inBranch
      · obtain ⟨i, s, known, rfl, rfl⟩ := mem_blockRow.mp inBody
        exact .branchBody inBranch known
    · obtain ⟨i, s, known, rfl, rfl⟩ := mem_blockRow.mp inOtherwise
      cases otherwise with
      | none => contradiction
      | some block => exact .otherwise known
  | whileLoop token condition body =>
    rcases List.mem_cons.mp member with same | inBody
    · cases same
      exact .whileCondition
    · obtain ⟨i, s, known, rfl, rfl⟩ := mem_blockRow.mp inBody
      exact .whileBody known
  | forEach token binder source body =>
    rcases List.mem_append.mp member with inSource | inBody
    · obtain ⟨e, rfl, rfl, rfl⟩ := mem_single.mp inSource
      exact .forEachSource
    · obtain ⟨i, s, known, rfl, rfl⟩ := mem_blockRow.mp inBody
      exact .forEachBody known
  | give token value =>
    obtain ⟨e, rfl, rfl, rfl⟩ := mem_single.mp member
    exact .giveValue
  | methodBlock subject body =>
    rcases List.mem_cons.mp member with same | inBody
    · cases same
      exact .methodBlockSubject
    · obtain ⟨i, s, known, rfl, rfl⟩ := mem_blockRow.mp inBody
      exact .methodBlockBody known
  | call c =>
    cases List.mem_singleton.mp member
    exact .callStatement
  | loopControl _ _ | builtin _ => contradiction

theorem holds_of_mem_expression {e : Expression} (member : (step, child) ∈ (expression e).slots) :
    (expression e).Holds step child := by
  cases e with
  | list phrase items =>
    obtain ⟨i, e, known, rfl, is⟩ := Step.mem_ofRow_map.mp member
    cases is
    exact .listItem known
  | element phrase index =>
    cases List.mem_singleton.mp member
    exact .elementIndex
  | call c =>
    cases List.mem_singleton.mp member
    exact .callExpression
  | binary operator token left right =>
    rcases List.mem_cons.mp member with same | atRight
    · cases same
      exact .binaryLeft
    · cases List.mem_singleton.mp atRight
      exact .binaryRight
  | minus token operand =>
    cases List.mem_singleton.mp member
    exact .minusOperand
  | conversion token value target =>
    cases List.mem_singleton.mp member
    exact .conversionValue
  | instantiation phrase fields =>
    obtain ⟨i, a, known, rfl, e, value, rfl⟩ := mem_argumentRow.mp member
    exact .instantiationField known value
  | property phrase owner =>
    cases List.mem_singleton.mp member
    exact .propertyOwner
  | literal _ | noun _ | ownProperty _ | subjectProperty _ | self _ | you _ => contradiction

theorem holds_of_mem_slots {node : Node} (member : (step, child) ∈ node.slots) : node.Holds step child := by
  cases node with
  | definition d => exact holds_of_mem_definition member
  | statement s => exact holds_of_mem_statement member
  | expression e => exact holds_of_mem_expression member
  | call c => exact holds_of_mem_call member

end Holds

theorem mem_slots_of_holds {node child : Node} {step : Step} (holds : node.Holds step child) :
    (step, child) ∈ node.slots := by
  cases holds with
  | functionBody here | classBody here => exact mem_blockRow.mpr ⟨_, _, here, rfl, rfl⟩
  | methodBody inMethod here =>
    exact List.mem_append_left _ (Step.mem_ofRows.mpr ⟨_, _, inMethod, mem_blockRow.mpr ⟨_, _, here, rfl, rfl⟩⟩)
  | conversionBody inConversion here =>
    exact List.mem_append_right _ (Step.mem_ofRows.mpr ⟨_, _, inConversion, mem_blockRow.mpr ⟨_, _, here, rfl, rfl⟩⟩)
  | declarationOwner => exact List.mem_append_left _ (mem_single.mpr ⟨_, rfl, rfl, rfl⟩)
  | declarationValue => exact List.mem_append_right _ (List.mem_singleton_self _)
  | branchCondition here =>
    exact List.mem_append_left _ (Step.mem_ofRows.mpr ⟨_, _, here, mem_branchRow.mpr (.inl ⟨rfl, rfl⟩)⟩)
  | branchBody inBranch here =>
    refine List.mem_append_left _ (Step.mem_ofRows.mpr ⟨_, _, inBranch, mem_branchRow.mpr (.inr ?_)⟩)
    exact mem_blockRow.mpr ⟨_, _, here, rfl, rfl⟩
  | otherwise here => exact List.mem_append_right _ (mem_blockRow.mpr ⟨_, _, here, rfl, rfl⟩)
  | whileCondition | methodBlockSubject => exact List.mem_cons_self ..
  | whileBody here | methodBlockBody here => exact List.mem_cons_of_mem _ (mem_blockRow.mpr ⟨_, _, here, rfl, rfl⟩)
  | forEachSource => exact List.mem_append_left _ (mem_single.mpr ⟨_, rfl, rfl, rfl⟩)
  | forEachBody here => exact List.mem_append_right _ (mem_blockRow.mpr ⟨_, _, here, rfl, rfl⟩)
  | giveValue => exact mem_single.mpr ⟨_, rfl, rfl, rfl⟩
  | listItem here => exact Step.mem_ofRow_map.mpr ⟨_, _, here, rfl, rfl⟩
  | instantiationField here value => exact mem_argumentRow.mpr ⟨_, _, here, rfl, _, value, rfl⟩
  | callObject here value =>
    refine List.mem_append_left _ (mem_single.mpr ⟨_, ?_, rfl, rfl⟩)
    rw [here]
    exact value
  | callRole inGroup here value =>
    exact List.mem_append_right _
      (Step.mem_ofRows.mpr ⟨_, _, inGroup, mem_argumentRow.mpr ⟨_, _, here, rfl, _, value, rfl⟩⟩)
  | binaryRight => exact List.mem_cons_of_mem _ (List.mem_singleton_self _)
  | callStatement | elementIndex | callExpression | binaryLeft | minusOperand | conversionValue | propertyOwner =>
    exact List.mem_cons_self ..

theorem nodup_single (field : Step) (value : Option Expression) : ((single field value).map Prod.fst).Nodup := by
  cases value with
  | none => exact List.nodup_nil
  | some e => exact List.nodup_singleton field

theorem nodup_body (block : Block) : ((Step.ofRow .body (blockRow block)).map Prod.fst).Nodup :=
  Step.nodup_ofRow fun _ _ same => Step.body.inj same

theorem branchStep_injective (k l i j : Nat) (same : branchStep k i = branchStep l j) : k = l ∧ i = j := by
  cases i <;> cases j <;> cases same <;> exact ⟨rfl, rfl⟩

/-- A body behind other places. -/
theorem nodup_beforeBody {slots : List (Step × Node)} (first : (slots.map Prod.fst).Nodup)
    (notBody : ∀ x ∈ slots, ∀ i, x.1 ≠ .body i) (body : Block) :
    ((slots ++ Step.ofRow .body (blockRow body)).map Prod.fst).Nodup := by
  refine Step.nodup_append first (nodup_body body) fun x inX y inY => ?_
  obtain ⟨i, isY⟩ := Step.step_ofRow inY
  rw [isY]
  exact notBody x inX i

theorem nodup_statement (s : Statement) : ((statement s).slots.map Prod.fst).Nodup := by
  cases s with
  | declaration target owner verb value =>
    refine Step.nodup_append (nodup_single .owner owner) (List.nodup_singleton _) fun x inX y inY => ?_
    obtain ⟨_, _, isX, _⟩ := mem_single.mp inX
    rw [← isX, List.mem_singleton.mp inY]
    exact nofun
  | conditional token branches otherwise =>
    refine Step.nodup_append (Step.nodup_ofRows branchStep_injective)
      (Step.nodup_ofRow fun _ _ same => Step.otherwise.inj same) fun x inX y inY => ?_
    obtain ⟨_, i, isX⟩ := Step.step_ofRows inX
    obtain ⟨_, isY⟩ := Step.step_ofRow inY
    rw [isX, isY]
    cases i <;> exact nofun
  | whileLoop token condition body =>
    refine @nodup_beforeBody [(.condition, expression condition)] (List.nodup_singleton _) (fun x inX i => ?_) body
    rw [List.mem_singleton.mp inX]
    exact nofun
  | forEach token binder source body =>
    refine nodup_beforeBody (nodup_single .source source) (fun x inX i => ?_) body
    obtain ⟨_, _, isX, _⟩ := mem_single.mp inX
    rw [← isX]
    exact nofun
  | give token value => exact nodup_single .value value
  | methodBlock subject body =>
    refine @nodup_beforeBody [(.subject, expression subject)] (List.nodup_singleton _) (fun x inX i => ?_) body
    rw [List.mem_singleton.mp inX]
    exact nofun
  | call c => exact List.nodup_singleton _
  | loopControl _ _ | builtin _ => exact List.nodup_nil

/-- A node has each of its places only once. -/
theorem nodup_slots (node : Node) : (node.slots.map Prod.fst).Nodup := by
  cases node with
  | call c =>
    refine Step.nodup_append (nodup_single .object _) (Step.nodup_ofRows fun _ _ _ _ same => Step.role.inj same)
      fun x inX y inY => ?_
    obtain ⟨_, _, isX, _⟩ := mem_single.mp inX
    obtain ⟨_, _, isY⟩ := Step.step_ofRows inY
    rw [← isX, isY]
    exact nofun
  | definition d =>
    cases d with
    | function f => exact nodup_body f.body
    | noun c => exact nodup_body c.body
    | declension d => exact List.nodup_nil
    | implementation d =>
      refine Step.nodup_append (Step.nodup_ofRows fun _ _ _ _ same => Step.method.inj same)
        (Step.nodup_ofRows fun _ _ _ _ same => Step.conversion.inj same) fun x inX y inY => ?_
      obtain ⟨_, _, isX⟩ := Step.step_ofRows inX
      obtain ⟨_, _, isY⟩ := Step.step_ofRows inY
      rw [isX, isY]
      exact nofun
  | statement s => exact nodup_statement s
  | expression e =>
    cases e with
    | list phrase items => exact Step.nodup_ofRow fun _ _ same => Step.item.inj same
    | instantiation phrase fields => exact Step.nodup_ofRow fun _ _ same => Step.field.inj same
    | binary operator token left right =>
      show [Step.left, Step.right].Nodup
      decide
    | element _ _ | call _ | minus _ _ | conversion _ _ _ | property _ _ => exact List.nodup_singleton _
    | literal _ | noun _ | ownProperty _ | subjectProperty _ | self _ | you _ => exact List.nodup_nil

/-- Every field that can have a node in it is one of the places of a node, and there are no others. -/
theorem mem_slots {node child : Node} {step : Step} : (step, child) ∈ node.slots ↔ node.Holds step child :=
  ⟨holds_of_mem_slots, mem_slots_of_holds⟩

/-- All nodes within a node and itself, each with the path that leads to it. -/
def places (node : Node) : List (List Step × Node) :=
  ([], node) :: node.slots.attach.flatMap fun slot => (places slot.1.2).map fun place => (slot.1.1 :: place.1, place.2)
termination_by sizeOf node
decreasing_by exact sizeOf_lt_of_mem_slots slot.2

/-- All nodes at and below some places. -/
def below (slots : List (Step × Node)) : List (List Step × Node) :=
  slots.flatMap fun slot => slot.2.places.map fun place => (slot.1 :: place.1, place.2)

theorem places_eq (node : Node) : node.places = ([], node) :: below node.slots := by
  rw [places, below, ← List.flatMap_map Subtype.val fun slot : Step × Node =>
    slot.2.places.map fun place => (slot.1 :: place.1, place.2), List.attach_map_subtype_val]

variable {slots : List (Step × Node)} {path : List Step} {node inner : Node}

theorem mem_below : (path, inner) ∈ below slots ↔
    ∃ step child rest, (step, child) ∈ slots ∧ (rest, inner) ∈ child.places ∧ path = step :: rest := by
  rw [below, List.mem_flatMap]
  constructor
  · rintro ⟨⟨step, child⟩, member, inside⟩
    obtain ⟨⟨rest, _⟩, deeper, same⟩ := List.mem_map.mp inside
    obtain ⟨rfl, rfl⟩ := Prod.mk.inj same
    exact ⟨step, child, rest, member, deeper, rfl⟩
  · rintro ⟨step, child, rest, member, deeper, rfl⟩
    exact ⟨(step, child), member, List.mem_map_of_mem deeper⟩

theorem at_of_mem_places {node : Node} {path : List Step} (member : (path, inner) ∈ node.places) : node.At path inner := by
  rw [places_eq] at member
  rcases List.mem_cons.mp member with same | deeper
  · cases same
    exact .here
  · obtain ⟨step, child, rest, there, inside, rfl⟩ := mem_below.mp deeper
    have smaller := sizeOf_lt_of_mem_slots there
    exact .within (mem_slots.mp there) (at_of_mem_places inside)
termination_by sizeOf node

theorem mem_places : (path, inner) ∈ node.places ↔ node.At path inner := by
  refine ⟨at_of_mem_places, fun at' => ?_⟩
  induction at' with
  | @here node =>
    rw [places_eq]
    exact List.mem_cons_self ..
  | @within node child inner step path holds _ ih =>
    rw [places_eq]
    exact List.mem_cons_of_mem _ (mem_below.mpr ⟨step, child, path, mem_slots.mpr holds, ih, rfl⟩)

/-- No path stands behind one that it leads on to. -/
def OuterFirst (paths : List (List Step)) : Prop :=
  paths.Pairwise fun earlier later => ¬ later <+: earlier

theorem OuterFirst.nodup {paths : List (List Step)} (ordered : OuterFirst paths) : paths.Nodup :=
  ordered.imp fun {earlier later} apart (same : earlier = later) => apart (same ▸ List.prefix_rfl)

/-- Below different places there are different paths, and those below one place are as they are in its node. -/
theorem outerFirst_below (distinct : (slots.map Prod.fst).Nodup)
    (each : ∀ slot ∈ slots, OuterFirst (slot.2.places.map Prod.fst)) : OuterFirst ((below slots).map Prod.fst) := by
  rw [OuterFirst, below, List.pairwise_map, List.pairwise_flatMap]
  refine ⟨fun slot member => ?_, (List.pairwise_map.mp distinct).imp fun {x y} different => ?_⟩
  · refine List.pairwise_map.mpr ((List.pairwise_map.mp (each slot member)).imp fun apart leads => apart ?_)
    exact (List.cons_prefix_cons.mp leads).2
  · intro first inX later inY leads
    obtain ⟨_, _, rfl⟩ := List.mem_map.mp inX
    obtain ⟨_, _, rfl⟩ := List.mem_map.mp inY
    exact different (List.cons_prefix_cons.mp leads).1.symm

theorem outerFirst_places (node : Node) : OuterFirst (node.places.map Prod.fst) := by
  rw [places_eq, List.map_cons]
  refine List.pairwise_cons.mpr ⟨fun path inside => ?_, ?_⟩
  · obtain ⟨⟨_, _⟩, member, rfl⟩ := List.mem_map.mp inside
    obtain ⟨_, _, _, _, _, rfl⟩ := mem_below.mp member
    exact fun leads => nomatch List.prefix_nil.mp leads
  · exact outerFirst_below node.nodup_slots fun slot member => outerFirst_places slot.2
termination_by sizeOf node
decreasing_by exact sizeOf_lt_of_mem_slots member

theorem visits_eq_slots {α : Type} (pass : Node → α → α) (inherited : α) (node : Node) :
    visits pass inherited node =
      (inherited, node) :: node.slots.flatMap fun slot => visits pass (pass node inherited) slot.2 := by
  rw [visits_eq, ← List.flatMap_map Subtype.val (visits pass (pass node inherited)), List.attach_map_subtype_val,
    ← slots_snd, List.flatMap_map]

/-- A walk that counts the nodes around each one meets the nodes as they are placed. -/
theorem visits_eq_places (depth : Nat) (node : Node) :
    visits (fun _ depth => depth + 1) depth node = node.places.map fun place => (depth + place.1.length, place.2) := by
  rw [visits_eq_slots, places_eq, List.map_cons, below, List.map_flatMap]
  congr 1
  refine congrArg List.flatten (List.map_congr_left fun slot member => ?_)
  rw [visits_eq_places (depth + 1) slot.2, List.map_map]
  refine List.map_congr_left fun place _ => ?_
  simp only [Function.comp_apply, List.length_cons, Prod.mk.injEq, and_true]
  omega
termination_by sizeOf node
decreasing_by exact sizeOf_lt_of_mem_slots member

end Node

namespace Program

open Node

variable {p : Program} {path : List Step} {inner : Node}

/-- The definitions and statements of a program, and where they stand. -/
def slots (p : Program) : List (Step × Node) :=
  Step.ofRow .definition (p.definitions.map fun d => some (.definition d)) ++ Step.ofRow .statement (blockRow p.statements)

/-- All nodes of a program, each with the path that leads to it. -/
def places (p : Program) : List (List Step × Node) :=
  below p.slots

theorem slots_snd (p : Program) : p.slots.map Prod.snd = p.nodes := by
  rw [slots, List.map_append, Step.ofRow_snd, Step.ofRow_snd, filterMap_blockRow, List.filterMap_map]
  exact congrArg (· ++ _) (congrFun List.filterMap_eq_map' p.definitions)

theorem mem_slots {step : Step} : (step, inner) ∈ p.slots ↔ p.Holds step inner := by
  constructor
  · intro member
    rcases List.mem_append.mp member with inDefinitions | inStatements
    · obtain ⟨i, d, known, rfl, is⟩ := Step.mem_ofRow_map.mp inDefinitions
      cases is
      exact .definition known
    · obtain ⟨i, s, known, rfl, rfl⟩ := mem_blockRow.mp inStatements
      exact .statement known
  · rintro (known | known)
    · exact List.mem_append_left _ (Step.mem_ofRow_map.mpr ⟨_, _, known, rfl, rfl⟩)
    · exact List.mem_append_right _ (mem_blockRow.mpr ⟨_, _, known, rfl, rfl⟩)

theorem nodup_slots (p : Program) : (p.slots.map Prod.fst).Nodup := by
  refine Step.nodup_append (Step.nodup_ofRow fun _ _ same => Step.definition.inj same)
    (Step.nodup_ofRow fun _ _ same => Step.statement.inj same) fun x inX y inY => ?_
  obtain ⟨_, isX⟩ := Step.step_ofRow inX
  obtain ⟨_, isY⟩ := Step.step_ofRow inY
  rw [isX, isY]
  exact nofun

/-- The places of a program are the places that there are in it. -/
theorem mem_places : (path, inner) ∈ p.places ↔ p.At path inner := by
  rw [places, mem_below]
  constructor
  · rintro ⟨step, child, rest, member, deeper, rfl⟩
    exact .within (mem_slots.mp member) (Node.mem_places.mp deeper)
  · rintro ⟨holds, deeper⟩
    exact ⟨_, _, _, mem_slots.mpr holds, Node.mem_places.mpr deeper, rfl⟩

theorem outerFirst_places (p : Program) : OuterFirst (p.places.map Prod.fst) :=
  outerFirst_below p.nodup_slots fun slot _ => slot.2.outerFirst_places

theorem walk_eq_places (p : Program) : p.walk = p.places.map fun place => (place.1.length - 1, place.2) := by
  rw [walk, visits, ← slots_snd, List.flatMap_map, places, below, List.map_flatMap]
  congr 1
  funext slot
  rw [visits_eq_places, List.map_map]
  simp [Function.comp_def]

end Program

end Satzbau

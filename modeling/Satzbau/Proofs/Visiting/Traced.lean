import Satzbau.Proofs.Backtracking
import Satzbau.Proofs.Defining.Reordered
import Satzbau.Proofs.Visiting.Places

namespace Satzbau

/-- A check that also lists the calls whose check it has begun, those of attempts that failed as well. -/
abbrev Tracing := ExceptT Diagnostic (StateM (Annotations × List Call))

namespace Tracing

/-- Notes a call whose check begins. -/
def note (c : Call) : Tracing Unit :=
  modify fun s => (s.1, s.2 ++ [c])

/-- A check in which no call is checked. -/
def ofChecking {α : Type} (check : Checking α) : Tracing α :=
  fun s => (((check.run s.1).1, ((check.run s.1).2, s.2)) : Except Diagnostic α × Annotations × List Call)

end Tracing

namespace Checker

open Tracing

def traceCases (check : Case → Tracing Unit) (failure : Diagnostic) : List Case → Tracing Unit
  | [] => throw failure
  | c :: others => do
    let before := (← get).1.checkpoint
    tryCatch (check c) fun failure => do
      modify fun s => (s.1.rollback before, s.2)
      traceCases check failure others

def traceGroup (preposition : Token) (check : Case → Tracing Unit) : Tracing Unit :=
  match Preposition.cases? preposition.text with
  | none => throw (preposition.unexpected "a preposition")
  | some cases => traceCases check (.unlocated (.internal "preposition without cases")) cases

mutual

def traceExpression (dictionary : Dictionary) (cases : CaseSet) (numbers : NumberSet) (leading : Bool) :
    Expression → Tracing Unit
  | .literal _ | .self _ | .you _ => return
  | .noun phrase | .ownProperty phrase | .subjectProperty phrase => do
    let _ ← ofChecking (resolve dictionary phrase cases numbers)
  | .list phrase items => do
    let _ ← ofChecking (resolve dictionary phrase cases (.single .plural))
    traceItems dictionary items
  | .element phrase index => do
    let _ ← ofChecking (resolve dictionary phrase cases (.single .plural))
    traceExpression dictionary (.single .nominative) .all true index
  | .call c => traceCall dictionary c
  | .binary operator _ left right => do
    let own := CaseSet.single operator.operatorClass.operandCase
    traceExpression dictionary (if leading then cases else own) .all leading left
    traceExpression dictionary own .all false right
  | .minus _ operand => traceExpression dictionary cases .all true operand
  | .conversion _ value target => do
    traceExpression dictionary cases numbers true value
    ofChecking (resolveIn dictionary target .nominative (.single .singular))
  | .instantiation phrase fields => do
    let _ ← ofChecking (resolve dictionary phrase cases (.single .singular))
    traceArguments dictionary .dative fields
  | .property phrase owner => do
    let _ ← ofChecking (resolve dictionary phrase cases numbers)
    traceExpression dictionary (.single .genitive) .all true owner

def traceItems (dictionary : Dictionary) : List Expression → Tracing Unit
  | [] => return
  | item :: later => do
    traceExpression dictionary (.single .nominative) .all true item
    traceItems dictionary later

def traceArgument (dictionary : Dictionary) (c : Case) : Argument → Tracing Unit
  | ⟨phrase, value⟩ => do
    let reading ← ofChecking (resolve dictionary phrase (.single c) .all)
    traceValue dictionary reading.cases value

def traceArguments (dictionary : Dictionary) (c : Case) : List Argument → Tracing Unit
  | [] => return
  | argument :: later => do
    traceArgument dictionary c argument
    traceArguments dictionary c later

def traceValue (dictionary : Dictionary) (cases : CaseSet) : Option Expression → Tracing Unit
  | none => return
  | some value => traceExpression dictionary cases .all true value

def traceObject (dictionary : Dictionary) : ObjectRole Argument → Tracing Unit
  | .thing argument => traceArgument dictionary .accusative argument
  | .absent | .reflexive _ => return

def traceGroups (dictionary : Dictionary) : List (PrepositionGroup Argument) → Tracing Unit
  | [] => return
  | ⟨preposition, items⟩ :: later => do
    traceGroup preposition fun c => traceArguments dictionary c items
    traceGroups dictionary later

def traceCall (dictionary : Dictionary) : Call → Tracing Unit
  | ⟨id, verb, object, groups, suffix⟩ => do
    note ⟨id, verb, object, groups, suffix⟩
    traceObject dictionary object
    traceGroups dictionary groups

end

mutual

def traceStatement (dictionary : Dictionary) : Statement → Tracing Unit
  | .declaration target owner verb value => do
    let reading ← ofChecking (resolve dictionary target (.single .nominative) .all)
    ofChecking (checkAssignment verb reading.number)
    traceValue dictionary (.single .genitive) owner
    traceExpression dictionary (.single .nominative) .all true value
  | .conditional _ branches otherwise => do
    traceBranches dictionary branches
    traceOtherwise dictionary otherwise
  | .whileLoop _ condition body => do
    traceExpression dictionary (.single .nominative) .all true condition
    traceBlock dictionary body
  | .forEach _ binder source body => do
    ofChecking (resolveIn dictionary binder .accusative (.single .singular))
    traceValue dictionary (.single .dative) source
    traceBlock dictionary body
  | .give _ value => traceValue dictionary (.single .accusative) value
  | .methodBlock subject body => do
    traceExpression dictionary (.single .nominative) .all true subject
    traceBlock dictionary body
  | .call c => traceCall dictionary c
  | .loopControl .. | .builtin _ => return

def traceBlock (dictionary : Dictionary) : List Statement → Tracing Unit
  | [] => return
  | s :: later => do
    traceStatement dictionary s
    traceBlock dictionary later

def traceBranches (dictionary : Dictionary) : List Branch → Tracing Unit
  | [] => return
  | ⟨condition, body⟩ :: later => do
    traceExpression dictionary (.single .nominative) .all true condition
    traceBlock dictionary body
    traceBranches dictionary later

def traceOtherwise (dictionary : Dictionary) : Option (List Statement) → Tracing Unit
  | none => return
  | some body => traceBlock dictionary body

end

def traceFunction (dictionary : Dictionary) (f : FunctionDefinition) : Tracing Unit := do
  ofChecking (checkHeader dictionary f.header)
  traceBlock dictionary f.body

def traceDefinition (dictionary : Dictionary) : Definition → Tracing Unit
  | .function f => traceFunction dictionary f
  | .noun c => do
    ofChecking (resolveIn dictionary c.name .nominative (.single .singular))
    ofChecking (c.fields.forM fun p => resolveIn dictionary p.phrase .dative .all)
    traceBlock dictionary c.body
  | .implementation i => do
    ofChecking (resolveIn dictionary i.owner .accusative (.single .singular))
    i.methods.forM (traceFunction dictionary)
    i.conversions.forM fun c => do
      ofChecking (resolveIn dictionary c.target .nominative (.single .singular))
      traceBlock dictionary c.body
  | .declension _ => return

end Checker

/-- The grammar check of a program with a list of the calls that it checks. -/
def Program.trace (p : Program) (dictionary : Dictionary) : Tracing Unit := do
  p.definitions.forM (Checker.traceDefinition dictionary)
  Checker.traceBlock dictionary p.statements

/-- The calls that the grammar check of a program checks, in the order in which their checks begin. -/
def Program.checkedCalls (p : Program) (dictionary : Dictionary) : List Call :=
  ((p.trace dictionary).run (.empty, [])).2.2

namespace Tracing

variable {α β : Type}

theorem bind_run (m : Tracing α) (f : α → Tracing β) (s : Annotations × List Call) :
    (m >>= f).run s = match m.run s with
      | (.ok r, t) => (f r).run t
      | (.error fault, t) => (.error fault, t) := by
  unfold ExceptT.run
  simp only [bind, ExceptT.bind, ExceptT.mk, StateT.bind]
  rcases m s with ⟨_ | _, t⟩
  · rfl
  · rfl

theorem tryCatch_run (m : Tracing α) (handler : Diagnostic → Tracing α) (s : Annotations × List Call) :
    (tryCatch m handler).run s = match m.run s with
      | (.ok r, t) => (.ok r, t)
      | (.error fault, t) => (handler fault).run t := by
  unfold ExceptT.run
  simp only [tryCatch, tryCatchThe, MonadExceptOf.tryCatch, ExceptT.tryCatch, ExceptT.mk, bind, StateT.bind]
  rcases m s with ⟨_ | _, t⟩
  · rfl
  · rfl

end Tracing

/-- Without its list a traced check is a check. It lists only some given calls, and all of them in their
order where the check passes. -/
def Traces {α : Type} (traced : Tracing α) (check : Checking α) (calls : List Call) : Prop :=
  ∀ a listed, ∃ met, traced.run (a, listed) = ((check.run a).1, (check.run a).2, listed ++ met) ∧
    met ⊆ calls ∧ ((check.run a).1.isOk = true → calls.Sublist met)

namespace Traces

variable {α β : Type} {traced : Tracing α} {check : Checking α} {calls calls' : List Call}

theorem ofChecking (check : Checking α) : Traces (.ofChecking check) check [] :=
  fun _ listed => ⟨[], by rw [List.append_nil]; rfl, List.nil_subset _, fun _ => .slnil⟩

theorem pure (r : α) : Traces (Pure.pure r) (Pure.pure r) [] :=
  ofChecking (Pure.pure r)

theorem throw (fault : Diagnostic) (calls : List Call) : Traces (throw fault : Tracing α) (throw fault) calls :=
  fun _ listed => ⟨[], by rw [List.append_nil]; rfl, List.nil_subset _, nofun⟩

theorem bind {tracedNext : α → Tracing β} {next : α → Checking β} (first : Traces traced check calls)
    (later : ∀ r, Traces (tracedNext r) (next r) calls') : Traces (traced >>= tracedNext) (check >>= next) (calls ++ calls') := by
  intro a listed
  obtain ⟨met, run, within, passes⟩ := first a listed
  rw [Tracing.bind_run, Checking.bind_run, run]
  rcases result : check.run a with ⟨fault | r, b⟩
  · exact ⟨met, rfl, fun c inside => List.mem_append_left calls' (within inside), nofun⟩
  · obtain ⟨met', run', within', passes'⟩ := later r b (listed ++ met)
    rw [result] at passes
    refine ⟨met ++ met', ?_, ?_, fun passed => (passes rfl).append (passes' passed)⟩
    · dsimp only
      rw [run', List.append_assoc]
    · exact List.append_subset.mpr ⟨fun c inside => List.mem_append_left calls' (within inside),
        fun c inside => List.mem_append_right calls (within' inside)⟩

/-- Two checks one after the other. -/
theorem seq {traced : Tracing Unit} {check : Checking Unit} {tracedNext : Tracing β} {next : Checking β}
    (first : Traces traced check calls) (later : Traces tracedNext next calls') :
    Traces (do traced; tracedNext) (do check; next) (calls ++ calls') :=
  first.bind fun _ => later

/-- A check that is of no call, and then one. -/
theorem behind {first : Checking β} {tracedNext : β → Tracing α} {next : β → Checking α}
    (later : ∀ r, Traces (tracedNext r) (next r) calls) :
    Traces (Tracing.ofChecking first >>= tracedNext) (first >>= next) calls :=
  (ofChecking first).bind later

theorem note (c : Call) (later : Traces traced check calls) : Traces (do Tracing.note c; traced) check (c :: calls) := by
  intro a listed
  obtain ⟨met, run, within, passes⟩ := later a (listed ++ [c])
  refine ⟨c :: met, ?_, List.cons_subset_cons c within, fun passed => (passes passed).cons_cons c⟩
  rw [Tracing.bind_run]
  exact run.trans (by rw [List.append_assoc]; rfl)

theorem forM {f : β → Tracing Unit} {g : β → Checking Unit} {calls : β → List Call}
    (each : ∀ x, Traces (f x) (g x) (calls x)) (xs : List β) : Traces (xs.forM f) (xs.forM g) (xs.flatMap calls) := by
  induction xs with
  | nil => exact pure ()
  | cons x later ih => exact (each x).seq ih

/-- What attempts have listed stays listed where they fail, and each lists only calls of the group. -/
theorem tryCases {traced : Case → Tracing Unit} {check : Case → Checking Unit} (each : ∀ c, Traces (traced c) (check c) calls)
    (failure : Diagnostic) (cases : List Case) :
    Traces (Checker.traceCases traced failure cases) (Checker.tryCases check failure cases) calls := by
  induction cases generalizing failure with
  | nil => exact throw failure calls
  | cons c others ih =>
    intro a listed
    obtain ⟨met, run, within, passes⟩ := each c a listed
    have attempt : (Checker.traceCases traced failure (c :: others)).run (a, listed) =
        match (traced c).run (a, listed) with
        | (.ok r, t) => (.ok r, t)
        | (.error fault, t) => (Checker.traceCases traced fault others).run (t.1.rollback a.checkpoint, t.2) := by
      rw [Checker.traceCases, Tracing.bind_run]
      show (MonadExcept.tryCatch (traced c) _).run (a, listed) = _
      rw [Tracing.tryCatch_run]
      rcases (traced c).run (a, listed) with ⟨fault | r, t⟩ <;> rfl
    rw [attempt, run, Checker.tryCases_run_cons]
    rcases result : (check c).run a with ⟨fault | r, b⟩
    · obtain ⟨met', run', within', passes'⟩ := ih fault (b.rollback a.checkpoint) (listed ++ met)
      refine ⟨met ++ met', ?_, List.append_subset.mpr ⟨within, within'⟩, fun passed => ?_⟩
      · dsimp only
        rw [run', List.append_assoc]
      · exact (passes' passed).trans (List.sublist_append_right met met')
    · rw [result] at passes
      exact ⟨met, rfl, within, fun _ => passes rfl⟩

theorem checkGroup {traced : Case → Tracing Unit} {check : Case → Checking Unit} (preposition : Token)
    (each : ∀ c, Traces (traced c) (check c) calls) :
    Traces (Checker.traceGroup preposition traced) (Checker.checkGroup preposition check) calls := by
  unfold Checker.traceGroup Checker.checkGroup
  cases Preposition.cases? preposition.text with
  | none => exact throw _ calls
  | some cases => exact tryCases each _ cases

end Traces

namespace Checker

open Occurrence (calls calls_append calls_call calls_flatMap calls_phrase)

variable {dictionary : Dictionary}

mutual

theorem traceExpression_traces (e : Expression) (cases : CaseSet) (numbers : NumberSet) (leading : Bool) :
    Traces (traceExpression dictionary cases numbers leading e) (checkExpression dictionary cases numbers leading e)
      (calls e.occurrences) :=
  match e with
  | .literal _ | .self _ | .you _ => .pure ()
  | .noun _ | .ownProperty _ | .subjectProperty _ => .behind fun _ => .pure ()
  | .list _ items => .behind fun _ => traceItems_traces items
  | .element _ index => .behind fun _ => traceExpression_traces index (.single .nominative) .all true
  | .call c => traceCall_traces c
  | .binary _ _ left right => by
    rw [Expression.occurrences, calls_append, traceExpression, checkExpression]
    exact (traceExpression_traces left _ .all leading).seq (traceExpression_traces right _ .all false)
  | .minus _ operand => traceExpression_traces operand cases .all true
  | .conversion _ value target => by
    rw [Expression.occurrences, calls_append, traceExpression, checkExpression]
    exact (traceExpression_traces value cases numbers true).seq (.ofChecking _)
  | .instantiation _ fields => .behind fun _ => traceArguments_traces .dative fields
  | .property _ owner => .behind fun _ => traceExpression_traces owner (.single .genitive) .all true

theorem traceItems_traces (items : List Expression) :
    Traces (traceItems dictionary items) (checkItems dictionary items) (calls (itemOccurrences items)) :=
  match items with
  | [] => .pure ()
  | item :: later => by
    rw [itemOccurrences, calls_append, traceItems, checkItems]
    exact (traceExpression_traces item (.single .nominative) .all true).seq (traceItems_traces later)

/-- The calls of a role are those of its value, whether they share a phrase or not. -/
theorem traceArgument_traces (c : Case) (argument : Argument) :
    Traces (traceArgument dictionary c argument) (checkArgument dictionary c argument) (calls argument.occurrences) :=
  match argument with
  | ⟨phrase, value⟩ => by
    have same : calls (Argument.mk phrase value).occurrences = calls (valueOccurrences value) := by
      rw [Argument.occurrences]
      split <;> rfl
    rw [same]
    exact .behind fun reading => traceValue_traces reading.cases value

theorem traceArguments_traces (c : Case) (arguments : List Argument) :
    Traces (traceArguments dictionary c arguments) (checkArguments dictionary c arguments)
      (calls (argumentOccurrences arguments)) :=
  match arguments with
  | [] => .pure ()
  | argument :: later => by
    rw [argumentOccurrences, calls_append, traceArguments, checkArguments]
    exact (traceArgument_traces c argument).seq (traceArguments_traces c later)

theorem traceValue_traces (cases : CaseSet) (value : Option Expression) :
    Traces (traceValue dictionary cases value) (checkValue dictionary cases value) (calls (valueOccurrences value)) :=
  match value with
  | none => .pure ()
  | some value => traceExpression_traces value cases .all true

theorem traceObject_traces (object : ObjectRole Argument) :
    Traces (traceObject dictionary object) (checkObject dictionary object) (calls (objectOccurrences object)) :=
  match object with
  | .thing argument => traceArgument_traces .accusative argument
  | .absent | .reflexive _ => .pure ()

theorem traceGroups_traces (groups : List (PrepositionGroup Argument)) :
    Traces (traceGroups dictionary groups) (checkGroups dictionary groups) (calls (groupOccurrences groups)) :=
  match groups with
  | [] => .pure ()
  | ⟨preposition, items⟩ :: later => by
    rw [groupOccurrences, calls_append, traceGroups, checkGroups]
    exact (Traces.checkGroup preposition fun c => traceArguments_traces c items).seq (traceGroups_traces later)

theorem traceCall_traces (c : Call) :
    Traces (traceCall dictionary c) (checkCall dictionary c) (calls c.occurrences) :=
  match c with
  | ⟨id, verb, object, groups, suffix⟩ => by
    rw [Call.occurrences, calls_call, calls_append, traceCall, checkCall]
    exact .note _ ((traceObject_traces object).seq (traceGroups_traces groups))

end

mutual

theorem traceStatement_traces (s : Statement) :
    Traces (traceStatement dictionary s) (checkStatement dictionary s) (calls s.occurrences) :=
  match s with
  | .declaration _ owner verb value => by
    rw [Statement.occurrences, calls_phrase, calls_append, traceStatement, checkStatement]
    exact .behind fun reading => .behind fun _ =>
      (traceValue_traces (.single .genitive) owner).seq (traceExpression_traces value (.single .nominative) .all true)
  | .conditional _ branches otherwise => by
    rw [Statement.occurrences, calls_append, traceStatement, checkStatement]
    exact (traceBranches_traces branches).seq (traceOtherwise_traces otherwise)
  | .whileLoop _ condition body => by
    rw [Statement.occurrences, calls_append, traceStatement, checkStatement]
    exact (traceExpression_traces condition (.single .nominative) .all true).seq (traceBlock_traces body)
  | .forEach _ _ source body => by
    rw [Statement.occurrences, calls_phrase, calls_append, traceStatement, checkStatement]
    exact .behind fun _ => (traceValue_traces (.single .dative) source).seq (traceBlock_traces body)
  | .give _ value => traceValue_traces (.single .accusative) value
  | .methodBlock subject body => by
    rw [Statement.occurrences, calls_append, traceStatement, checkStatement]
    exact (traceExpression_traces subject (.single .nominative) .all true).seq (traceBlock_traces body)
  | .call c => traceCall_traces c
  | .loopControl .. | .builtin _ => .pure ()

theorem traceBlock_traces (block : List Statement) :
    Traces (traceBlock dictionary block) (checkBlock dictionary block) (calls (blockOccurrences block)) :=
  match block with
  | [] => .pure ()
  | s :: later => by
    rw [blockOccurrences, calls_append, traceBlock, checkBlock]
    exact (traceStatement_traces s).seq (traceBlock_traces later)

theorem traceBranches_traces (branches : List Branch) :
    Traces (traceBranches dictionary branches) (checkBranches dictionary branches) (calls (branchOccurrences branches)) :=
  match branches with
  | [] => .pure ()
  | ⟨condition, body⟩ :: later => by
    rw [branchOccurrences, List.append_assoc, calls_append, calls_append, traceBranches, checkBranches]
    exact (traceExpression_traces condition (.single .nominative) .all true).seq
      ((traceBlock_traces body).seq (traceBranches_traces later))

theorem traceOtherwise_traces (otherwise : Option (List Statement)) :
    Traces (traceOtherwise dictionary otherwise) (checkOtherwise dictionary otherwise)
      (calls (otherwiseOccurrences otherwise)) :=
  match otherwise with
  | none => .pure ()
  | some body => traceBlock_traces body

end

theorem traceFunction_traces (f : FunctionDefinition) :
    Traces (traceFunction dictionary f) (checkFunction dictionary f) (calls f.occurrences) := by
  rw [FunctionDefinition.occurrences, calls_append, f.header.calls_occurrences]
  exact .behind fun _ => traceBlock_traces f.body

theorem traceDefinition_traces (d : Definition) :
    Traces (traceDefinition dictionary d) (checkDefinition dictionary d) (calls d.occurrences) := by
  have ofParameters (parameters : List Parameter) : calls (parameters.flatMap Parameter.occurrences) = [] := by
    simp [Parameter.occurrences]
  cases d with
  | function f => exact traceFunction_traces f
  | declension d => exact .pure ()
  | noun c =>
    rw [Definition.occurrences, calls_phrase, calls_append, ofParameters]
    exact .behind fun _ => .behind fun _ => traceBlock_traces c.body
  | implementation i =>
    rw [Definition.occurrences, calls_phrase, calls_append, calls_flatMap, calls_flatMap]
    exact .behind fun _ => (Traces.forM traceFunction_traces i.methods).seq
      (.forM (fun c => .behind fun _ => traceBlock_traces c.body) i.conversions)

end Checker

namespace Program

variable {dictionary : Dictionary} {p : Program}

/-- The list that a check makes has the calls that a walk meets. -/
theorem trace_traces (dictionary : Dictionary) (p : Program) : Traces (p.trace dictionary) (p.check dictionary) p.calls := by
  rw [calls_eq, occurrences, Occurrence.calls_append, Occurrence.calls_flatMap]
  exact (Traces.forM Checker.traceDefinition_traces p.definitions).seq (Checker.traceBlock_traces p.statements)

theorem calls_eq_places (p : Program) : p.calls = p.places.filterMap fun place => place.2.call? := by
  rw [calls, walk_eq_places, List.filterMap_map]
  congr 1
  funext ⟨path, node⟩
  cases node <;> rfl

theorem mem_calls_iff_at {c : Call} : c ∈ p.calls ↔ ∃ path, p.At path (.call c) := by
  rw [calls_eq_places, List.mem_filterMap]
  constructor
  · rintro ⟨⟨path, node⟩, member, isCall⟩
    cases node with
    | call d =>
      cases isCall
      exact ⟨path, mem_places.mp member⟩
    | definition _ | statement _ | expression _ => contradiction
  · rintro ⟨path, there⟩
    exact ⟨(path, .call c), mem_places.mpr there, rfl⟩

/-- A walk visits all that a program contains at any depth, every place once and behind the places around it. -/
structure WalksOnce (p : Program) : Prop where
  visited : p.walk = p.places.map fun place => (place.1.length - 1, place.2)
  everything : ∀ path node, (path, node) ∈ p.places ↔ p.At path node
  once : (p.places.map Prod.fst).Nodup
  outerFirst : Node.OuterFirst (p.places.map Prod.fst)

/-- The grammar check checks the calls that a program contains, and no others. -/
structure ChecksCalls (p : Program) (dictionary : Dictionary) : Prop where
  traces : Traces (p.trace dictionary) (p.check dictionary) p.calls
  exactly : ∀ c, c ∈ p.checkedCalls dictionary ↔ ∃ path, p.At path (.call c)
  inOrder : p.calls.Sublist (p.checkedCalls dictionary)

/-- Every call that a walk visits can be signed, its signature is the only one under its id, and the
verification passes only if every one of them names something. -/
structure DefinesCalls (p : Program) (a : Annotations) : Prop where
  signed : ∃ signatures, p.calls.mapM (Definitions.callSignature a) = .ok signatures
  distinct : (p.calls.map Call.id).Nodup
  one : ∀ definitions, Definitions.ofProgram a p = .ok definitions →
    definitions.calls.map Prod.fst = p.calls.map Call.id ∧
      ∀ c ∈ p.calls, ∃ key, c.HasKey a key ∧ definitions.signature? c = some key
  verified : ∀ definitions, Definitions.ofProgram a p = .ok definitions → definitions.verify p = .ok () →
    ∀ c ∈ p.calls, ∃ place, (place, c) ∈ p.placedCalls ∧ p.Names a (place, c)

theorem walksOnce (p : Program) : p.WalksOnce where
  visited := p.walk_eq_places
  everything _ _ := mem_places
  once := p.outerFirst_places.nodup
  outerFirst := p.outerFirst_places

theorem checksCalls {a : Annotations} (checked : p.annotations dictionary = .ok a) : p.ChecksCalls dictionary := by
  have traces := trace_traces dictionary p
  obtain ⟨met, run, within, passes⟩ := traces .empty []
  have listed : p.checkedCalls dictionary = met := by
    rw [checkedCalls, run]
    rfl
  have all : p.calls.Sublist met := passes (by rw [annotations_eq_ok.mp checked]; rfl)
  refine ⟨traces, fun c => ?_, listed ▸ all⟩
  rw [listed, ← mem_calls_iff_at]
  exact ⟨fun inside => within inside, fun member => all.subset member⟩

theorem definesCalls {a : Annotations} (ids : (idsOf p.occurrences).Nodup) (checked : p.annotations dictionary = .ok a) :
    p.DefinesCalls a where
  signed := (agrees_noted ids checked).exists_callSignatures
  distinct := p.nodup_callIds ids
  one definitions defined := ⟨Definitions.ofProgram_calls defined,
    (Definitions.ofProgram_describe defined (p.nodup_callIds ids)).calls⟩
  verified definitions defined passed c member := by
    have described := Definitions.ofProgram_describe defined (p.nodup_callIds ids)
    rw [← p.placedCalls_calls] at member
    obtain ⟨⟨place, _⟩, placed, rfl⟩ := List.mem_map.mp member
    exact ⟨place, placed, (Definitions.verify_isOk_iff_names described).mp passed _ placed⟩

/-- A walk, the grammar check and the collection of signatures meet the same calls: all that a program contains. -/
theorem traversals_agree (p : Program) : p.WalksOnce ∧
    ∀ dictionary a, p.annotations dictionary = .ok a → p.ChecksCalls dictionary ∧
      ∀ stream : TokenStream, stream.program = .ok p → p.DefinesCalls a :=
  ⟨p.walksOnce, fun _ _ checked =>
    ⟨checksCalls checked, fun stream parsed => definesCalls (stream.nodup_ids parsed) checked⟩⟩

end Program

/-- A call with two calls in its roles. `den Menschen` can also be a dative plural, so the first attempt
fails only at the second role. -/
def layingWhatIsRead : String :=
  "Verb lege auf den Menschen, die Zahl:\n  intern\n.\nVerb lies:\n  intern\n.\n" ++
    "lege auf den Menschen (lies), die Zahl (lies)\n"

/-- The call in the first role is checked in both attempts, so the list of the check has it twice. -/
theorem layingWhatIsRead_traversed : ∃ p compiled, (TokenStream.ofText .none ⟨"satz"⟩ layingWhatIsRead).program = .ok p ∧
    p.analyze ⟨[mensch, zahl]⟩ = .ok compiled ∧ p.calls.map (fun c => c.verb.text) = ["lege", "lies", "lies"] ∧
      (p.checkedCalls ⟨[mensch, zahl]⟩).map (fun c => c.verb.text) = ["lege", "lies", "lies", "lies"] ∧
      p.WalksOnce ∧ p.ChecksCalls ⟨[mensch, zahl]⟩ ∧ p.DefinesCalls compiled.annotations := by
  have stream := TokenStream.ofText_eq .none ⟨"satz"⟩ layingWhatIsRead (by decide +kernel)
  have computed : ((TokenStream.ofText .none ⟨"satz"⟩ layingWhatIsRead).program.bind fun p =>
      (p.analyze ⟨[mensch, zahl]⟩).map fun _ => (p.calls.map fun c => c.verb.text,
        (p.checkedCalls ⟨[mensch, zahl]⟩).map fun c => c.verb.text)).toOption =
          some (["lege", "lies", "lies"], ["lege", "lies", "lies", "lies"]) := by
    rw [stream]
    decide +kernel
  obtain ⟨p, compiled, parsed, analyzed, viewed⟩ := exists_ok_of_map computed
  obtain ⟨a, definitions, checked, defined, verified, rfl⟩ := Program.analyze_eq_ok.mp analyzed
  obtain ⟨met, listed⟩ := Prod.mk.inj viewed
  obtain ⟨walks, settles⟩ := p.traversals_agree
  obtain ⟨checks, defines⟩ := settles _ a checked
  exact ⟨p, _, parsed, analyzed, met, listed, walks, checks, defines _ parsed⟩

end Satzbau

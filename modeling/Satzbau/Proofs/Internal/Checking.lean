import Satzbau.Proofs.Checking.Settles
import Satzbau.Proofs.Internal.Faults
import Satzbau.Proofs.Occurrence

namespace Satzbau

namespace Agreement

theorem agree_noInternal (p : NounPhrase) (entry : Declension) (cases : CaseSet) (n : Number) :
    NoInternal (agree p entry cases n) := by
  unfold agree
  dsimp only
  split
  · exact .error nofun
  · split
    · exact .ok _
    · split
      · exact .error nofun
      · exact .ok _

/-- There is always a number to try. -/
theorem agreeInOne_noInternal {p : NounPhrase} {entry : Declension} {cases : CaseSet} {numbers : List Number}
    (some : numbers ≠ []) : NoInternal (agreeInOne p entry cases numbers) := by
  cases numbers with
  | nil => contradiction
  | cons n others =>
    simp only [agreeInOne]
    split
    · exact .ok _
    · rename_i fault failed
      split
      · exact .ok _
      · exact .error (agree_noInternal p entry cases n fault failed)

theorem annotate_noInternal (dictionary : Dictionary) (p : NounPhrase) (cases : CaseSet) (numbers : NumberSet) :
    NoInternal (annotate dictionary p cases numbers) := by
  unfold annotate decline
  split
  · exact .ok _
  · split
    · rename_i fault failed
      unfold Dictionary.lookup at failed
      split at failed
      · contradiction
      · cases failed
        exact .error nofun
    · dsimp only
      split
      · exact .error nofun
      · rename_i candidates
        exact agreeInOne_noInternal fun none => candidates (List.isEmpty_iff.mpr none)

end Agreement

/-- A known preposition governs a case. -/
theorem Preposition.cases?_ne_nil {word : String} {cases : List Case} (known : cases? word = some cases) : cases ≠ [] := by
  unfold cases? at known
  split at known
  · cases known
    exact List.cons_ne_nil _ _
  · split at known
    · cases known
      exact List.cons_ne_nil _ _
    · split at known
      · cases known
        exact List.cons_ne_nil _ _
      · split at known
        · cases known
          exact List.cons_ne_nil _ _
        · contradiction

namespace Checker

open Checking

variable {α β : Type}

/-- A check that never fails by a fault of the compiler itself, whatever was annotated before. -/
def Careful (check : Checking α) : Prop :=
  ∀ a, NoInternal (check.run a).1

namespace Careful

theorem pure (r : α) : Careful (Pure.pure r : Checking α) :=
  fun _ => .ok r

theorem throw {d : Diagnostic} (blames : ¬d.IsInternal) : Careful (throw d : Checking α) :=
  fun _ => .error blames

theorem bind {check : Checking β} {f : β → Checking α} (first : Careful check) (next : ∀ b, Careful (f b)) :
    Careful (check >>= f) := by
  intro a
  rw [bind_run]
  split
  · rename_i r b _
    exact next r b
  · rename_i fault b run
    exact .error (first a fault (congrArg Prod.fst run))

theorem get {f : Annotations → Checking α} (next : ∀ a, Careful (f a)) : Careful (MonadState.get >>= f) :=
  fun a => next a a

theorem modify (f : Annotations → Annotations) : Careful (modify f : Checking Unit) :=
  fun _ => .ok ()

theorem tryCatch {check : Checking α} {handler : Diagnostic → Checking α} (first : Careful check)
    (next : ∀ d, ¬d.IsInternal → Careful (handler d)) : Careful (MonadExcept.tryCatch check handler) := by
  intro a
  rw [tryCatch_run]
  split
  · exact .ok _
  · rename_i fault b run
    exact next fault (first a fault (congrArg Prod.fst run)) b

theorem forM {f : β → Checking Unit} (each : ∀ b, Careful (f b)) (xs : List β) : Careful (xs.forM f) := by
  induction xs with
  | nil => exact pure ()
  | cons x later ih => exact bind (each x) fun _ => ih

theorem forM_option {f : β → Checking Unit} (each : ∀ b, Careful (f b)) (x : Option β) : Careful (x.forM f) := by
  cases x with
  | none => exact pure ()
  | some y => exact each y

/-- The failure that trying begins with is the last one only where there is no case to try. -/
theorem tryCases {check : Case → Checking Unit} (each : ∀ c, Careful (check c)) {failure : Diagnostic} (cases : List Case)
    (blames : cases = [] → ¬failure.IsInternal) : Careful (tryCases check failure cases) := by
  induction cases generalizing failure with
  | nil => exact throw (blames rfl)
  | cons c others ih =>
    rw [Checker.tryCases]
    exact get fun a => tryCatch (each c) fun d blamesNext => bind (modify _) fun _ => ih fun _ => blamesNext

theorem checkGroup (preposition : Token) {check : Case → Checking Unit} (each : ∀ c, Careful (check c)) :
    Careful (checkGroup preposition check) := by
  unfold Checker.checkGroup
  split
  · exact throw nofun
  · rename_i cases known
    exact tryCases each cases fun empty => absurd empty (Preposition.cases?_ne_nil known)

theorem resolve (dictionary : Dictionary) (p : NounPhrase) (cases : CaseSet) (numbers : NumberSet) :
    Careful (resolve dictionary p cases numbers) := by
  intro a
  rw [resolve_run]
  split
  · exact .ok _
  · split
    · exact .ok _
    · rename_i fault failed
      exact .error (Agreement.annotate_noInternal dictionary p cases numbers fault failed)

theorem resolveIn (dictionary : Dictionary) (p : NounPhrase) (c : Case) (numbers : NumberSet) :
    Careful (resolveIn dictionary p c numbers) :=
  bind (resolve dictionary p (.single c) numbers) fun _ => pure ()

mutual

theorem checkExpression (dictionary : Dictionary) (cases : CaseSet) (numbers : NumberSet) (leading : Bool) (e : Expression) :
    Careful (checkExpression dictionary cases numbers leading e) :=
  match e with
  | .literal _ | .self _ | .you _ => by
    rw [Checker.checkExpression]
    exact pure ()
  | .noun phrase | .ownProperty phrase | .subjectProperty phrase => by
    rw [Checker.checkExpression]
    exact bind (resolve _ _ _ _) fun _ => pure ()
  | .list phrase items => by
    rw [Checker.checkExpression]
    exact bind (resolve _ _ _ _) fun _ => checkItems dictionary items
  | .element phrase index => by
    rw [Checker.checkExpression]
    exact bind (resolve _ _ _ _) fun _ => checkExpression dictionary _ _ _ index
  | .call c => by
    rw [Checker.checkExpression]
    exact checkCall dictionary c
  | .binary operator _ left right => by
    rw [Checker.checkExpression]
    exact bind (checkExpression dictionary _ _ _ left) fun _ => checkExpression dictionary _ _ _ right
  | .minus _ operand => by
    rw [Checker.checkExpression]
    exact checkExpression dictionary _ _ _ operand
  | .conversion _ value target => by
    rw [Checker.checkExpression]
    exact bind (checkExpression dictionary _ _ _ value) fun _ => resolveIn _ _ _ _
  | .instantiation phrase fields => by
    rw [Checker.checkExpression]
    exact bind (resolve _ _ _ _) fun _ => checkArguments dictionary _ fields
  | .property phrase owner => by
    rw [Checker.checkExpression]
    exact bind (resolve _ _ _ _) fun _ => checkExpression dictionary _ _ _ owner

theorem checkItems (dictionary : Dictionary) (items : List Expression) : Careful (checkItems dictionary items) :=
  match items with
  | [] => pure ()
  | item :: later => by
    rw [Checker.checkItems]
    exact bind (checkExpression dictionary _ _ _ item) fun _ => checkItems dictionary later

theorem checkArgument (dictionary : Dictionary) (c : Case) (argument : Argument) :
    Careful (checkArgument dictionary c argument) :=
  match argument with
  | ⟨phrase, value⟩ => by
    rw [Checker.checkArgument]
    exact bind (resolve _ _ _ _) fun reading => checkValue dictionary _ value

theorem checkArguments (dictionary : Dictionary) (c : Case) (arguments : List Argument) :
    Careful (checkArguments dictionary c arguments) :=
  match arguments with
  | [] => pure ()
  | argument :: later => by
    rw [Checker.checkArguments]
    exact bind (checkArgument dictionary c argument) fun _ => checkArguments dictionary c later

theorem checkValue (dictionary : Dictionary) (cases : CaseSet) (value : Option Expression) :
    Careful (checkValue dictionary cases value) :=
  match value with
  | none => pure ()
  | some value => by
    rw [Checker.checkValue]
    exact checkExpression dictionary _ _ _ value

theorem checkObject (dictionary : Dictionary) (object : ObjectRole Argument) : Careful (checkObject dictionary object) :=
  match object with
  | .thing argument => by
    rw [Checker.checkObject]
    exact checkArgument dictionary _ argument
  | .absent | .reflexive _ => pure ()

theorem checkGroups (dictionary : Dictionary) (groups : List (PrepositionGroup Argument)) :
    Careful (checkGroups dictionary groups) :=
  match groups with
  | [] => pure ()
  | ⟨preposition, items⟩ :: later => by
    rw [Checker.checkGroups]
    exact bind (checkGroup preposition fun c => checkArguments dictionary c items) fun _ => checkGroups dictionary later

theorem checkCall (dictionary : Dictionary) (c : Call) : Careful (checkCall dictionary c) :=
  match c with
  | ⟨_, _, object, groups, _⟩ => by
    rw [Checker.checkCall]
    exact bind (checkObject dictionary object) fun _ => checkGroups dictionary groups

end

theorem checkAssignment (verb : Token) (n : Number) : Careful (checkAssignment verb n) := by
  unfold Checker.checkAssignment
  split
  · exact throw nofun
  · exact pure ()

mutual

theorem checkStatement (dictionary : Dictionary) (s : Statement) : Careful (checkStatement dictionary s) :=
  match s with
  | .declaration target owner verb value => by
    rw [Checker.checkStatement]
    exact bind (resolve _ _ _ _) fun reading => bind (checkAssignment _ _) fun _ =>
      bind (checkValue dictionary _ owner) fun _ => checkExpression dictionary _ _ _ value
  | .conditional _ branches otherwise => by
    rw [Checker.checkStatement]
    exact bind (checkBranches dictionary branches) fun _ => checkOtherwise dictionary otherwise
  | .whileLoop _ condition body => by
    rw [Checker.checkStatement]
    exact bind (checkExpression dictionary _ _ _ condition) fun _ => checkBlock dictionary body
  | .forEach _ binder source body => by
    rw [Checker.checkStatement]
    exact bind (resolveIn _ _ _ _) fun _ => bind (checkValue dictionary _ source) fun _ => checkBlock dictionary body
  | .give _ value => by
    rw [Checker.checkStatement]
    exact checkValue dictionary _ value
  | .methodBlock subject body => by
    rw [Checker.checkStatement]
    exact bind (checkExpression dictionary _ _ _ subject) fun _ => checkBlock dictionary body
  | .call c => by
    rw [Checker.checkStatement]
    exact checkCall dictionary c
  | .loopControl .. | .builtin _ => pure ()

theorem checkBlock (dictionary : Dictionary) (block : List Statement) : Careful (checkBlock dictionary block) :=
  match block with
  | [] => pure ()
  | s :: later => by
    rw [Checker.checkBlock]
    exact bind (checkStatement dictionary s) fun _ => checkBlock dictionary later

theorem checkBranches (dictionary : Dictionary) (branches : List Branch) : Careful (checkBranches dictionary branches) :=
  match branches with
  | [] => pure ()
  | ⟨condition, body⟩ :: later => by
    rw [Checker.checkBranches]
    exact bind (checkExpression dictionary _ _ _ condition) fun _ => bind (checkBlock dictionary body) fun _ =>
      checkBranches dictionary later

theorem checkOtherwise (dictionary : Dictionary) (otherwise : Option (List Statement)) :
    Careful (checkOtherwise dictionary otherwise) :=
  match otherwise with
  | none => pure ()
  | some body => by
    rw [Checker.checkOtherwise]
    exact checkBlock dictionary body

end

theorem checkFunction (dictionary : Dictionary) (f : FunctionDefinition) : Careful (checkFunction dictionary f) := by
  unfold Checker.checkFunction Checker.checkHeader
  refine bind (bind (forM_option (fun _ => resolveIn _ _ _ _) _) fun _ => bind (forM (fun _ => resolveIn _ _ _ _) _) fun _ => ?_)
    fun _ => checkBlock dictionary f.body
  exact forM (fun g : PrepositionGroup Parameter =>
    checkGroup g.preposition fun c => forM (fun _ => resolveIn _ _ _ _) g.items) _

theorem checkDefinition (dictionary : Dictionary) (d : Definition) : Careful (checkDefinition dictionary d) := by
  cases d with
  | function f => exact checkFunction dictionary f
  | noun c =>
    exact bind (resolveIn _ _ _ _) fun _ => bind (forM (fun _ => resolveIn _ _ _ _) _) fun _ => checkBlock dictionary c.body
  | implementation i =>
    refine bind (resolveIn _ _ _ _) fun _ => bind (forM (checkFunction dictionary) _) fun _ => forM (fun c => ?_) _
    exact bind (resolveIn _ _ _ _) fun _ => checkBlock dictionary c.body
  | declension d => exact pure ()

end Careful

end Checker

/-- The grammar check never fails by a fault of the compiler itself. -/
theorem Program.annotations_noInternal (p : Program) (dictionary : Dictionary) : NoInternal (p.annotations dictionary) := by
  have careful : Checker.Careful (p.check dictionary) :=
    .bind (.forM (.checkDefinition dictionary) _) fun _ => .checkBlock dictionary p.statements
  unfold Program.annotations
  split
  · exact .ok _
  · rename_i fault a run
    exact .error (careful .empty fault (congrArg Prod.fst run))

end Satzbau

import Satzbau.Proofs.Checking.Settles
import Satzbau.Proofs.Pointing.Tokens

namespace Satzbau

variable {fact : Location → Prop}

namespace Agreement

variable {p : NounPhrase} (isAt : p.IsAt fact)

include isAt

theorem agree_yields (entry : Declension) (cases : CaseSet) (n : Number) :
    Yields fact (fun _ => True) (agree p entry cases n) := by
  unfold agree
  dsimp only
  split
  · exact .throw isAt.noun rfl
  · split
    · exact .ok trivial
    · rename_i token kind declined
      split
      · obtain ⟨determiner, named, same⟩ := Option.bind_eq_some_iff.mp declined
        obtain ⟨_, _, pair⟩ := Option.map_eq_some_iff.mp same
        cases pair
        exact .throw (isAt.determiner token named) rfl
      · exact .ok trivial

theorem agreeInOne_yields (entry : Declension) (cases : CaseSet) (numbers : List Number) :
    Yields fact (fun _ => True) (agreeInOne p entry cases numbers) := by
  cases numbers with
  | nil => exact .error (.unlocated rfl rfl)
  | cons n others =>
    simp only [agreeInOne]
    split
    · exact .ok trivial
    · rename_i failed
      split
      · exact .ok trivial
      · exact .error ((agree_yields isAt entry cases n).points failed)

theorem annotate_yields (dictionary : Dictionary) (cases : CaseSet) (numbers : NumberSet) :
    Yields fact (fun _ => True) (annotate dictionary p cases numbers) := by
  unfold annotate decline
  split
  · exact .ok trivial
  · split
    · rename_i fault failed
      unfold Dictionary.lookup at failed
      split at failed
      · contradiction
      · cases failed
        exact .throw isAt.noun rfl
    · dsimp only
      split
      · exact .throw isAt.noun rfl
      · exact agreeInOne_yields isAt ..

end Agreement

namespace Checker

open Checking

variable {α β : Type}

/-- A check whose faults show only places of some kind, whatever was annotated before. -/
def PointsAt (fact : Location → Prop) (check : Checking α) : Prop :=
  ∀ a d, (check.run a).1 = .error d → d.PointsAt fact

namespace PointsAt

theorem pure (r : α) : PointsAt fact (Pure.pure r : Checking α) :=
  fun _ _ => nofun

theorem throw {d : Diagnostic} (points : d.PointsAt fact) : PointsAt fact (throw d : Checking α) :=
  fun _ _ failed => Except.error.inj failed ▸ points

theorem bind {check : Checking β} {f : β → Checking α} (first : PointsAt fact check) (next : ∀ b, PointsAt fact (f b)) :
    PointsAt fact (check >>= f) := by
  intro a d failed
  rw [bind_run] at failed
  split at failed
  · rename_i r b _
    exact next r b d failed
  · rename_i fault b run
    cases failed
    exact first a d (congrArg Prod.fst run)

theorem get {f : Annotations → Checking α} (next : ∀ a, PointsAt fact (f a)) : PointsAt fact (MonadState.get >>= f) :=
  fun a => next a a

theorem modify (f : Annotations → Annotations) : PointsAt fact (modify f : Checking Unit) :=
  fun _ _ => nofun

theorem tryCatch {check : Checking α} {handler : Diagnostic → Checking α} (first : PointsAt fact check)
    (next : ∀ d, d.PointsAt fact → PointsAt fact (handler d)) : PointsAt fact (MonadExcept.tryCatch check handler) := by
  intro a d failed
  rw [tryCatch_run] at failed
  split at failed
  · contradiction
  · rename_i fault b run
    exact next fault (first a fault (congrArg Prod.fst run)) b d failed

theorem forM {f : β → Checking Unit} {xs : List β} (each : ∀ b ∈ xs, PointsAt fact (f b)) : PointsAt fact (xs.forM f) := by
  induction xs with
  | nil => exact pure ()
  | cons x later ih =>
    exact bind (each x (List.mem_cons_self ..)) fun _ => ih fun y member => each y (List.mem_cons_of_mem x member)

theorem forM_option {f : β → Checking Unit} {x : Option β} (each : ∀ b ∈ x, PointsAt fact (f b)) :
    PointsAt fact (x.forM f) := by
  cases x with
  | none => exact pure ()
  | some y => exact each y rfl

theorem tryCases {check : Case → Checking Unit} (each : ∀ c, PointsAt fact (check c)) {failure : Diagnostic}
    (points : failure.PointsAt fact) (cases : List Case) : PointsAt fact (tryCases check failure cases) := by
  induction cases generalizing failure with
  | nil => exact throw points
  | cons c others ih =>
    rw [Checker.tryCases]
    exact get fun a => tryCatch (each c) fun d pointsNext => bind (modify _) fun _ => ih pointsNext

theorem checkGroup {preposition : Token} (known : fact preposition.location) {check : Case → Checking Unit}
    (each : ∀ c, PointsAt fact (check c)) : PointsAt fact (checkGroup preposition check) := by
  unfold Checker.checkGroup
  split
  · exact throw (.located known rfl)
  · exact tryCases each (.unlocated rfl rfl) _

theorem resolve {p : NounPhrase} (isAt : p.IsAt fact) (dictionary : Dictionary) (cases : CaseSet) (numbers : NumberSet) :
    PointsAt fact (resolve dictionary p cases numbers) := by
  intro a d failed
  rw [resolve_run] at failed
  split at failed
  · contradiction
  · split at failed
    · contradiction
    · rename_i fault unread
      exact (Agreement.annotate_yields isAt dictionary cases numbers).points (unread.trans failed)

theorem resolveIn {p : NounPhrase} (isAt : p.IsAt fact) (dictionary : Dictionary) (c : Case) (numbers : NumberSet) :
    PointsAt fact (resolveIn dictionary p c numbers) :=
  bind (resolve isAt dictionary (.single c) numbers) fun _ => pure ()

mutual

theorem checkExpression (dictionary : Dictionary) (cases : CaseSet) (numbers : NumberSet) (leading : Bool) (e : Expression)
    (known : TokensAt fact e.constituents) : PointsAt fact (checkExpression dictionary cases numbers leading e) :=
  match e with
  | .literal _ | .self _ | .you _ => by
    rw [Checker.checkExpression]
    exact pure ()
  | .noun phrase | .ownProperty phrase | .subjectProperty phrase => by
    rw [Expression.constituents, tokensAt_phrase] at known
    rw [Checker.checkExpression]
    exact bind (resolve known.1 _ _ _) fun _ => pure ()
  | .list phrase items => by
    rw [Expression.constituents, tokensAt_phrase] at known
    rw [Checker.checkExpression]
    exact bind (resolve known.1 _ _ _) fun _ => checkItems dictionary items known.2
  | .element phrase index => by
    rw [Expression.constituents, tokensAt_phrase] at known
    rw [Checker.checkExpression]
    exact bind (resolve known.1 _ _ _) fun _ => checkExpression dictionary _ _ _ index known.2
  | .call c => by
    rw [Expression.constituents] at known
    rw [Checker.checkExpression]
    exact checkCall dictionary c known
  | .binary operator _ left right => by
    rw [Expression.constituents, tokensAt_append, tokensAt_token] at known
    rw [Checker.checkExpression]
    exact bind (checkExpression dictionary _ _ _ left known.1) fun _ => checkExpression dictionary _ _ _ right known.2.2
  | .minus _ operand => by
    rw [Expression.constituents, tokensAt_token] at known
    rw [Checker.checkExpression]
    exact checkExpression dictionary _ _ _ operand known.2
  | .conversion _ value target => by
    rw [Expression.constituents, tokensAt_append, tokensAt_token, tokensAt_phrase] at known
    rw [Checker.checkExpression]
    exact bind (checkExpression dictionary _ _ _ value known.1) fun _ => resolveIn known.2.2.1 _ _ _
  | .instantiation phrase fields => by
    rw [Expression.constituents, tokensAt_phrase] at known
    rw [Checker.checkExpression]
    exact bind (resolve known.1 _ _ _) fun _ => checkArguments dictionary _ fields known.2
  | .property phrase owner => by
    rw [Expression.constituents, tokensAt_phrase] at known
    rw [Checker.checkExpression]
    exact bind (resolve known.1 _ _ _) fun _ => checkExpression dictionary _ _ _ owner known.2

theorem checkItems (dictionary : Dictionary) (items : List Expression) (known : TokensAt fact (itemConstituents items)) :
    PointsAt fact (checkItems dictionary items) :=
  match items with
  | [] => pure ()
  | item :: later => by
    rw [itemConstituents, tokensAt_append] at known
    rw [Checker.checkItems]
    exact bind (checkExpression dictionary _ _ _ item known.1) fun _ => checkItems dictionary later known.2

theorem checkArgument (dictionary : Dictionary) (c : Case) (argument : Argument)
    (known : TokensAt fact argument.constituents) : PointsAt fact (checkArgument dictionary c argument) :=
  match argument with
  | ⟨phrase, value⟩ => by
    rw [Checker.checkArgument]
    exact bind (resolve known.argument.1 _ _ _) fun reading => checkValue dictionary _ value known.argument.2

theorem checkArguments (dictionary : Dictionary) (c : Case) (arguments : List Argument)
    (known : TokensAt fact (argumentConstituents arguments)) : PointsAt fact (checkArguments dictionary c arguments) :=
  match arguments with
  | [] => pure ()
  | argument :: later => by
    rw [argumentConstituents, tokensAt_append] at known
    rw [Checker.checkArguments]
    exact bind (checkArgument dictionary c argument known.1) fun _ => checkArguments dictionary c later known.2

theorem checkValue (dictionary : Dictionary) (cases : CaseSet) (value : Option Expression)
    (known : TokensAt fact (valueConstituents value)) : PointsAt fact (checkValue dictionary cases value) :=
  match value with
  | none => pure ()
  | some value => by
    rw [valueConstituents] at known
    rw [Checker.checkValue]
    exact checkExpression dictionary _ _ _ value known

theorem checkObject (dictionary : Dictionary) (object : ObjectRole Argument)
    (known : TokensAt fact (objectConstituents object)) : PointsAt fact (checkObject dictionary object) :=
  match object with
  | .thing argument => by
    rw [objectConstituents] at known
    rw [Checker.checkObject]
    exact checkArgument dictionary _ argument known
  | .absent | .reflexive _ => pure ()

theorem checkGroups (dictionary : Dictionary) (groups : List (PrepositionGroup Argument))
    (known : TokensAt fact (groupConstituents groups)) : PointsAt fact (checkGroups dictionary groups) :=
  match groups with
  | [] => pure ()
  | ⟨preposition, items⟩ :: later => by
    rw [groupConstituents, tokensAt_token, tokensAt_append] at known
    rw [Checker.checkGroups]
    exact bind (checkGroup known.1 fun c => checkArguments dictionary c items known.2.1) fun _ =>
      checkGroups dictionary later known.2.2

theorem checkCall (dictionary : Dictionary) (c : Call) (known : TokensAt fact c.constituents) :
    PointsAt fact (checkCall dictionary c) :=
  match c with
  | ⟨_, _, object, groups, _⟩ => by
    rw [Call.constituents, tokensAt_call, tokensAt_token, tokensAt_append, tokensAt_append] at known
    rw [Checker.checkCall]
    exact bind (checkObject dictionary object known.2.1.1) fun _ => checkGroups dictionary groups known.2.1.2

end

theorem checkAssignment {verb : Token} (known : fact verb.location) (n : Number) :
    PointsAt fact (checkAssignment verb n) := by
  unfold Checker.checkAssignment
  split
  · exact throw (.located known rfl)
  · exact pure ()

mutual

theorem checkStatement (dictionary : Dictionary) (s : Statement) (known : TokensAt fact s.constituents) :
    PointsAt fact (checkStatement dictionary s) :=
  match s with
  | .declaration target owner verb value => by
    rw [Statement.constituents, tokensAt_phrase, tokensAt_append, tokensAt_token] at known
    rw [Checker.checkStatement]
    exact bind (resolve known.1 _ _ _) fun reading => bind (checkAssignment known.2.2.1 _) fun _ =>
      bind (checkValue dictionary _ owner known.2.1) fun _ => checkExpression dictionary _ _ _ value known.2.2.2
  | .conditional _ branches otherwise => by
    rw [Statement.constituents, tokensAt_token, tokensAt_append] at known
    rw [Checker.checkStatement]
    exact bind (checkBranches dictionary branches known.2.1) fun _ => checkOtherwise dictionary otherwise known.2.2
  | .whileLoop _ condition body => by
    rw [Statement.constituents, tokensAt_token, tokensAt_append] at known
    rw [Checker.checkStatement]
    exact bind (checkExpression dictionary _ _ _ condition known.2.1) fun _ => checkBlock dictionary body known.2.2
  | .forEach _ binder source body => by
    rw [Statement.constituents, tokensAt_token, tokensAt_phrase, tokensAt_append] at known
    have atSource : TokensAt fact (valueConstituents source) := by
      cases source with
      | none => exact tokensAt_nil
      | some e => exact tokensAt_loopIn.mp known.2.2.1
    rw [Checker.checkStatement]
    exact bind (resolveIn known.2.1 _ _ _) fun _ => bind (checkValue dictionary _ source atSource) fun _ =>
      checkBlock dictionary body known.2.2.2
  | .give _ value => by
    rw [Statement.constituents, tokensAt_token] at known
    rw [Checker.checkStatement]
    exact checkValue dictionary _ value known.2
  | .methodBlock subject body => by
    rw [Statement.constituents, tokensAt_append] at known
    rw [Checker.checkStatement]
    exact bind (checkExpression dictionary _ _ _ subject known.1) fun _ => checkBlock dictionary body known.2
  | .call c => by
    rw [Statement.constituents] at known
    rw [Checker.checkStatement]
    exact checkCall dictionary c known
  | .loopControl .. | .builtin _ => pure ()

theorem checkBlock (dictionary : Dictionary) (block : List Statement) (known : TokensAt fact (blockConstituents block)) :
    PointsAt fact (checkBlock dictionary block) :=
  match block with
  | [] => pure ()
  | s :: later => by
    rw [blockConstituents, tokensAt_append] at known
    rw [Checker.checkBlock]
    exact bind (checkStatement dictionary s known.1) fun _ => checkBlock dictionary later known.2

theorem checkBranches (dictionary : Dictionary) (branches : List Branch)
    (known : TokensAt fact (branchConstituents branches)) : PointsAt fact (checkBranches dictionary branches) :=
  match branches with
  | [] => pure ()
  | ⟨condition, body⟩ :: later => by
    rw [branchConstituents, tokensAt_append, tokensAt_append] at known
    rw [Checker.checkBranches]
    exact bind (checkExpression dictionary _ _ _ condition known.1.1) fun _ =>
      bind (checkBlock dictionary body known.1.2) fun _ => checkBranches dictionary later known.2

theorem checkOtherwise (dictionary : Dictionary) (otherwise : Option (List Statement))
    (known : TokensAt fact (otherwiseConstituents otherwise)) : PointsAt fact (checkOtherwise dictionary otherwise) :=
  match otherwise with
  | none => pure ()
  | some body => by
    rw [otherwiseConstituents] at known
    rw [Checker.checkOtherwise]
    exact checkBlock dictionary body known

end

theorem checkHeader (dictionary : Dictionary) {h : FunctionHeader} (known : TokensAt fact h.constituents) :
    PointsAt fact (checkHeader dictionary h) := by
  obtain ⟨verb, result, object, groups, suffix⟩ := h
  simp only [FunctionHeader.constituents, headerGroupConstituents, Parameter.constituents, tokensAt_append, tokensAt_token,
    tokensAt_flatMap, tokensAt_phrase] at known
  obtain ⟨atResult, _, ⟨atObject, atGroups⟩, _⟩ := known
  unfold Checker.checkHeader
  refine bind (forM_option fun phrase named => ?_) fun _ => bind (forM fun parameter member => ?_) fun _ =>
    forM fun g inside => checkGroup (atGroups g inside).1 fun c => forM fun parameter member => ?_
  · cases named
    exact resolveIn (tokensAt_phrase.mp atResult).1 _ _ _
  · cases object with
    | thing item =>
      obtain rfl := List.mem_singleton.mp member
      exact resolveIn (tokensAt_phrase.mp atObject).1 _ _ _
    | _ => contradiction
  · exact resolveIn ((atGroups g inside).2 parameter member).1 _ _ _

theorem checkFunction (dictionary : Dictionary) {f : FunctionDefinition} (known : TokensAt fact f.constituents) :
    PointsAt fact (checkFunction dictionary f) := by
  obtain ⟨atHeader, atBody⟩ := tokensAt_append.mp known
  exact bind (checkHeader dictionary atHeader) fun _ => checkBlock dictionary f.body atBody

theorem checkDefinition (dictionary : Dictionary) {d : Definition} (known : TokensAt fact d.constituents) :
    PointsAt fact (checkDefinition dictionary d) := by
  cases d with
  | function f => exact checkFunction dictionary known
  | noun c =>
    simp only [Definition.constituents, Parameter.constituents, tokensAt_append, tokensAt_token, tokensAt_flatMap,
      tokensAt_phrase] at known
    obtain ⟨_, atName, atFields, atBody⟩ := known
    exact bind (resolveIn atName _ _ _) fun _ => bind (forM fun p member => resolveIn (atFields p member).1 _ _ _) fun _ =>
      checkBlock dictionary c.body atBody
  | implementation i =>
    simp only [Definition.constituents, ConversionDefinition.constituents, tokensAt_append, tokensAt_token,
      tokensAt_flatMap, tokensAt_phrase] at known
    obtain ⟨_, atOwner, atMethods, atConversions⟩ := known
    refine bind (resolveIn atOwner _ _ _) fun _ => bind (forM fun f member => checkFunction dictionary (atMethods f member))
      fun _ => forM fun c member => ?_
    exact bind (resolveIn (atConversions c member).2.1 _ _ _) fun _ =>
      checkBlock dictionary c.body (atConversions c member).2.2
  | declension d => exact pure ()

end PointsAt

end Checker

/-- What the grammar check finds wrong is at tokens of the program. -/
theorem Program.annotations_yields {p : Program} (known : TokensAt fact p.constituents) (dictionary : Dictionary) :
    Yields fact (fun _ => True) (p.annotations dictionary) := by
  obtain ⟨atDefinitions, atStatements⟩ := tokensAt_append.mp known
  have points : Checker.PointsAt fact (p.check dictionary) :=
    .bind (.forM fun d member => .checkDefinition dictionary (tokensAt_flatMap.mp atDefinitions d member)) fun _ =>
      .checkBlock dictionary p.statements atStatements
  unfold Program.annotations
  split
  · exact .ok trivial
  · rename_i fault a run
    exact .error (points .empty fault (congrArg Prod.fst run))

end Satzbau

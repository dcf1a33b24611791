import Satzbau.Proofs.Checking.Agrees
import Satzbau.Proofs.Occurrence

namespace Satzbau

variable {J : Judgement}

/-- Whether something with an id agrees: a phrase can be read at some place, and a call agrees. -/
def Occurrence.Agrees (J : Judgement) : Occurrence → Prop
  | .phrase p => ∃ cases numbers reading, J.reads p cases numbers reading
  | .call c => c.Agrees J

def AllAgree (J : Judgement) (occurrences : List Occurrence) : Prop :=
  ∀ o ∈ occurrences, o.Agrees J

theorem allAgree_nil : AllAgree J [] := by
  intro o member
  contradiction

theorem AllAgree.cons {o : Occurrence} {later : List Occurrence} (agrees : o.Agrees J) (atLater : AllAgree J later) :
    AllAgree J (o :: later) := by
  intro other member
  obtain rfl | inLater := List.mem_cons.mp member
  · exact agrees
  · exact atLater other inLater

theorem AllAgree.append {first later : List Occurrence} (atFirst : AllAgree J first) (atLater : AllAgree J later) :
    AllAgree J (first ++ later) := by
  intro o member
  obtain inFirst | inLater := List.mem_append.mp member
  · exact atFirst o inFirst
  · exact atLater o inLater

theorem AllAgree.flatMap {α : Type} {occurrences : α → List Occurrence} {xs : List α}
    (each : ∀ x ∈ xs, AllAgree J (occurrences x)) : AllAgree J (xs.flatMap occurrences) := by
  intro o member
  obtain ⟨x, inside, among⟩ := List.mem_flatMap.mp member
  exact each x inside o among

/-- A phrase that was read, in front of what agrees. -/
theorem AllAgree.phrase {p : NounPhrase} {cases : CaseSet} {numbers : NumberSet} {later : List Occurrence}
    (reads : ∃ reading, J.reads p cases numbers reading) (atLater : AllAgree J later) : AllAgree J (.phrase p :: later) :=
  .cons ⟨cases, numbers, reads⟩ atLater

mutual

theorem Expression.Agrees.occurrences {cases : CaseSet} {numbers : NumberSet} {leading : Bool} (e : Expression)
    (agrees : e.Agrees J cases numbers leading) : AllAgree J e.occurrences :=
  match e with
  | .literal _ | .self _ | .you _ => allAgree_nil
  | .noun _ | .ownProperty _ | .subjectProperty _ => allAgree_nil.phrase agrees
  | .list _ items => (itemsAgree.occurrences items agrees.2).phrase agrees.1
  | .element _ index => (Expression.Agrees.occurrences index agrees.2).phrase agrees.1
  | .call c => Call.Agrees.occurrences c agrees
  | .binary _ _ left right =>
    (Expression.Agrees.occurrences left agrees.1).append (Expression.Agrees.occurrences right agrees.2)
  | .minus _ operand => Expression.Agrees.occurrences operand agrees
  | .conversion _ value _ => (Expression.Agrees.occurrences value agrees.1).append (allAgree_nil.phrase agrees.2)
  | .instantiation _ fields => (argumentsAgree.occurrences fields agrees.2).phrase agrees.1
  | .property _ owner => (Expression.Agrees.occurrences owner agrees.2).phrase agrees.1

theorem itemsAgree.occurrences (items : List Expression) (agree : itemsAgree J items) :
    AllAgree J (itemOccurrences items) :=
  match items with
  | [] => allAgree_nil
  | item :: later => (Expression.Agrees.occurrences item agree.1).append (itemsAgree.occurrences later agree.2)

theorem Argument.Agrees.occurrences {c : Case} (argument : Argument) (agrees : argument.Agrees J c) :
    AllAgree J argument.occurrences :=
  match argument with
  | ⟨phrase, value⟩ => by
    obtain ⟨reading, read, atValue⟩ := agrees
    have inValue := valueAgrees.occurrences value atValue
    rw [Argument.occurrences]
    split
    · exact inValue
    · exact inValue.phrase ⟨reading, read⟩

theorem argumentsAgree.occurrences {c : Case} (arguments : List Argument) (agree : argumentsAgree J c arguments) :
    AllAgree J (argumentOccurrences arguments) :=
  match arguments with
  | [] => allAgree_nil
  | argument :: later => (Argument.Agrees.occurrences argument agree.1).append (argumentsAgree.occurrences later agree.2)

theorem valueAgrees.occurrences {cases : CaseSet} (value : Option Expression) (agrees : valueAgrees J cases value) :
    AllAgree J (valueOccurrences value) :=
  match value with
  | none => allAgree_nil
  | some value => Expression.Agrees.occurrences value agrees

theorem objectAgrees.occurrences (object : ObjectRole Argument) (agrees : objectAgrees J object) :
    AllAgree J (objectOccurrences object) :=
  match object with
  | .thing argument => Argument.Agrees.occurrences argument agrees
  | .absent | .reflexive _ => allAgree_nil

theorem groupsAgree.occurrences (groups : List (PrepositionGroup Argument)) (agree : groupsAgree J groups) :
    AllAgree J (groupOccurrences groups) :=
  match groups with
  | [] => allAgree_nil
  | ⟨_, items⟩ :: later => by
    obtain ⟨⟨_, _, c, _, _, atItems⟩, atLater⟩ := agree
    exact (argumentsAgree.occurrences items atItems).append (groupsAgree.occurrences later atLater)

theorem Call.Agrees.occurrences (c : Call) (agrees : c.Agrees J) : AllAgree J c.occurrences :=
  match c with
  | ⟨_, _, object, groups, _⟩ =>
    .cons agrees ((objectAgrees.occurrences object agrees.1).append (groupsAgree.occurrences groups agrees.2))

end

mutual

theorem Statement.Agrees.occurrences (s : Statement) (agrees : s.Agrees J) : AllAgree J s.occurrences :=
  match s with
  | .declaration _ owner _ value => by
    obtain ⟨⟨reading, read, _⟩, atOwner, atValue⟩ := agrees
    exact ((valueAgrees.occurrences owner atOwner).append (Expression.Agrees.occurrences value atValue)).phrase ⟨reading, read⟩
  | .conditional _ branches otherwise =>
    (branchesAgree.occurrences branches agrees.1).append (otherwiseAgrees.occurrences otherwise agrees.2)
  | .whileLoop _ condition body =>
    (Expression.Agrees.occurrences condition agrees.1).append (blockAgrees.occurrences body agrees.2)
  | .forEach _ _ source body =>
    ((valueAgrees.occurrences source agrees.2.1).append (blockAgrees.occurrences body agrees.2.2)).phrase agrees.1
  | .give _ value => valueAgrees.occurrences value agrees
  | .methodBlock subject body =>
    (Expression.Agrees.occurrences subject agrees.1).append (blockAgrees.occurrences body agrees.2)
  | .call c => Call.Agrees.occurrences c agrees
  | .loopControl .. | .builtin _ => allAgree_nil

theorem blockAgrees.occurrences (block : List Statement) (agrees : blockAgrees J block) :
    AllAgree J (blockOccurrences block) :=
  match block with
  | [] => allAgree_nil
  | s :: later => (Statement.Agrees.occurrences s agrees.1).append (blockAgrees.occurrences later agrees.2)

theorem branchesAgree.occurrences (branches : List Branch) (agree : branchesAgree J branches) :
    AllAgree J (branchOccurrences branches) :=
  match branches with
  | [] => allAgree_nil
  | ⟨condition, body⟩ :: later =>
    ((Expression.Agrees.occurrences condition agree.1).append (blockAgrees.occurrences body agree.2.1)).append
      (branchesAgree.occurrences later agree.2.2)

theorem otherwiseAgrees.occurrences (otherwise : Option (List Statement)) (agrees : otherwiseAgrees J otherwise) :
    AllAgree J (otherwiseOccurrences otherwise) :=
  match otherwise with
  | none => allAgree_nil
  | some body => blockAgrees.occurrences body agrees

end

theorem Parameter.Agrees.occurrences {c : Case} {p : Parameter} (agrees : p.Agrees J c) : AllAgree J p.occurrences :=
  allAgree_nil.phrase agrees

theorem FunctionHeader.Agrees.occurrences {h : FunctionHeader} (agrees : h.Agrees J) : AllAgree J h.occurrences := by
  refine .append (fun o member => ?_) (.flatMap fun p member => ?_)
  · obtain ⟨result, inside, rfl⟩ := List.mem_map.mp member
    exact ⟨_, _, agrees.result result (Option.mem_toList.mp inside)⟩
  · obtain atObject | inGroups := List.mem_append.mp member
    · exact (agrees.object p atObject).occurrences
    · obtain ⟨g, among, inGroup⟩ := List.mem_flatMap.mp inGroups
      obtain ⟨_, _, c, _, _, atItems⟩ := agrees.groups g among
      exact (atItems p inGroup).occurrences

theorem FunctionDefinition.Agrees.occurrences {f : FunctionDefinition} (agrees : f.Agrees J) : AllAgree J f.occurrences :=
  (FunctionHeader.Agrees.occurrences agrees.1).append (blockAgrees.occurrences f.body agrees.2)

theorem Definition.Agrees.occurrences {d : Definition} (agrees : d.Agrees J) : AllAgree J d.occurrences := by
  cases d with
  | function f => exact FunctionDefinition.Agrees.occurrences agrees
  | declension d => exact allAgree_nil
  | noun c =>
    have fields : AllAgree J (c.fields.flatMap Parameter.occurrences) :=
      .flatMap fun p member => (agrees.2.1 p member).occurrences
    exact (fields.append (blockAgrees.occurrences c.body agrees.2.2)).phrase agrees.1
  | implementation i =>
    have methods : AllAgree J (i.methods.flatMap FunctionDefinition.occurrences) :=
      .flatMap fun f member => (agrees.2.1 f member).occurrences
    have conversions : AllAgree J (i.conversions.flatMap ConversionDefinition.occurrences) :=
      .flatMap fun c member => (blockAgrees.occurrences c.body (agrees.2.2 c member).2).phrase (agrees.2.2 c member).1
    exact (methods.append conversions).phrase agrees.1

/-- In a program that agrees, every phrase can be read at its place and every call agrees. -/
theorem Program.Agrees.occurrences {p : Program} (agrees : p.Agrees J) : AllAgree J p.occurrences :=
  .append (.flatMap fun d member => (agrees.1 d member).occurrences) (blockAgrees.occurrences p.statements agrees.2)

theorem Program.Agrees.calls {p : Program} (agrees : p.Agrees J) : ∀ c ∈ p.calls, c.Agrees J := by
  intro c member
  rw [Program.calls_eq, Occurrence.mem_calls] at member
  exact agrees.occurrences (.call c) member

end Satzbau

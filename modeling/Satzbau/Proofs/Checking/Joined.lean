import Satzbau.Proofs.Checking.Annotated

namespace Satzbau

/-- What two judgements accept at one place is the same, and a third one accepts it. -/
structure Judgement.Joins (J K L : Judgement) : Prop where
  reads : ∀ p cases numbers reading other, J.reads p cases numbers reading → K.reads p cases numbers other →
    reading = other ∧ L.reads p cases numbers reading
  ofCall : ∀ g c d, J.ofCall g c → K.ofCall g d → c = d ∧ L.ofCall g c
  ofHeader : ∀ g c d, J.ofHeader g c → K.ofHeader g d → c = d ∧ L.ofHeader g c

variable {J K L : Judgement}

theorem Judgement.Joins.read (joins : J.Joins K L) {p : NounPhrase} {cases : CaseSet} {numbers : NumberSet}
    (first : ∃ reading, J.reads p cases numbers reading) (second : ∃ reading, K.reads p cases numbers reading) :
    ∃ reading, L.reads p cases numbers reading := by
  obtain ⟨reading, read⟩ := first
  obtain ⟨other, read'⟩ := second
  exact ⟨reading, (joins.reads p cases numbers reading other read read').2⟩

theorem groupAgrees.join {preposition : Token} {picks picks' picksBoth agree agree' agreeBoth : Case → Prop}
    (picked : ∀ c d, picks c → picks' d → c = d ∧ picksBoth c) (both : ∀ c, agree c → agree' c → agreeBoth c)
    (first : groupAgrees preposition picks agree) (second : groupAgrees preposition picks' agree') :
    groupAgrees preposition picksBoth agreeBoth := by
  obtain ⟨cases, known, c, member, picksC, atC⟩ := first
  obtain ⟨_, _, d, _, picksD, atD⟩ := second
  obtain ⟨rfl, picksC⟩ := picked c d picksC picksD
  exact ⟨cases, known, c, member, picksC, both c atC atD⟩

-- At each place both judgements hand down the same, so that the parts meet them at the same place again.
mutual

theorem Expression.Agrees.join (joins : J.Joins K L) {cases : CaseSet} {numbers : NumberSet} {leading : Bool}
    (e : Expression) (first : e.Agrees J cases numbers leading) (second : e.Agrees K cases numbers leading) :
    e.Agrees L cases numbers leading :=
  match e with
  | .literal _ | .self _ | .you _ => trivial
  | .noun _ | .ownProperty _ | .subjectProperty _ => joins.read first second
  | .list _ items => ⟨joins.read first.1 second.1, itemsAgree.join joins items first.2 second.2⟩
  | .element _ index => ⟨joins.read first.1 second.1, Expression.Agrees.join joins index first.2 second.2⟩
  | .call c => Call.Agrees.join joins c first second
  | .binary _ _ left right =>
    ⟨Expression.Agrees.join joins left first.1 second.1, Expression.Agrees.join joins right first.2 second.2⟩
  | .minus _ operand => Expression.Agrees.join joins operand first second
  | .conversion _ value _ => ⟨Expression.Agrees.join joins value first.1 second.1, joins.read first.2 second.2⟩
  | .instantiation _ fields => ⟨joins.read first.1 second.1, argumentsAgree.join joins fields first.2 second.2⟩
  | .property _ owner => ⟨joins.read first.1 second.1, Expression.Agrees.join joins owner first.2 second.2⟩

theorem itemsAgree.join (joins : J.Joins K L) (items : List Expression) (first : itemsAgree J items)
    (second : itemsAgree K items) : itemsAgree L items :=
  match items with
  | [] => trivial
  | item :: later =>
    ⟨Expression.Agrees.join joins item first.1 second.1, itemsAgree.join joins later first.2 second.2⟩

theorem Argument.Agrees.join (joins : J.Joins K L) {c : Case} (argument : Argument) (first : argument.Agrees J c)
    (second : argument.Agrees K c) : argument.Agrees L c :=
  match argument with
  | ⟨phrase, value⟩ => by
    obtain ⟨reading, read, atValue⟩ := first
    obtain ⟨other, read', atValue'⟩ := second
    obtain ⟨rfl, readBoth⟩ := joins.reads _ _ _ _ _ read read'
    exact ⟨reading, readBoth, valueAgrees.join joins value atValue atValue'⟩

theorem argumentsAgree.join (joins : J.Joins K L) {c : Case} (arguments : List Argument)
    (first : argumentsAgree J c arguments) (second : argumentsAgree K c arguments) : argumentsAgree L c arguments :=
  match arguments with
  | [] => trivial
  | argument :: later =>
    ⟨Argument.Agrees.join joins argument first.1 second.1, argumentsAgree.join joins later first.2 second.2⟩

theorem valueAgrees.join (joins : J.Joins K L) {cases : CaseSet} (value : Option Expression)
    (first : valueAgrees J cases value) (second : valueAgrees K cases value) : valueAgrees L cases value :=
  match value with
  | none => trivial
  | some value => Expression.Agrees.join joins value first second

theorem objectAgrees.join (joins : J.Joins K L) (object : ObjectRole Argument) (first : objectAgrees J object)
    (second : objectAgrees K object) : objectAgrees L object :=
  match object with
  | .thing argument => Argument.Agrees.join joins argument first second
  | .absent | .reflexive _ => trivial

theorem groupsAgree.join (joins : J.Joins K L) (groups : List (PrepositionGroup Argument)) (first : groupsAgree J groups)
    (second : groupsAgree K groups) : groupsAgree L groups :=
  match groups with
  | [] => trivial
  | ⟨preposition, items⟩ :: later =>
    ⟨first.1.join (joins.ofCall ⟨preposition, items⟩) (fun _ => argumentsAgree.join joins items) second.1,
      groupsAgree.join joins later first.2 second.2⟩

theorem Call.Agrees.join (joins : J.Joins K L) (call : Call) (first : call.Agrees J) (second : call.Agrees K) :
    call.Agrees L :=
  match call with
  | ⟨_, _, object, groups, _⟩ =>
    ⟨objectAgrees.join joins object first.1 second.1, groupsAgree.join joins groups first.2 second.2⟩

end

mutual

theorem Statement.Agrees.join (joins : J.Joins K L) (s : Statement) (first : s.Agrees J) (second : s.Agrees K) :
    s.Agrees L :=
  match s with
  | .declaration target owner verb value => by
    obtain ⟨⟨reading, read, same⟩, atOwner, atValue⟩ := first
    obtain ⟨⟨other, read', _⟩, atOwner', atValue'⟩ := second
    exact ⟨⟨reading, (joins.reads _ _ _ _ _ read read').2, same⟩, valueAgrees.join joins owner atOwner atOwner',
      Expression.Agrees.join joins value atValue atValue'⟩
  | .conditional _ branches otherwise =>
    ⟨branchesAgree.join joins branches first.1 second.1, otherwiseAgrees.join joins otherwise first.2 second.2⟩
  | .whileLoop _ condition body =>
    ⟨Expression.Agrees.join joins condition first.1 second.1, blockAgrees.join joins body first.2 second.2⟩
  | .forEach _ _ source body =>
    ⟨joins.read first.1 second.1, valueAgrees.join joins source first.2.1 second.2.1,
      blockAgrees.join joins body first.2.2 second.2.2⟩
  | .give _ value => valueAgrees.join joins value first second
  | .methodBlock subject body =>
    ⟨Expression.Agrees.join joins subject first.1 second.1, blockAgrees.join joins body first.2 second.2⟩
  | .call c => Call.Agrees.join joins c first second
  | .loopControl .. | .builtin _ => trivial

theorem blockAgrees.join (joins : J.Joins K L) (block : List Statement) (first : blockAgrees J block)
    (second : blockAgrees K block) : blockAgrees L block :=
  match block with
  | [] => trivial
  | s :: later => ⟨Statement.Agrees.join joins s first.1 second.1, blockAgrees.join joins later first.2 second.2⟩

theorem branchesAgree.join (joins : J.Joins K L) (branches : List Branch) (first : branchesAgree J branches)
    (second : branchesAgree K branches) : branchesAgree L branches :=
  match branches with
  | [] => trivial
  | ⟨condition, body⟩ :: later =>
    ⟨Expression.Agrees.join joins condition first.1 second.1, blockAgrees.join joins body first.2.1 second.2.1,
      branchesAgree.join joins later first.2.2 second.2.2⟩

theorem otherwiseAgrees.join (joins : J.Joins K L) (otherwise : Option (List Statement))
    (first : otherwiseAgrees J otherwise) (second : otherwiseAgrees K otherwise) : otherwiseAgrees L otherwise :=
  match otherwise with
  | none => trivial
  | some body => blockAgrees.join joins body first second

end

theorem FunctionHeader.Agrees.join (joins : J.Joins K L) {h : FunctionHeader} (first : h.Agrees J) (second : h.Agrees K) :
    h.Agrees L where
  result p member := joins.read (first.result p member) (second.result p member)
  object p member := joins.read (first.object p member) (second.object p member)
  groups g member := (first.groups g member).join (joins.ofHeader g)
    (fun _ atItems atItems' p inside => joins.read (atItems p inside) (atItems' p inside)) (second.groups g member)

theorem FunctionDefinition.Agrees.join (joins : J.Joins K L) {f : FunctionDefinition} (first : f.Agrees J)
    (second : f.Agrees K) : f.Agrees L :=
  ⟨FunctionHeader.Agrees.join joins first.1 second.1, blockAgrees.join joins f.body first.2 second.2⟩

theorem Definition.Agrees.join (joins : J.Joins K L) {d : Definition} (first : d.Agrees J) (second : d.Agrees K) :
    d.Agrees L := by
  cases d with
  | function f => exact FunctionDefinition.Agrees.join joins first second
  | declension d => exact trivial
  | noun c =>
    exact ⟨joins.read first.1 second.1, fun p member => joins.read (first.2.1 p member) (second.2.1 p member),
      blockAgrees.join joins c.body first.2.2 second.2.2⟩
  | implementation i =>
    refine ⟨joins.read first.1 second.1, fun f member => ?_, fun c member => ?_⟩
    · exact FunctionDefinition.Agrees.join joins (first.2.1 f member) (second.2.1 f member)
    · have atFirst := first.2.2 c member
      have atSecond := second.2.2 c member
      exact ⟨joins.read atFirst.1 atSecond.1, blockAgrees.join joins c.body atFirst.2 atSecond.2⟩

/-- A program that agrees with two judgements agrees with what they have in common. -/
theorem Program.Agrees.join (joins : J.Joins K L) {p : Program} (first : p.Agrees J) (second : p.Agrees K) : p.Agrees L :=
  ⟨fun d member => Definition.Agrees.join joins (first.1 d member) (second.1 d member),
    blockAgrees.join joins p.statements first.2 second.2⟩

namespace Judgement

variable {dictionary : Dictionary} {a b : Annotations}

/-- A phrase is read as two annotations of it say, which are the same. -/
def notedTwice (dictionary : Dictionary) (a b : Annotations) : Judgement where
  reads p cases numbers reading := (noted dictionary a).reads p cases numbers reading ∧ b.get? p.id = some reading
  ofCall := (noted dictionary a).ofCall
  ofHeader := (noted dictionary a).ofHeader

/-- How a phrase is read depends on its place alone. -/
theorem noted_joins_noted : (noted dictionary a).Joins (noted dictionary b) (notedTwice dictionary a b) where
  reads p cases numbers reading other := by
    rintro ⟨read, known⟩ ⟨read', known'⟩
    obtain rfl : reading = other := Except.ok.inj (read.symm.trans read')
    exact ⟨rfl, ⟨read, known⟩, known'⟩
  ofCall _ _ _ picked picked' := ⟨Option.some.inj (picked.symm.trans picked'), picked⟩
  ofHeader _ _ _ picked picked' := ⟨Option.some.inj (picked.symm.trans picked'), picked⟩

end Judgement

/-- A program can be annotated in one way only. -/
theorem Program.Agrees.get?_eq {dictionary : Dictionary} {a b : Annotations} {p : Program}
    (first : p.Agrees (.noted dictionary a)) (second : p.Agrees (.noted dictionary b)) {phrase : NounPhrase}
    (member : .phrase phrase ∈ p.occurrences) : a.get? phrase.id = b.get? phrase.id := by
  obtain ⟨_, _, reading, ⟨_, known⟩, known'⟩ := (first.join Judgement.noted_joins_noted second).occurrences _ member
  rw [known, known']

end Satzbau

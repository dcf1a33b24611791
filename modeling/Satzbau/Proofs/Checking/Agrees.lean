import Satzbau.Checker

namespace Satzbau

/-- What counts as agreement at the places where it is decided: how a phrase may be read, and which
case the roles of a preposition may take. -/
structure Judgement where
  reads : NounPhrase → CaseSet → NumberSet → Annotation → Prop
  ofCall : PrepositionGroup Argument → Case → Prop
  ofHeader : PrepositionGroup Parameter → Case → Prop

/-- A judgement that accepts whatever another one accepts. -/
structure Judgement.Below (J K : Judgement) : Prop where
  reads : ∀ p cases numbers reading, J.reads p cases numbers reading → K.reads p cases numbers reading
  ofCall : ∀ g c, J.ofCall g c → K.ofCall g c
  ofHeader : ∀ g c, J.ofHeader g c → K.ofHeader g c

/-- The roles of a preposition agree in one of the cases that it governs. -/
def groupAgrees (preposition : Token) (picks : Case → Prop) (agree : Case → Prop) : Prop :=
  ∃ cases, Preposition.cases? preposition.text = some cases ∧ ∃ c ∈ cases, picks c ∧ agree c

theorem groupAgrees.mono {preposition : Token} {picks picks' agree agree' : Case → Prop}
    (agrees : groupAgrees preposition picks agree) (morePicks : ∀ c, picks c → picks' c)
    (moreAgree : ∀ c, agree c → agree' c) : groupAgrees preposition picks' agree' := by
  obtain ⟨cases, known, c, member, picked, agreed⟩ := agrees
  exact ⟨cases, known, c, member, morePicks c picked, moreAgree c agreed⟩

mutual

/-- Whether all phrases of an expression agree with their places. `cases` and `numbers` are those of
the operand with which the whole expression begins; `leading` says that this one contains it. -/
def Expression.Agrees (J : Judgement) (cases : CaseSet) (numbers : NumberSet) (leading : Bool) : Expression → Prop
  | .literal _ | .self _ | .you _ => True
  | .noun phrase | .ownProperty phrase | .subjectProperty phrase =>
    ∃ reading, J.reads phrase cases numbers reading
  | .list phrase items => (∃ reading, J.reads phrase cases (.single .plural) reading) ∧ itemsAgree J items
  | .element phrase index =>
    (∃ reading, J.reads phrase cases (.single .plural) reading) ∧ index.Agrees J (.single .nominative) .all true
  | .call c => c.Agrees J
  | .binary operator _ left right =>
    left.Agrees J (if leading then cases else .single operator.operatorClass.operandCase) .all leading ∧
      right.Agrees J (.single operator.operatorClass.operandCase) .all false
  | .minus _ operand => operand.Agrees J cases .all true
  | .conversion _ value target =>
    value.Agrees J cases numbers true ∧ ∃ reading, J.reads target (.single .nominative) (.single .singular) reading
  | .instantiation phrase fields =>
    (∃ reading, J.reads phrase cases (.single .singular) reading) ∧ argumentsAgree J .dative fields
  | .property phrase owner =>
    (∃ reading, J.reads phrase cases numbers reading) ∧ owner.Agrees J (.single .genitive) .all true

def itemsAgree (J : Judgement) : List Expression → Prop
  | [] => True
  | item :: later => item.Agrees J (.single .nominative) .all true ∧ itemsAgree J later

/-- A role agrees in a case, and its value in those cases in which the role was read. -/
def Argument.Agrees (J : Judgement) (c : Case) : Argument → Prop
  | ⟨phrase, value⟩ => ∃ reading, J.reads phrase (.single c) .all reading ∧ valueAgrees J reading.cases value

def argumentsAgree (J : Judgement) (c : Case) : List Argument → Prop
  | [] => True
  | argument :: later => argument.Agrees J c ∧ argumentsAgree J c later

def valueAgrees (J : Judgement) (cases : CaseSet) : Option Expression → Prop
  | none => True
  | some value => value.Agrees J cases .all true

def objectAgrees (J : Judgement) : ObjectRole Argument → Prop
  | .thing argument => argument.Agrees J .accusative
  | .absent | .reflexive _ => True

def groupsAgree (J : Judgement) : List (PrepositionGroup Argument) → Prop
  | [] => True
  | ⟨preposition, items⟩ :: later =>
    groupAgrees preposition (J.ofCall ⟨preposition, items⟩) (fun c => argumentsAgree J c items) ∧ groupsAgree J later

def Call.Agrees (J : Judgement) : Call → Prop
  | ⟨_, _, object, groups, _⟩ => objectAgrees J object ∧ groupsAgree J groups

end

mutual

def Statement.Agrees (J : Judgement) : Statement → Prop
  | .declaration target owner verb value =>
    (∃ reading, J.reads target (.single .nominative) .all reading ∧ verb.text = reading.number.assignmentVerb) ∧
      valueAgrees J (.single .genitive) owner ∧ value.Agrees J (.single .nominative) .all true
  | .conditional _ branches otherwise => branchesAgree J branches ∧ otherwiseAgrees J otherwise
  | .whileLoop _ condition body => condition.Agrees J (.single .nominative) .all true ∧ blockAgrees J body
  | .forEach _ binder source body =>
    (∃ reading, J.reads binder (.single .accusative) (.single .singular) reading) ∧
      valueAgrees J (.single .dative) source ∧ blockAgrees J body
  | .give _ value => valueAgrees J (.single .accusative) value
  | .methodBlock subject body => subject.Agrees J (.single .nominative) .all true ∧ blockAgrees J body
  | .call c => c.Agrees J
  | .loopControl .. | .builtin _ => True

def blockAgrees (J : Judgement) : List Statement → Prop
  | [] => True
  | s :: later => s.Agrees J ∧ blockAgrees J later

def branchesAgree (J : Judgement) : List Branch → Prop
  | [] => True
  | ⟨condition, body⟩ :: later =>
    condition.Agrees J (.single .nominative) .all true ∧ blockAgrees J body ∧ branchesAgree J later

def otherwiseAgrees (J : Judgement) : Option (List Statement) → Prop
  | none => True
  | some body => blockAgrees J body

end

def Parameter.Agrees (J : Judgement) (c : Case) (p : Parameter) : Prop :=
  ∃ reading, J.reads p.phrase (.single c) .all reading

structure FunctionHeader.Agrees (J : Judgement) (h : FunctionHeader) : Prop where
  result : ∀ p ∈ h.result, ∃ reading, J.reads p (.single .nominative) (.single .singular) reading
  object : ∀ p ∈ h.object.toList, p.Agrees J .accusative
  groups : ∀ g ∈ h.groups, groupAgrees g.preposition (J.ofHeader g) fun c => ∀ p ∈ g.items, p.Agrees J c

def FunctionDefinition.Agrees (J : Judgement) (f : FunctionDefinition) : Prop :=
  f.header.Agrees J ∧ blockAgrees J f.body

def ConversionDefinition.Agrees (J : Judgement) (c : ConversionDefinition) : Prop :=
  (∃ reading, J.reads c.target (.single .nominative) (.single .singular) reading) ∧ blockAgrees J c.body

def Definition.Agrees (J : Judgement) : Definition → Prop
  | .function f => f.Agrees J
  | .noun c =>
    (∃ reading, J.reads c.name (.single .nominative) (.single .singular) reading) ∧
      (∀ p ∈ c.fields, p.Agrees J .dative) ∧ blockAgrees J c.body
  | .implementation i =>
    (∃ reading, J.reads i.owner (.single .accusative) (.single .singular) reading) ∧
      (∀ f ∈ i.methods, f.Agrees J) ∧ ∀ c ∈ i.conversions, c.Agrees J
  | .declension _ => True

/-- A whole program agrees: every phrase can be read at its place, every preposition is known, and
every assignment has the verb of its target's number. -/
def Program.Agrees (J : Judgement) (p : Program) : Prop :=
  (∀ d ∈ p.definitions, d.Agrees J) ∧ blockAgrees J p.statements

/-- A choice of one case for every preposition of a program and its roles. -/
structure CaseChoice where
  ofCall : PrepositionGroup Argument → Case
  ofHeader : PrepositionGroup Parameter → Case

/-- A phrase is read as it is where nothing is annotated yet, and prepositions take any case. -/
def Judgement.free (dictionary : Dictionary) : Judgement where
  reads p cases numbers reading := ((Checker.resolve dictionary p cases numbers).run .empty).1 = .ok reading
  ofCall _ _ := True
  ofHeader _ _ := True

/-- A phrase is read as it is where nothing is annotated yet, and prepositions take the chosen case. -/
def CaseChoice.judgement (dictionary : Dictionary) (choice : CaseChoice) : Judgement where
  reads := (Judgement.free dictionary).reads
  ofCall g c := choice.ofCall g = c
  ofHeader g c := choice.ofHeader g = c

theorem CaseChoice.below_free (dictionary : Dictionary) (choice : CaseChoice) :
    (choice.judgement dictionary).Below (.free dictionary) where
  reads _ _ _ _ known := known
  ofCall _ _ _ := trivial
  ofHeader _ _ _ := trivial

end Satzbau

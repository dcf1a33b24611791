import Satzbau.Proofs.Parsing.Allowed

namespace Satzbau

/-- Whether a determiner may stand with persons. A possessive needs someone to be the possessor, and a
quantifier stands at the binder of a loop only. -/
def Determiner.MayStand (persons : Persons) : Determiner → Prop
  | firstPossessive => persons.first = true
  | secondPossessive => persons.second = true
  | quantifier => False
  | definite | indefinite => True

instance (persons : Persons) (kind : Determiner) : Decidable (kind.MayStand persons) :=
  match kind with
  | .firstPossessive | .secondPossessive => inferInstanceAs (Decidable (_ = true))
  | .quantifier => isFalse id
  | .definite | .indefinite => isTrue trivial

/-- Whether the determiner of a phrase, if it has one, may stand where it does. -/
def NounPhrase.Determined (persons : Persons) (p : NounPhrase) : Prop :=
  ∀ kind ∈ p.determinerKind, kind.MayStand persons

instance (persons : Persons) (p : NounPhrase) : Decidable (p.Determined persons) :=
  inferInstanceAs (Decidable (∀ kind ∈ p.determinerKind, kind.MayStand persons))

/-- The binder of a loop may be quantified. -/
def NounPhrase.DeterminedAsBinder (persons : Persons) (p : NounPhrase) : Prop :=
  ∀ kind ∈ p.determinerKind, kind ≠ .quantifier → kind.MayStand persons

mutual

/-- Whether every phrase of an expression has a determiner that may stand there. -/
def Expression.Determined (persons : Persons) : Expression → Prop
  | .literal _ | .self _ | .you _ => True
  | .noun p | .ownProperty p | .subjectProperty p => p.Determined persons
  | .list p items => p.Determined persons ∧ itemsDetermined persons items
  | .element p index => p.Determined persons ∧ index.Determined persons
  | .call c => c.Determined persons
  | .binary _ _ left right => left.Determined persons ∧ right.Determined persons
  | .minus _ operand => operand.Determined persons
  | .conversion _ value target => value.Determined persons ∧ target.Determined persons
  | .instantiation p fields => p.Determined persons ∧ argumentsDetermined persons fields
  | .property p owner => p.Determined persons ∧ owner.Determined persons

def itemsDetermined (persons : Persons) : List Expression → Prop
  | [] => True
  | item :: later => item.Determined persons ∧ itemsDetermined persons later

def valueDetermined (persons : Persons) : Option Expression → Prop
  | none => True
  | some value => value.Determined persons

def Argument.Determined (persons : Persons) : Argument → Prop
  | ⟨p, value⟩ => p.Determined persons ∧ valueDetermined persons value

def argumentsDetermined (persons : Persons) : List Argument → Prop
  | [] => True
  | argument :: later => argument.Determined persons ∧ argumentsDetermined persons later

def objectDetermined (persons : Persons) : ObjectRole Argument → Prop
  | .thing argument => argument.Determined persons
  | .absent | .reflexive _ => True

def groupsDetermined (persons : Persons) : List (PrepositionGroup Argument) → Prop
  | [] => True
  | ⟨_, items⟩ :: later => argumentsDetermined persons items ∧ groupsDetermined persons later

def Call.Determined (persons : Persons) : Call → Prop
  | ⟨_, _, object, groups, _⟩ => objectDetermined persons object ∧ groupsDetermined persons groups

end

/-- In a method block there is a subject to be spoken to. -/
def Persons.addressed (persons : Persons) : Persons :=
  { persons with second := true }

mutual

/-- Whether every phrase of a statement has a determiner that may stand there. -/
def Statement.Determined (persons : Persons) : Statement → Prop
  | .declaration target owner _ value =>
    target.Determined persons ∧ valueDetermined persons owner ∧ value.Determined persons
  | .conditional _ branches otherwise => branchesDetermined persons branches ∧ otherwiseDetermined persons otherwise
  | .whileLoop _ condition body => condition.Determined persons ∧ blockDetermined persons body
  | .forEach _ binder source body =>
    binder.DeterminedAsBinder persons ∧ valueDetermined persons source ∧ blockDetermined persons body
  | .give _ value => valueDetermined persons value
  | .methodBlock subject body => subject.Determined persons ∧ blockDetermined persons.addressed body
  | .call c => c.Determined persons
  | .loopControl .. | .builtin _ => True

def blockDetermined (persons : Persons) : List Statement → Prop
  | [] => True
  | first :: later => first.Determined persons ∧ blockDetermined persons later

def branchesDetermined (persons : Persons) : List Branch → Prop
  | [] => True
  | ⟨condition, body⟩ :: later =>
    condition.Determined persons ∧ blockDetermined persons body ∧ branchesDetermined persons later

def otherwiseDetermined (persons : Persons) : Option (List Statement) → Prop
  | none => True
  | some body => blockDetermined persons body

end

/-- Where there is nobody to be spoken of. -/
def Persons.nobody : Persons :=
  ⟨false, false⟩

/-- Where there is an object to be spoken of: in a class, a method or a conversion. -/
def Persons.object : Persons :=
  ⟨true, false⟩

/-- Whether the parameters of a header have determiners that may stand there. -/
def FunctionHeader.ParametersDetermined (persons : Persons) (h : FunctionHeader) : Prop :=
  ∀ p ∈ h.parameters, p.phrase.Determined persons

instance (persons : Persons) (h : FunctionHeader) : Decidable (h.ParametersDetermined persons) :=
  inferInstanceAs (Decidable (∀ p ∈ h.parameters, p.phrase.Determined persons))

/-- Whether the phrases that a definition is headed by, its parameters, fields or class, have determiners
that may stand there. -/
def Definition.HeadDetermined : Definition → Prop
  | .function f => f.header.ParametersDetermined .nobody
  | .noun c => ∀ field ∈ c.fields, field.phrase.Determined .object
  | .implementation i => i.owner.Determined .nobody ∧ ∀ m ∈ i.methods, m.header.ParametersDetermined .object
  | .declension _ => True

instance : (d : Definition) → Decidable d.HeadDetermined
  | .function f => inferInstanceAs (Decidable (f.header.ParametersDetermined .nobody))
  | .noun c => inferInstanceAs (Decidable (∀ field ∈ c.fields, field.phrase.Determined .object))
  | .implementation i =>
    inferInstanceAs (Decidable (i.owner.Determined .nobody ∧ ∀ m ∈ i.methods, m.header.ParametersDetermined .object))
  | .declension _ => isTrue trivial

def FunctionDefinition.BodyDetermined (persons : Persons) (f : FunctionDefinition) : Prop :=
  (∀ result ∈ f.header.result, result.Determined persons) ∧ blockDetermined persons f.body

def ConversionDefinition.Determined (c : ConversionDefinition) : Prop :=
  c.target.Determined .object ∧ blockDetermined .object c.body

/-- Whether all other phrases of a definition have determiners that may stand there. -/
def Definition.BodyDetermined : Definition → Prop
  | .function f => f.BodyDetermined .nobody
  | .noun c => c.name.Determined .object ∧ blockDetermined .object c.body
  | .implementation i => (∀ m ∈ i.methods, m.BodyDetermined .object) ∧ ∀ c ∈ i.conversions, c.Determined
  | .declension _ => True

/-- Whether every phrase of a program has a determiner that may stand there. -/
def Program.Determined (p : Program) : Prop :=
  (∀ d ∈ p.definitions, d.HeadDetermined ∧ d.BodyDetermined) ∧ blockDetermined .nobody p.statements

def Program.BodiesDetermined (p : Program) : Prop :=
  (∀ d ∈ p.definitions, d.BodyDetermined) ∧ blockDetermined .nobody p.statements

theorem Program.determined_iff (p : Program) :
    p.Determined ↔ (∀ d ∈ p.definitions, d.HeadDetermined) ∧ p.BodiesDetermined := by
  unfold Determined BodiesDetermined
  simp only [imp_and, forall_and, and_assoc]

/-- The operand that begins an expression is one of its parts. -/
theorem Expression.Determined.firstOperand {persons : Persons} {e : Expression} (known : e.Determined persons) :
    e.firstOperand.Determined persons := by
  fun_induction Expression.firstOperand e with
  | case1 _ _ left _ ih => exact ih known.1
  | case2 _ value _ ih => exact ih known.1
  | case3 => exact known

namespace Parser

/-- What the parsers for whatever stands inside give has determiners that may stand there. A phrase that
has been begun has a determiner of the kind that was seen. -/
structure Inner.Determines (inner : Inner) : Prop where
  expression : ∀ scope least, Gives scope (inner.expression least) (Expression.Determined scope.persons)
  operators : ∀ scope least left, left.Determined scope.persons →
    Gives scope (inner.operators least left) (Expression.Determined scope.persons)
  conversions : ∀ scope value, value.Determined scope.persons →
    Gives scope (inner.conversions value) (Expression.Determined scope.persons)
  phrase : ∀ scope (determiner : Token) kind noun, determiner.determiner? = some kind →
    Gives scope (inner.phrase determiner kind noun) (Expression.Determined scope.persons)
  items : ∀ scope, Gives scope inner.items (itemsDetermined scope.persons)
  arguments : ∀ scope, Gives scope inner.arguments (argumentsDetermined scope.persons)
  groups : ∀ scope, Gives scope inner.groups (groupsDetermined scope.persons)
  statements : ∀ scope close expected, Gives scope (inner.statements close expected) (blockDetermined scope.persons)
  alternatives : ∀ scope, Gives scope inner.alternatives fun found =>
    branchesDetermined scope.persons found.1 ∧ otherwiseDetermined scope.persons found.2
  members : ∀ scope, scope.around = [.implementation] → Gives scope inner.members fun found =>
    (∀ m ∈ found.1, m.BodyDetermined .object) ∧ ∀ c ∈ found.2, c.Determined
  program : ∀ scope, scope.around = [] → Gives scope inner.program Program.BodiesDetermined

theorem Inner.determines_none : Inner.none.Determines where
  expression _ _ := .unexpected _
  operators _ _ _ _ := .unexpected _
  conversions _ _ _ := .unexpected _
  phrase _ _ _ _ _ := .unexpected _
  items _ := .unexpected _
  arguments _ := .unexpected _
  groups _ := .unexpected _
  statements _ _ expected := .unexpected expected
  alternatives _ := .unexpected _
  members _ _ := .unexpected _
  program _ _ := .unexpected _

variable {scope : Scope} {persons : Persons}

theorem Gives.expectDeterminer : Gives scope expectDeterminer fun found => found.1.determiner? = some found.2 := by
  unfold Parser.expectDeterminer
  refine .look fun token s seen => ?_
  split
  · rename_i kind isDeterminer
    exact .take seen (.pure isDeterminer)
  · exact (Gives.throw _).givesFrom

/-- A phrase whose determiner may stand where it does. -/
theorem Gives.determined {determiner noun : Token} {kind : Determiner} (isKind : determiner.determiner? = some kind)
    (mayStand : kind.MayStand persons) :
    Gives scope (nounPhrase (some determiner) noun) (NounPhrase.Determined persons) := by
  refine .bind (.any _) fun id _ => .pure fun other isOther => ?_
  obtain rfl : other = kind := Option.some.inj (isOther.symm.trans isKind)
  exact mayStand

theorem Gives.undetermined {noun : Token} (persons : Persons) : Gives scope (nounPhrase none noun) (NounPhrase.Determined persons) :=
  .bind (.any _) fun _ _ => .pure fun _ isKind => nomatch isKind

/-- What is asked of an owner is what its determiner needs. -/
theorem Gives.requireOwner {token : Token} {kind : Determiner} (other : kind ≠ .quantifier) :
    Gives scope (requireOwner token kind) fun _ => kind.MayStand scope.persons := by
  cases kind with
  | definite => exact .pure trivial
  | indefinite => exact .pure trivial
  | firstPossessive => exact .requireSelf token
  | secondPossessive => exact .requireMethodBlock token
  | quantifier => contradiction

end Parser

end Satzbau

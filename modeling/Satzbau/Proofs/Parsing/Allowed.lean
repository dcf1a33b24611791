import Satzbau.Proofs.Parsing.TopLevel

namespace Satzbau

/-- Who can be spoken of at a place. -/
structure Persons where
  /-- The object whose method, conversion or constructor runs. -/
  first : Bool
  /-- The subject of a method block. -/
  second : Bool
deriving DecidableEq, Repr

/-- What a statement finds around it. -/
structure Surroundings where
  persons : Persons
  /-- The body of a function, a method or a conversion. -/
  inBody : Bool
  /-- The body of a loop. -/
  inLoop : Bool
deriving DecidableEq, Repr

namespace Surroundings

/-- The surroundings of what belongs to no definition. -/
def outermost : Surroundings :=
  ⟨⟨false, false⟩, false, false⟩

def ofFunction : Surroundings :=
  ⟨⟨false, false⟩, true, false⟩

def ofClass : Surroundings :=
  ⟨⟨true, false⟩, false, false⟩

/-- The surroundings of what belongs to a method or a conversion. -/
def ofMember : Surroundings :=
  ⟨⟨true, false⟩, true, false⟩

def withinLoop (s : Surroundings) : Surroundings :=
  { s with inLoop := true }

def withinMethodBlock (s : Surroundings) : Surroundings :=
  { s with persons := { s.persons with second := true } }

end Surroundings

/-- Whether an object that is the subject itself may stand with persons: `mich` speaks of the first one and
`dich` to the second one. -/
def Token.ReflexiveAllowed (persons : Persons) (token : Token) : Prop :=
  token.kind = .keyword .myself ∧ persons.first = true ∨ token.kind = .keyword .yourself ∧ persons.second = true

mutual

/-- Whether all that an expression says of persons may be said where it stands. -/
def Expression.Allowed (persons : Persons) : Expression → Prop
  | .literal _ | .noun _ => True
  | .list _ items => itemsAllowed persons items
  | .element _ index => index.Allowed persons
  | .call c => c.Allowed persons
  | .binary _ _ left right => left.Allowed persons ∧ right.Allowed persons
  | .minus _ operand => operand.Allowed persons
  | .conversion _ value _ => value.Allowed persons
  | .instantiation _ fields => argumentsAllowed persons fields
  | .property _ owner => owner.Allowed persons
  | .ownProperty _ | .self _ => persons.first = true
  | .subjectProperty _ | .you _ => persons.second = true

def itemsAllowed (persons : Persons) : List Expression → Prop
  | [] => True
  | item :: later => item.Allowed persons ∧ itemsAllowed persons later

def valueAllowed (persons : Persons) : Option Expression → Prop
  | none => True
  | some value => value.Allowed persons

def Argument.Allowed (persons : Persons) : Argument → Prop
  | ⟨_, value⟩ => valueAllowed persons value

def argumentsAllowed (persons : Persons) : List Argument → Prop
  | [] => True
  | argument :: later => argument.Allowed persons ∧ argumentsAllowed persons later

def objectAllowed (persons : Persons) : ObjectRole Argument → Prop
  | .absent => True
  | .thing argument => argument.Allowed persons
  | .reflexive token => token.ReflexiveAllowed persons

def groupsAllowed (persons : Persons) : List (PrepositionGroup Argument) → Prop
  | [] => True
  | ⟨_, items⟩ :: later => argumentsAllowed persons items ∧ groupsAllowed persons later

def Call.Allowed (persons : Persons) : Call → Prop
  | ⟨_, _, object, groups, _⟩ => objectAllowed persons object ∧ groupsAllowed persons groups

end

mutual

/-- Whether all of a statement may stand in its surroundings. -/
def Statement.Allowed (s : Surroundings) : Statement → Prop
  | .declaration _ owner _ value => valueAllowed s.persons owner ∧ value.Allowed s.persons
  | .conditional _ branches otherwise => branchesAllowed s branches ∧ otherwiseAllowed s otherwise
  | .whileLoop _ condition body => condition.Allowed s.persons ∧ blockAllowed s.withinLoop body
  | .forEach _ _ source body => valueAllowed s.persons source ∧ blockAllowed s.withinLoop body
  | .give _ value => s.inBody = true ∧ valueAllowed s.persons value
  | .loopControl .. => s.inLoop = true
  | .methodBlock subject body => subject.Allowed s.persons ∧ blockAllowed s.withinMethodBlock body
  | .call c => c.Allowed s.persons
  | .builtin _ => s.inBody = true

def blockAllowed (s : Surroundings) : List Statement → Prop
  | [] => True
  | first :: later => first.Allowed s ∧ blockAllowed s later

def branchesAllowed (s : Surroundings) : List Branch → Prop
  | [] => True
  | ⟨condition, body⟩ :: later => condition.Allowed s.persons ∧ blockAllowed s body ∧ branchesAllowed s later

def otherwiseAllowed (s : Surroundings) : Option (List Statement) → Prop
  | none => True
  | some body => blockAllowed s body

end

/-- Whether all of a definition may stand where it does. A function that is no method has no object that
is the subject itself. -/
def Definition.Allowed : Definition → Prop
  | .function f => ¬ f.header.IsReflexive ∧ blockAllowed .ofFunction f.body
  | .noun c => blockAllowed .ofClass c.body
  | .implementation i =>
    (∀ f ∈ i.methods, blockAllowed .ofMember f.body) ∧ ∀ c ∈ i.conversions, blockAllowed .ofMember c.body
  | .declension _ => True

/-- Whether everything in a program that depends on what is around it stands where it may. -/
def Program.Allowed (p : Program) : Prop :=
  (∀ d ∈ p.definitions, d.Allowed) ∧ blockAllowed .outermost p.statements

namespace Parser

/-- The persons at a place within some constructs. -/
def Scope.persons (scope : Scope) : Persons where
  first := scope.around.any [Construct.method, .conversion, .noun].contains
  second := scope.around.any [Construct.methodBlock].contains

def Scope.surroundings (scope : Scope) : Surroundings where
  persons := scope.persons
  inBody := scope.around.any [Construct.function, .method, .conversion].contains
  inLoop := scope.around.any [Construct.whileLoop, .forEach].contains

/-- What the parsers for whatever stands inside give may stand where it does. -/
structure Inner.Allows (inner : Inner) : Prop where
  expression : ∀ scope least, Gives scope (inner.expression least) (Expression.Allowed scope.persons)
  operators : ∀ scope least left, left.Allowed scope.persons →
    Gives scope (inner.operators least left) (Expression.Allowed scope.persons)
  conversions : ∀ scope value, value.Allowed scope.persons →
    Gives scope (inner.conversions value) (Expression.Allowed scope.persons)
  phrase : ∀ scope determiner kind noun, Gives scope (inner.phrase determiner kind noun) (Expression.Allowed scope.persons)
  items : ∀ scope, Gives scope inner.items (itemsAllowed scope.persons)
  arguments : ∀ scope, Gives scope inner.arguments (argumentsAllowed scope.persons)
  groups : ∀ scope, Gives scope inner.groups (groupsAllowed scope.persons)
  statements : ∀ scope close expected, Gives scope (inner.statements close expected) (blockAllowed scope.surroundings)
  alternatives : ∀ scope, Gives scope inner.alternatives fun found =>
    branchesAllowed scope.surroundings found.1 ∧ otherwiseAllowed scope.surroundings found.2
  members : ∀ scope, scope.around = [.implementation] → Gives scope inner.members fun found =>
    (∀ f ∈ found.1, blockAllowed .ofMember f.body) ∧ ∀ c ∈ found.2, blockAllowed .ofMember c.body
  program : ∀ scope, scope.around = [] → Gives scope inner.program Program.Allowed

/-- Where nothing can be read, nothing is given. -/
theorem Inner.allows_none : Inner.none.Allows where
  expression _ _ := .unexpected _
  operators _ _ _ _ := .unexpected _
  conversions _ _ _ := .unexpected _
  phrase _ _ _ _ := .unexpected _
  items _ := .unexpected _
  arguments _ := .unexpected _
  groups _ := .unexpected _
  statements _ _ expected := .unexpected expected
  alternatives _ := .unexpected _
  members _ _ := .unexpected _
  program _ _ := .unexpected _

section Rules

variable {α : Type} {scope : Scope} {s : State} {good : α → Prop}

/-- What holds of what a parser gives in a scope from a state on. -/
def GivesFrom (scope : Scope) (s : State) (p : Parser α) (good : α → Prop) : Prop :=
  ∀ a t, p scope s = .ok (a, t) → good a

theorem Gives.givesFrom {p : Parser α} (gives : Gives scope p good) : GivesFrom scope s p good :=
  gives s

/-- A parser that looks at the front goes on where that token stands. -/
theorem Gives.look {f : Token → Parser α}
    (next : ∀ token s, peek scope s = .ok (token, s) → GivesFrom scope s (f token) good) :
    Gives scope (peek >>= f) good := by
  intro s a t run
  obtain ⟨token, middle, seen, rest⟩ := bind_eq_ok run
  obtain ⟨rfl, _⟩ := peek_eq_ok seen
  exact next token _ seen a t rest

/-- What is taken is the token that was seen. -/
theorem GivesFrom.take {f : Token → Parser α} {token : Token} (seen : peek scope s = .ok (token, s))
    (next : Gives scope (f token) good) : GivesFrom scope s (advance >>= f) good := by
  intro a t run
  obtain ⟨other, later, took, rest⟩ := bind_eq_ok run
  have again := (advance_eq_ok took).1
  rw [seen] at again
  cases again
  exact next later a t rest

theorem Gives.requireSelf (token : Token) : Gives scope (requireSelf token) fun _ => scope.persons.first = true :=
  .require _ _ _

theorem Gives.requireMethodBlock (token : Token) :
    Gives scope (requireMethodBlock token) fun _ => scope.persons.second = true :=
  .require _ _ _

theorem Gives.requireBody (token : Token) : Gives scope (requireBody token) fun _ => scope.surroundings.inBody = true :=
  .require _ _ _

theorem Gives.requireLoop (token : Token) : Gives scope (requireLoop token) fun _ => scope.surroundings.inLoop = true :=
  .require _ _ _

end Rules

end Parser

end Satzbau

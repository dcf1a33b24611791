import Satzbau.Agreement
import Satzbau.Preposition
import Satzbau.Program

namespace Satzbau

/-- A check may fail. What it has recorded until then stays until it is rolled back. -/
abbrev Checking := ExceptT Diagnostic (StateM Annotations)

namespace Checker

/-- Annotates a phrase. A phrase that was annotated before keeps its annotation. -/
def resolve (dictionary : Dictionary) (p : NounPhrase) (cases : CaseSet) (numbers : NumberSet) :
    Checking Annotation := do
  match (← get).get? p.id with
  | some reading => return reading
  | none =>
    let reading ← Agreement.annotate dictionary p cases numbers
    modify fun a => a.record p.id reading
    return reading

def resolveIn (dictionary : Dictionary) (p : NounPhrase) (c : Case) (numbers : NumberSet) : Checking Unit := do
  let _ ← resolve dictionary p (.single c) numbers

/-- Checks with one case after the other until a check passes. A check that fails leaves nothing
behind, and the last failure is the one that counts. -/
def tryCases (check : Case → Checking Unit) (failure : Diagnostic) : List Case → Checking Unit
  | [] => throw failure
  | c :: others => do
    let before := (← get).checkpoint
    tryCatch (check c) fun failure => do
      modify fun a => a.rollback before
      tryCases check failure others

/-- Checks the roles of a preposition in a case that it governs, the same one for all of them. -/
def checkGroup (preposition : Token) (check : Case → Checking Unit) : Checking Unit :=
  match Preposition.cases? preposition.text with
  | none => throw (preposition.unexpected "a preposition")
  | some cases => tryCases check (.unlocated (.internal "preposition without cases")) cases

mutual

/-- Checks an expression. `cases` are those of its first operand if `leading` says that it stands at
the beginning of the whole expression; any other operand takes the case of its operator. -/
def checkExpression (dictionary : Dictionary) (cases : CaseSet) (numbers : NumberSet) (leading : Bool) :
    Expression → Checking Unit
  | .literal _ | .self _ | .you _ => return
  | .noun phrase | .ownProperty phrase | .subjectProperty phrase => do
    let _ ← resolve dictionary phrase cases numbers
  | .list phrase items => do
    let _ ← resolve dictionary phrase cases (.single .plural)
    checkItems dictionary items
  | .element phrase index => do
    let _ ← resolve dictionary phrase cases (.single .plural)
    checkExpression dictionary (.single .nominative) .all true index
  | .call c => checkCall dictionary c
  | .binary operator _ left right => do
    let own := CaseSet.single operator.operatorClass.operandCase
    checkExpression dictionary (if leading then cases else own) .all leading left
    checkExpression dictionary own .all false right
  | .minus _ operand => checkExpression dictionary cases .all true operand
  | .conversion _ value target => do
    checkExpression dictionary cases numbers true value
    resolveIn dictionary target .nominative (.single .singular)
  | .instantiation phrase fields => do
    let _ ← resolve dictionary phrase cases (.single .singular)
    checkArguments dictionary .dative fields
  | .property phrase owner => do
    let _ ← resolve dictionary phrase cases numbers
    checkExpression dictionary (.single .genitive) .all true owner

def checkItems (dictionary : Dictionary) : List Expression → Checking Unit
  | [] => return
  | item :: later => do
    checkExpression dictionary (.single .nominative) .all true item
    checkItems dictionary later

/-- Checks a role. Its value takes the cases in which the role itself can stand. -/
def checkArgument (dictionary : Dictionary) (c : Case) : Argument → Checking Unit
  | ⟨phrase, value⟩ => do
    let reading ← resolve dictionary phrase (.single c) .all
    checkValue dictionary reading.cases value

def checkArguments (dictionary : Dictionary) (c : Case) : List Argument → Checking Unit
  | [] => return
  | argument :: later => do
    checkArgument dictionary c argument
    checkArguments dictionary c later

def checkValue (dictionary : Dictionary) (cases : CaseSet) : Option Expression → Checking Unit
  | none => return
  | some value => checkExpression dictionary cases .all true value

def checkObject (dictionary : Dictionary) : ObjectRole Argument → Checking Unit
  | .thing argument => checkArgument dictionary .accusative argument
  | .absent | .reflexive _ => return

def checkGroups (dictionary : Dictionary) : List (PrepositionGroup Argument) → Checking Unit
  | [] => return
  | ⟨preposition, items⟩ :: later => do
    checkGroup preposition fun c => checkArguments dictionary c items
    checkGroups dictionary later

def checkCall (dictionary : Dictionary) : Call → Checking Unit
  | ⟨_, _, object, groups, _⟩ => do
    checkObject dictionary object
    checkGroups dictionary groups

end

/-- Whether the verb of an assignment has the number of its target. -/
def checkAssignment (verb : Token) (n : Number) : Checking Unit := do
  if verb.text ≠ n.assignmentVerb then
    throw (verb.blame (.wrongAssignmentForm verb.text n.assignmentVerb))

mutual

def checkStatement (dictionary : Dictionary) : Statement → Checking Unit
  | .declaration target owner verb value => do
    let reading ← resolve dictionary target (.single .nominative) .all
    checkAssignment verb reading.number
    checkValue dictionary (.single .genitive) owner
    checkExpression dictionary (.single .nominative) .all true value
  | .conditional _ branches otherwise => do
    checkBranches dictionary branches
    checkOtherwise dictionary otherwise
  | .whileLoop _ condition body => do
    checkExpression dictionary (.single .nominative) .all true condition
    checkBlock dictionary body
  | .forEach _ binder source body => do
    resolveIn dictionary binder .accusative (.single .singular)
    checkValue dictionary (.single .dative) source
    checkBlock dictionary body
  | .give _ value => checkValue dictionary (.single .accusative) value
  | .methodBlock subject body => do
    checkExpression dictionary (.single .nominative) .all true subject
    checkBlock dictionary body
  | .call c => checkCall dictionary c
  | .loopControl .. | .builtin _ => return

def checkBlock (dictionary : Dictionary) : List Statement → Checking Unit
  | [] => return
  | s :: later => do
    checkStatement dictionary s
    checkBlock dictionary later

def checkBranches (dictionary : Dictionary) : List Branch → Checking Unit
  | [] => return
  | ⟨condition, body⟩ :: later => do
    checkExpression dictionary (.single .nominative) .all true condition
    checkBlock dictionary body
    checkBranches dictionary later

def checkOtherwise (dictionary : Dictionary) : Option (List Statement) → Checking Unit
  | none => return
  | some body => checkBlock dictionary body

end

def checkHeader (dictionary : Dictionary) (h : FunctionHeader) : Checking Unit := do
  h.result.forM fun result => resolveIn dictionary result .nominative (.single .singular)
  h.object.toList.forM fun p => resolveIn dictionary p.phrase .accusative .all
  h.groups.forM fun g =>
    checkGroup g.preposition fun c => g.items.forM fun p => resolveIn dictionary p.phrase c .all

def checkFunction (dictionary : Dictionary) (f : FunctionDefinition) : Checking Unit := do
  checkHeader dictionary f.header
  checkBlock dictionary f.body

def checkDefinition (dictionary : Dictionary) : Definition → Checking Unit
  | .function f => checkFunction dictionary f
  | .noun c => do
    resolveIn dictionary c.name .nominative (.single .singular)
    c.fields.forM fun p => resolveIn dictionary p.phrase .dative .all
    checkBlock dictionary c.body
  | .implementation i => do
    resolveIn dictionary i.owner .accusative (.single .singular)
    i.methods.forM (checkFunction dictionary)
    i.conversions.forM fun c => do
      resolveIn dictionary c.target .nominative (.single .singular)
      checkBlock dictionary c.body
  | .declension _ => return

end Checker

def Program.check (p : Program) (dictionary : Dictionary) : Checking Unit := do
  p.definitions.forM (Checker.checkDefinition dictionary)
  Checker.checkBlock dictionary p.statements

/-- The annotations of all phrases of a program, or the first fault in its grammar. -/
def Program.annotations (p : Program) (dictionary : Dictionary) : Except Diagnostic Annotations :=
  match (p.check dictionary).run .empty with
  | (.ok _, annotations) => .ok annotations
  | (.error fault, _) => .error fault

end Satzbau

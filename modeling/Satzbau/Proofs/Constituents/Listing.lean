import Satzbau.Proofs.Occurrence

namespace Satzbau

/-- What a program keeps of one place of its text. -/
inductive Constituent
  | token (t : Token)
  /-- A phrase that stands for itself. -/
  | phrase (p : NounPhrase)
  /-- The phrase with which an argument names its role. -/
  | role (a : Argument)
  /-- A call, right before its verb. -/
  | call (c : Call)
  /-- A form of a declension. Only its spelling is kept. -/
  | form (text : String)
  /-- The `in` between the binder and the source of a loop. Nothing of it is kept. -/
  | loopIn

namespace Constituent

/-- What carries an id in a place. -/
def occurrence? : Constituent → Option Occurrence
  | phrase p => some (.phrase p)
  | role a => some (.phrase a.phrase)
  | call c => some (.call c)
  | token _ | form _ | loopIn => none

def id? (c : Constituent) : Option NodeId :=
  c.occurrence?.map Occurrence.id

end Constituent

mutual

/-- What an expression keeps, in the order of the text. A phrase that an argument shares with its value is
listed twice, as a role and as the property with which the value begins. -/
def Expression.constituents : Expression → List Constituent
  | .literal token | .self token | .you token => [.token token]
  | .noun phrase | .ownProperty phrase | .subjectProperty phrase => [.phrase phrase]
  | .list phrase items => .phrase phrase :: itemConstituents items
  | .element phrase index => .phrase phrase :: index.constituents
  | .call c => c.constituents
  | .binary _ token left right => left.constituents ++ .token token :: right.constituents
  | .minus token operand => .token token :: operand.constituents
  | .conversion token value target => value.constituents ++ [.token token, .phrase target]
  | .instantiation phrase fields => .phrase phrase :: argumentConstituents fields
  | .property phrase owner => .phrase phrase :: owner.constituents

def itemConstituents : List Expression → List Constituent
  | [] => []
  | item :: later => item.constituents ++ itemConstituents later

def valueConstituents : Option Expression → List Constituent
  | none => []
  | some value => value.constituents

def Argument.constituents : Argument → List Constituent
  | ⟨phrase, value⟩ => .role ⟨phrase, value⟩ :: valueConstituents value

def argumentConstituents : List Argument → List Constituent
  | [] => []
  | argument :: later => argument.constituents ++ argumentConstituents later

def objectConstituents : ObjectRole Argument → List Constituent
  | .absent => []
  | .thing argument => argument.constituents
  | .reflexive token => [.token token]

def groupConstituents : List (PrepositionGroup Argument) → List Constituent
  | [] => []
  | ⟨preposition, items⟩ :: later =>
    .token preposition :: (argumentConstituents items ++ groupConstituents later)

def Call.constituents : Call → List Constituent
  | ⟨id, verb, object, groups, suffix⟩ =>
    .call ⟨id, verb, object, groups, suffix⟩ :: .token verb ::
      (objectConstituents object ++ groupConstituents groups ++ suffix.toList.map .token)

end

/-- What a loop keeps of the place that names its source. -/
def sourceConstituents : Option Expression → List Constituent
  | none => []
  | some source => .loopIn :: source.constituents

mutual

def Statement.constituents : Statement → List Constituent
  | .declaration target owner verb value =>
    .phrase target :: (valueConstituents owner ++ .token verb :: value.constituents)
  | .conditional token branches otherwise =>
    .token token :: (branchConstituents branches ++ otherwiseConstituents otherwise)
  | .whileLoop token condition body => .token token :: (condition.constituents ++ blockConstituents body)
  | .forEach token binder source body =>
    .token token :: .phrase binder :: (sourceConstituents source ++ blockConstituents body)
  | .give token value => .token token :: valueConstituents value
  | .methodBlock subject body => subject.constituents ++ blockConstituents body
  | .call c => c.constituents
  | .loopControl _ token | .builtin token => [.token token]

def blockConstituents : List Statement → List Constituent
  | [] => []
  | s :: later => s.constituents ++ blockConstituents later

def branchConstituents : List Branch → List Constituent
  | [] => []
  | ⟨condition, body⟩ :: later =>
    condition.constituents ++ blockConstituents body ++ branchConstituents later

def otherwiseConstituents : Option (List Statement) → List Constituent
  | none => []
  | some body => blockConstituents body

end

def Parameter.constituents (p : Parameter) : List Constituent :=
  .phrase p.phrase :: p.name.toList.map .token

def headerObjectConstituents : ObjectRole Parameter → List Constituent
  | .absent => []
  | .thing parameter => parameter.constituents
  | .reflexive token => [.token token]

def headerGroupConstituents (groups : List (PrepositionGroup Parameter)) : List Constituent :=
  groups.flatMap fun g => .token g.preposition :: g.items.flatMap Parameter.constituents

def FunctionHeader.constituents (h : FunctionHeader) : List Constituent :=
  h.result.toList.map .phrase ++ .token h.verb ::
    (headerObjectConstituents h.object ++ headerGroupConstituents h.groups ++ h.suffix.toList.map .token)

def FunctionDefinition.constituents (f : FunctionDefinition) : List Constituent :=
  f.header.constituents ++ blockConstituents f.body

def ConversionDefinition.constituents (c : ConversionDefinition) : List Constituent :=
  .token c.token :: .phrase c.target :: blockConstituents c.body

def DeclensionSource.constituents : DeclensionSource → List Constituent
  | .inline d => d.forms.map .form
  | .external word => [.token word]

def Definition.constituents : Definition → List Constituent
  | .function f => f.constituents
  | .noun c =>
    .token c.token :: .phrase c.name :: (c.fields.flatMap Parameter.constituents ++ blockConstituents c.body)
  | .implementation i =>
    .token i.token :: .phrase i.owner :: (i.methods.flatMap FunctionDefinition.constituents ++
      i.conversions.flatMap ConversionDefinition.constituents)
  | .declension d => .token d.token :: d.source.constituents

/-- What a program keeps: what its definitions and what its statements keep. -/
def Program.constituents (p : Program) : List Constituent :=
  p.definitions.flatMap Definition.constituents ++ blockConstituents p.statements

/-- The property with which an expression begins stands at its front. -/
theorem Expression.constituents_of_leadingProperty? {e : Expression} {p : NounPhrase}
    (leads : e.leadingProperty? = some p) : ∃ later, e.constituents = .phrase p :: later := by
  match e with
  | .binary operator token left right =>
    obtain ⟨later, front⟩ := constituents_of_leadingProperty? (e := left) leads
    exact ⟨_, by rw [Expression.constituents, front, List.cons_append]⟩
  | .conversion token value target =>
    obtain ⟨later, front⟩ := constituents_of_leadingProperty? (e := value) leads
    exact ⟨_, by rw [Expression.constituents, front, List.cons_append]⟩
  | .property phrase owner =>
    cases leads
    exact ⟨_, by rw [Expression.constituents]⟩
  | .literal _ | .noun _ | .list _ _ | .element _ _ | .call _ | .minus _ _ | .instantiation _ _
  | .ownProperty _ | .subjectProperty _ | .self _ | .you _ =>
    simp [Expression.leadingProperty?, Expression.firstOperand] at leads

/-- Constituents, and what carries an id among them. A role may be left out where the phrase that it shares
with its value stands right behind it. -/
inductive Carries : List Constituent → List Occurrence → Prop
  | nil : Carries [] []
  | plain {c : Constituent} {cs : List Constituent} {os : List Occurrence} (nothing : c.occurrence? = none)
      (later : Carries cs os) : Carries (c :: cs) os
  | own {c : Constituent} {o : Occurrence} {cs : List Constituent} {os : List Occurrence}
      (carried : c.occurrence? = some o) (later : Carries cs os) : Carries (c :: cs) (o :: os)
  | shared {a : Argument} {cs : List Constituent} {os : List Occurrence}
      (leads : a.value.bind Expression.leadingProperty? = some a.phrase) (later : Carries cs os) :
      Carries (.role a :: .phrase a.phrase :: cs) (.phrase a.phrase :: os)

namespace Carries

variable {α : Type} {cs cs' : List Constituent} {os os' : List Occurrence}

theorem append (first : Carries cs os) (later : Carries cs' os') : Carries (cs ++ cs') (os ++ os') := by
  induction first with
  | nil => exact later
  | plain nothing _ ih => exact .plain nothing ih
  | own carried _ ih => exact .own carried ih
  | shared leads _ ih => exact .shared leads ih

theorem flatMap {f : α → List Constituent} {g : α → List Occurrence} (each : ∀ x, Carries (f x) (g x))
    (xs : List α) : Carries (xs.flatMap f) (xs.flatMap g) := by
  induction xs with
  | nil => exact .nil
  | cons x later ih => exact (each x).append ih

theorem tokens (ts : List Token) : Carries (ts.map .token) [] := by
  induction ts with
  | nil => exact .nil
  | cons t later ih => exact .plain rfl ih

theorem phrase (p : NounPhrase) (later : Carries cs os) : Carries (.phrase p :: cs) (.phrase p :: os) :=
  .own rfl later

theorem of_phrase {p : NounPhrase} (carries : Carries (.phrase p :: cs) os) :
    ∃ later, os = .phrase p :: later ∧ Carries cs later := by
  cases carries with
  | plain nothing => contradiction
  | own carried later =>
    cases carried
    exact ⟨_, rfl, later⟩

/-- A role stands before its value, and one that the value shares right before the phrase that they share. -/
theorem argument {a : Argument} (value : Carries (valueConstituents a.value) (valueOccurrences a.value)) :
    Carries a.constituents a.occurrences := by
  obtain ⟨phrase, e⟩ := a
  rw [Argument.constituents, Argument.occurrences]
  split
  · rename_i shares
    rw [Argument.sharesPhrase, beq_iff_eq] at shares
    obtain ⟨v, rfl, leads⟩ := Option.bind_eq_some_iff.mp shares
    obtain ⟨later, front⟩ := Expression.constituents_of_leadingProperty? leads
    dsimp only [valueConstituents, valueOccurrences] at value ⊢
    rw [front] at value ⊢
    obtain ⟨behind, same, others⟩ := value.of_phrase
    rw [same]
    exact .shared (a := ⟨phrase, some v⟩) shares others
  · exact .own rfl value

mutual

theorem expression (e : Expression) : Carries e.constituents e.occurrences := by
  cases e with
  | literal token => exact .plain rfl .nil
  | self token => exact .plain rfl .nil
  | you token => exact .plain rfl .nil
  | noun phrase => exact .phrase phrase .nil
  | ownProperty phrase => exact .phrase phrase .nil
  | subjectProperty phrase => exact .phrase phrase .nil
  | list phrase items =>
    rw [Expression.constituents, Expression.occurrences]
    exact .phrase phrase (ofItems items)
  | element phrase index =>
    rw [Expression.constituents, Expression.occurrences]
    exact .phrase phrase (expression index)
  | call c =>
    rw [Expression.constituents, Expression.occurrences]
    exact ofCall c
  | binary operator token left right =>
    rw [Expression.constituents, Expression.occurrences]
    exact (expression left).append (.plain rfl (expression right))
  | minus token operand =>
    rw [Expression.constituents, Expression.occurrences]
    exact .plain rfl (expression operand)
  | conversion token value target =>
    rw [Expression.constituents, Expression.occurrences]
    exact (expression value).append (.plain rfl (.phrase target .nil))
  | instantiation phrase fields =>
    rw [Expression.constituents, Expression.occurrences]
    exact .phrase phrase (ofArguments fields)
  | property phrase owner =>
    rw [Expression.constituents, Expression.occurrences]
    exact .phrase phrase (expression owner)

theorem ofItems (items : List Expression) : Carries (itemConstituents items) (itemOccurrences items) := by
  cases items with
  | nil => exact .nil
  | cons item later =>
    rw [itemConstituents, itemOccurrences]
    exact (expression item).append (ofItems later)

theorem ofValue (value : Option Expression) : Carries (valueConstituents value) (valueOccurrences value) := by
  cases value with
  | none => exact .nil
  | some e => exact expression e

theorem ofArgument (a : Argument) : Carries a.constituents a.occurrences := by
  obtain ⟨phrase, value⟩ := a
  exact .argument (ofValue value)

theorem ofArguments (arguments : List Argument) :
    Carries (argumentConstituents arguments) (argumentOccurrences arguments) := by
  cases arguments with
  | nil => exact .nil
  | cons a later =>
    rw [argumentConstituents, argumentOccurrences]
    exact (ofArgument a).append (ofArguments later)

theorem ofObject (object : ObjectRole Argument) :
    Carries (objectConstituents object) (objectOccurrences object) := by
  cases object with
  | absent => exact .nil
  | thing a => exact ofArgument a
  | reflexive token => exact .plain rfl .nil

theorem ofGroups (groups : List (PrepositionGroup Argument)) :
    Carries (groupConstituents groups) (groupOccurrences groups) := by
  match groups with
  | [] => exact .nil
  | ⟨preposition, items⟩ :: later =>
    rw [groupConstituents, groupOccurrences]
    exact .plain rfl ((ofArguments items).append (ofGroups later))

theorem ofCall (c : Call) : Carries c.constituents c.occurrences := by
  obtain ⟨id, verb, object, groups, suffix⟩ := c
  rw [Call.constituents, Call.occurrences]
  have roles := ((ofObject object).append (ofGroups groups)).append (tokens suffix.toList)
  rw [List.append_nil] at roles
  exact .own rfl (.plain rfl roles)

end

theorem ofSource (source : Option Expression) : Carries (sourceConstituents source) (valueOccurrences source) := by
  cases source with
  | none => exact .nil
  | some e => exact .plain rfl (expression e)

mutual

theorem statement (s : Statement) : Carries s.constituents s.occurrences := by
  cases s with
  | declaration target owner verb value =>
    rw [Statement.constituents, Statement.occurrences]
    exact .phrase target ((ofValue owner).append (.plain rfl (expression value)))
  | conditional token branches otherwise =>
    rw [Statement.constituents, Statement.occurrences]
    exact .plain rfl ((ofBranches branches).append (ofOtherwise otherwise))
  | whileLoop token condition body =>
    rw [Statement.constituents, Statement.occurrences]
    exact .plain rfl ((expression condition).append (ofBlock body))
  | forEach token binder source body =>
    rw [Statement.constituents, Statement.occurrences]
    exact .plain rfl (.phrase binder ((ofSource source).append (ofBlock body)))
  | give token value =>
    rw [Statement.constituents, Statement.occurrences]
    exact .plain rfl (ofValue value)
  | methodBlock subject body =>
    rw [Statement.constituents, Statement.occurrences]
    exact (expression subject).append (ofBlock body)
  | call c =>
    rw [Statement.constituents, Statement.occurrences]
    exact ofCall c
  | loopControl control token => exact .plain rfl .nil
  | builtin token => exact .plain rfl .nil

theorem ofBlock (block : List Statement) : Carries (blockConstituents block) (blockOccurrences block) := by
  cases block with
  | nil => exact .nil
  | cons s later =>
    rw [blockConstituents, blockOccurrences]
    exact (statement s).append (ofBlock later)

theorem ofBranches (branches : List Branch) :
    Carries (branchConstituents branches) (branchOccurrences branches) := by
  match branches with
  | [] => exact .nil
  | ⟨condition, body⟩ :: later =>
    rw [branchConstituents, branchOccurrences]
    exact ((expression condition).append (ofBlock body)).append (ofBranches later)

theorem ofOtherwise (otherwise : Option (List Statement)) :
    Carries (otherwiseConstituents otherwise) (otherwiseOccurrences otherwise) := by
  cases otherwise with
  | none => exact .nil
  | some body => exact ofBlock body

end

theorem ofParameter (p : Parameter) : Carries p.constituents p.occurrences :=
  .phrase p.phrase (tokens p.name.toList)

theorem ofHeader (h : FunctionHeader) : Carries h.constituents h.occurrences := by
  have result : Carries (h.result.toList.map .phrase) (h.result.toList.map .phrase) := by
    cases h.result with
    | none => exact .nil
    | some p => exact .phrase p .nil
  have object : Carries (headerObjectConstituents h.object) (h.object.toList.flatMap Parameter.occurrences) := by
    cases h.object with
    | absent => exact .nil
    | thing p => simpa [headerObjectConstituents, ObjectRole.toList] using ofParameter p
    | reflexive token => exact .plain rfl .nil
  have groups : Carries (headerGroupConstituents h.groups)
      ((h.groups.flatMap PrepositionGroup.items).flatMap Parameter.occurrences) := by
    rw [List.flatMap_assoc]
    exact flatMap (fun g => @plain (.token g.preposition) _ _ rfl (flatMap ofParameter g.items)) h.groups
  have roles := (object.append groups).append (tokens h.suffix.toList)
  rw [List.append_nil, ← List.flatMap_append] at roles
  exact result.append (.plain rfl roles)

theorem ofFunction (f : FunctionDefinition) : Carries f.constituents f.occurrences :=
  (ofHeader f.header).append (ofBlock f.body)

theorem ofConversion (c : ConversionDefinition) : Carries c.constituents c.occurrences :=
  .plain rfl (.phrase c.target (ofBlock c.body))

theorem definition (d : Definition) : Carries d.constituents d.occurrences := by
  cases d with
  | function f => exact ofFunction f
  | noun c => exact .plain rfl (.phrase c.name ((flatMap ofParameter c.fields).append (ofBlock c.body)))
  | implementation i =>
    exact .plain rfl (.phrase i.owner ((flatMap ofFunction i.methods).append (flatMap ofConversion i.conversions)))
  | declension d =>
    obtain ⟨token, source⟩ := d
    refine .plain rfl ?_
    cases source with
    | inline d => exact .plain rfl (.plain rfl (.plain rfl (.plain rfl
        (.plain rfl (.plain rfl (.plain rfl (.plain rfl .nil)))))))
    | external word => exact .plain rfl .nil

/-- What a program keeps carries the ids of what occurs in it. -/
theorem program (p : Program) : Carries p.constituents p.occurrences :=
  (flatMap definition p.definitions).append (ofBlock p.statements)

/-- An id among constituents is carried by something that occurs. -/
theorem mem_ids (carries : Carries cs os) {c : Constituent} {id : NodeId} (member : c ∈ cs) (known : c.id? = some id) :
    id ∈ idsOf os := by
  induction carries with
  | nil => contradiction
  | @plain front _ _ nothing _ ih =>
    rcases List.mem_cons.mp member with rfl | later
    · rw [Constituent.id?, nothing] at known
      contradiction
    · exact ih later
  | @own front o _ _ carried _ ih =>
    rcases List.mem_cons.mp member with rfl | later
    · rw [Constituent.id?, carried] at known
      cases known
      exact List.mem_cons_self ..
    · exact List.mem_cons_of_mem _ (ih later)
  | shared _ _ ih =>
    rcases List.mem_cons.mp member with rfl | behind
    · cases known
      exact List.mem_cons_self ..
    · rcases List.mem_cons.mp behind with rfl | later
      · cases known
        exact List.mem_cons_self ..
      · exact List.mem_cons_of_mem _ (ih later)

end Carries

end Satzbau

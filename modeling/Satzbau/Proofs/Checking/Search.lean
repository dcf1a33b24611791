import Satzbau.Proofs.Checking.Settles
import Satzbau.Proofs.Occurrence

namespace Satzbau.Checker

variable {dictionary : Dictionary}

/-- An expression that begins with a phrase which was just read in the same cases is checked as if the
phrase had not been read. -/
theorem checkExpression_record (e : Expression) {p : NounPhrase} {cases : CaseSet} {reading : Annotation}
    {a : Annotations} (leads : e.leadingProperty? = some p)
    (read : Agreement.annotate dictionary p cases .all = .ok reading) (unknown : a.get? p.id = none) :
    (checkExpression dictionary cases .all true e).run (a.record p.id reading) =
      (checkExpression dictionary cases .all true e).run a := by
  match e with
  | .binary operator token left right =>
    have sameLeft := checkExpression_record left leads read unknown
    simp only [checkExpression, Checking.bind_run, if_true, sameLeft]
  | .conversion token value target =>
    have sameValue := checkExpression_record value leads read unknown
    simp only [checkExpression, Checking.bind_run, sameValue]
  | .property phrase owner =>
    cases leads
    have known := Annotations.get?_record reading unknown
    simp only [checkExpression, Checking.bind_run, resolve_run, known, unknown, read]
  | .literal _ | .noun _ | .list _ _ | .element _ _ | .call _ | .minus _ _ | .instantiation _ _
  | .ownProperty _ | .subjectProperty _ | .self _ | .you _ =>
    simp [Expression.leadingProperty?, Expression.firstOperand] at leads

theorem mem_phraseIds_of_leads {e : Expression} {p : NounPhrase} (leads : e.leadingProperty? = some p) :
    p.id ∈ phraseIds e.occurrences :=
  mem_phraseIds.mpr ⟨p, Expression.leadingProperty?_mem leads, rfl⟩

/-- A role that shares its phrase with its value: the value reads the phrase as the role did. -/
theorem Settles.shared {p : NounPhrase} {value : Expression} {c : Case} (leads : value.leadingProperty? = some p)
    (settles : ∀ cases, Settles dictionary (phraseIds value.occurrences) (checkExpression dictionary cases .all true value)
      fun J _ => value.Agrees J cases .all true) :
    Settles dictionary (phraseIds value.occurrences) (checkArgument dictionary c ⟨p, some value⟩)
      fun J _ => Argument.Agrees J c ⟨p, some value⟩ := by
  have run (a : Annotations) : (checkArgument dictionary c ⟨p, some value⟩).run a =
      match (Checker.resolve dictionary p (.single c) .all).run a with
      | (.ok reading, b) => (checkExpression dictionary reading.cases .all true value).run b
      | (.error fault, b) => (.error fault, b) := by
    rw [checkArgument, Checking.bind_run]
    rcases (Checker.resolve dictionary p (.single c) .all).run a with ⟨fault | reading, b⟩
    · rfl
    · rfl
  have shared := mem_phraseIds_of_leads leads
  refine ⟨?mono, ?grows, ?sound, ?complete⟩
  case mono =>
    rintro J K _ below ⟨reading, known, agreed⟩
    exact ⟨reading, below.reads _ _ _ _ known, (settles _).mono J K () below agreed⟩
  case grows =>
    intro a
    have grewFirst := ((@Settles.resolve dictionary p (.single c) .all).grows a).mono
      fun id inside => (List.mem_singleton.mp inside ▸ shared : id ∈ phraseIds value.occurrences)
    rw [run]
    rcases first : (Checker.resolve dictionary p (.single c) .all).run a with ⟨fault | reading, b⟩
    · rw [first] at grewFirst
      exact grewFirst
    · rw [first] at grewFirst
      exact grewFirst.trans ((settles reading.cases).grows b)
  case sound =>
    intro nodup a unseen r
    have unknown := unseen p.id shared
    rw [run, resolve_run, unknown]
    cases read : Agreement.annotate dictionary p (.single c) .all with
    | error fault => intro; contradiction
    | ok reading =>
      dsimp only
      have single := Agreement.annotate_single read
      have grew := (settles (.single c)).grows (a.record p.id reading)
      have sound := (settles (.single c)).sound nodup a unseen r
      rw [single]
      rw [← checkExpression_record value leads read unknown] at sound
      intro passed
      refine ⟨reading, ⟨read, grew.get?_of_some (Annotations.get?_record reading unknown)⟩, ?_⟩
      rw [single]
      exact sound passed
  case complete =>
    rintro nodup a unseen r ⟨reading, known, agreed⟩
    have unknown := unseen p.id shared
    have read := Judgement.free_reads.mp known
    have single := Agreement.annotate_single read
    have complete := (settles (.single c)).complete nodup a unseen r
    rw [← checkExpression_record value leads read unknown] at complete
    rw [single] at agreed
    rw [run, resolve_run, unknown, read]
    dsimp only
    rw [single]
    exact complete agreed

theorem done {agrees : Judgement → Prop} (always : ∀ J, agrees J) :
    Settles dictionary [] (pure () : Checking Unit) fun J _ => agrees J :=
  (Settles.pure ()).congr fun J r => by simp [always]

mutual

theorem checkExpression_settles (e : Expression) (cases : CaseSet) (numbers : NumberSet) (leading : Bool) :
    Settles dictionary (phraseIds e.occurrences) (checkExpression dictionary cases numbers leading e)
      fun J _ => e.Agrees J cases numbers leading :=
  match e with
  | .literal _ | .self _ | .you _ => done fun _ => trivial
  | .noun phrase | .ownProperty phrase | .subjectProperty phrase => .read phrase cases numbers
  | .list phrase items => .readThen phrase cases (.single .plural) (checkItems_settles items)
  | .element phrase index =>
    .readThen phrase cases (.single .plural) (checkExpression_settles index (.single .nominative) .all true)
  | .call c => checkCall_settles c
  | .binary operator token left right => by
    rw [Expression.occurrences, phraseIds_append, checkExpression]
    exact (checkExpression_settles left _ .all leading).seq (checkExpression_settles right _ .all false)
  | .minus _ operand => checkExpression_settles operand cases .all true
  | .conversion token value target => by
    rw [Expression.occurrences, phraseIds_append, checkExpression]
    exact (checkExpression_settles value cases numbers true).seq (.resolveIn target .nominative (.single .singular))
  | .instantiation phrase fields =>
    .readThen phrase cases (.single .singular) (checkArguments_settles .dative fields)
  | .property phrase owner =>
    .readThen phrase cases numbers (checkExpression_settles owner (.single .genitive) .all true)

theorem checkItems_settles (items : List Expression) :
    Settles dictionary (phraseIds (itemOccurrences items)) (checkItems dictionary items) fun J _ => itemsAgree J items :=
  match items with
  | [] => done fun _ => trivial
  | item :: later => by
    rw [itemOccurrences, phraseIds_append, checkItems]
    exact (checkExpression_settles item (.single .nominative) .all true).seq (checkItems_settles later)

theorem checkArgument_settles (c : Case) (argument : Argument) :
    Settles dictionary (phraseIds argument.occurrences) (checkArgument dictionary c argument)
      fun J _ => argument.Agrees J c :=
  match argument with
  | ⟨phrase, none⟩ => (Settles.resolve phrase (.single c) .all).bind fun _ => done fun _ => trivial
  | ⟨phrase, some value⟩ => by
    by_cases shares : Argument.sharesPhrase phrase (some value) = true
    · rw [Argument.occurrences, if_pos shares, valueOccurrences]
      exact .shared (beq_iff_eq.mp shares) fun cases => checkExpression_settles value cases .all true
    · rw [Argument.occurrences, if_neg shares, valueOccurrences]
      exact (Settles.resolve phrase (.single c) .all).bind fun reading =>
        checkExpression_settles value reading.cases .all true

theorem checkArguments_settles (c : Case) (arguments : List Argument) :
    Settles dictionary (phraseIds (argumentOccurrences arguments)) (checkArguments dictionary c arguments)
      fun J _ => argumentsAgree J c arguments :=
  match arguments with
  | [] => done fun _ => trivial
  | argument :: later => by
    rw [argumentOccurrences, phraseIds_append, checkArguments]
    exact (checkArgument_settles c argument).seq (checkArguments_settles c later)

theorem checkValue_settles (cases : CaseSet) (value : Option Expression) :
    Settles dictionary (phraseIds (valueOccurrences value)) (checkValue dictionary cases value)
      fun J _ => valueAgrees J cases value :=
  match value with
  | none => done fun _ => trivial
  | some value => checkExpression_settles value cases .all true

theorem checkObject_settles (object : ObjectRole Argument) :
    Settles dictionary (phraseIds (objectOccurrences object)) (checkObject dictionary object)
      fun J _ => objectAgrees J object :=
  match object with
  | .thing argument => checkArgument_settles .accusative argument
  | .absent | .reflexive _ => done fun _ => trivial

theorem checkGroups_settles (groups : List (PrepositionGroup Argument)) :
    Settles dictionary (phraseIds (groupOccurrences groups)) (checkGroups dictionary groups)
      fun J _ => groupsAgree J groups :=
  match groups with
  | [] => done fun _ => trivial
  | ⟨preposition, items⟩ :: later => by
    rw [groupOccurrences, phraseIds_append, checkGroups]
    have group : Settles dictionary (phraseIds (argumentOccurrences items))
        (checkGroup preposition fun c => checkArguments dictionary c items)
        fun J _ => groupAgrees preposition (J.ofCall ⟨preposition, items⟩) fun c => argumentsAgree J c items :=
      .checkGroup (g := ⟨preposition, items⟩) (fun c => checkArguments_settles c items)
        (fun J K c below => below.ofCall _ c) fun a c settled => settled
    exact group.seq (checkGroups_settles later)

theorem checkCall_settles (c : Call) :
    Settles dictionary (phraseIds c.occurrences) (checkCall dictionary c) fun J _ => c.Agrees J :=
  match c with
  | ⟨id, verb, object, groups, suffix⟩ => by
    rw [Call.occurrences, phraseIds_call, phraseIds_append, checkCall]
    exact (checkObject_settles object).seq (checkGroups_settles groups)

end

mutual

theorem checkStatement_settles (s : Statement) :
    Settles dictionary (phraseIds s.occurrences) (checkStatement dictionary s) fun J _ => s.Agrees J :=
  match s with
  | .declaration target owner verb value => by
    rw [Statement.occurrences, phraseIds_phrase, phraseIds_append, checkStatement]
    refine ((Settles.resolve target (.single .nominative) .all).bind fun reading =>
      (Settles.checkAssignment verb reading.number).seq
        ((checkValue_settles (.single .genitive) owner).seq
          (checkExpression_settles value (.single .nominative) .all true))).congr fun J _ => ?_
    constructor
    · rintro ⟨⟨reading, known, same⟩, later⟩
      exact ⟨reading, known, same, later⟩
    · rintro ⟨reading, known, same, later⟩
      exact ⟨⟨reading, known, same⟩, later⟩
  | .conditional _ branches otherwise => by
    rw [Statement.occurrences, phraseIds_append, checkStatement]
    exact (checkBranches_settles branches).seq (checkOtherwise_settles otherwise)
  | .whileLoop _ condition body => by
    rw [Statement.occurrences, phraseIds_append, checkStatement]
    exact (checkExpression_settles condition (.single .nominative) .all true).seq (checkBlock_settles body)
  | .forEach _ binder source body => by
    rw [Statement.occurrences, phraseIds_phrase, phraseIds_append, checkStatement]
    exact (Settles.resolveIn binder .accusative (.single .singular)).seq
      ((checkValue_settles (.single .dative) source).seq (checkBlock_settles body))
  | .give _ value => checkValue_settles (.single .accusative) value
  | .methodBlock subject body => by
    rw [Statement.occurrences, phraseIds_append, checkStatement]
    exact (checkExpression_settles subject (.single .nominative) .all true).seq (checkBlock_settles body)
  | .call c => checkCall_settles c
  | .loopControl .. | .builtin _ => done fun _ => trivial

theorem checkBlock_settles (block : List Statement) :
    Settles dictionary (phraseIds (blockOccurrences block)) (checkBlock dictionary block) fun J _ => blockAgrees J block :=
  match block with
  | [] => done fun _ => trivial
  | s :: later => by
    rw [blockOccurrences, phraseIds_append, checkBlock]
    exact (checkStatement_settles s).seq (checkBlock_settles later)

theorem checkBranches_settles (branches : List Branch) :
    Settles dictionary (phraseIds (branchOccurrences branches)) (checkBranches dictionary branches)
      fun J _ => branchesAgree J branches :=
  match branches with
  | [] => done fun _ => trivial
  | ⟨condition, body⟩ :: later => by
    rw [branchOccurrences, List.append_assoc, phraseIds_append, phraseIds_append, checkBranches]
    exact (checkExpression_settles condition (.single .nominative) .all true).seq
      ((checkBlock_settles body).seq (checkBranches_settles later))

theorem checkOtherwise_settles (otherwise : Option (List Statement)) :
    Settles dictionary (phraseIds (otherwiseOccurrences otherwise)) (checkOtherwise dictionary otherwise)
      fun J _ => otherwiseAgrees J otherwise :=
  match otherwise with
  | none => done fun _ => trivial
  | some body => checkBlock_settles body

end

theorem checkParameters_settles (c : Case) (parameters : List Parameter) :
    Settles dictionary (phraseIds (parameters.flatMap Parameter.occurrences)) (checkParameters dictionary c parameters)
      fun J _ => ∀ p ∈ parameters, p.Agrees J c := by
  rw [phraseIds_flatMap]
  exact .forM parameters fun p _ => .resolveIn p.phrase c .all

theorem checkHeader_settles (h : FunctionHeader) :
    Settles dictionary (phraseIds h.occurrences) (checkHeader dictionary h) fun J _ => h.Agrees J := by
  have result : Settles dictionary (phraseIds (h.result.toList.map .phrase))
      (h.result.forM fun result => resolveIn dictionary result .nominative (.single .singular) : Checking Unit)
      fun J _ => ∀ p ∈ h.result, ∃ reading, J.reads p (.single .nominative) (.single .singular) reading := by
    cases h.result with
    | none => exact done fun _ => by simp
    | some p => exact (Settles.resolveIn p .nominative (.single .singular)).congr fun J _ => by simp
  have object : Settles dictionary (phraseIds (h.object.toList.flatMap Parameter.occurrences))
      (checkParameters dictionary .accusative h.object.toList) fun J _ => ∀ p ∈ h.object.toList, p.Agrees J .accusative :=
    checkParameters_settles .accusative h.object.toList
  have group (g : PrepositionGroup Parameter) : Settles dictionary (phraseIds (g.items.flatMap Parameter.occurrences))
      (checkGroup g.preposition fun c => checkParameters dictionary c g.items)
      fun J _ => groupAgrees g.preposition (J.ofHeader g) fun c => ∀ p ∈ g.items, p.Agrees J c :=
    .checkGroup (fun c => checkParameters_settles c g.items) (fun J K c below => below.ofHeader _ c)
      fun a c settled => settled
  have ids : phraseIds h.occurrences = phraseIds (h.result.toList.map .phrase) ++
      (phraseIds (h.object.toList.flatMap Parameter.occurrences) ++
        h.groups.flatMap fun g => phraseIds (g.items.flatMap Parameter.occurrences)) := by
    simp [FunctionHeader.occurrences, FunctionHeader.parameters, List.flatMap_assoc]
  rw [ids]
  refine (result.seq (object.seq (.forM h.groups fun g _ => group g))).congr fun J _ => ?_
  exact ⟨fun agrees => ⟨agrees.result, agrees.object, agrees.groups⟩, fun parts => ⟨parts.1, parts.2.1, parts.2.2⟩⟩

theorem checkFunction_settles (f : FunctionDefinition) :
    Settles dictionary (phraseIds f.occurrences) (checkFunction dictionary f) fun J _ => f.Agrees J := by
  rw [FunctionDefinition.occurrences, phraseIds_append]
  exact (checkHeader_settles f.header).seq (checkBlock_settles f.body)

theorem checkDefinition_settles (d : Definition) :
    Settles dictionary (phraseIds d.occurrences) (checkDefinition dictionary d) fun J _ => d.Agrees J := by
  cases d with
  | function f => exact checkFunction_settles f
  | declension d => exact done fun _ => trivial
  | noun c =>
    rw [Definition.occurrences, phraseIds_phrase, phraseIds_append, phraseIds_flatMap]
    exact (Settles.resolveIn c.name .nominative (.single .singular)).seq
      ((Settles.forM c.fields fun p _ => .resolveIn p.phrase .dative .all).seq (checkBlock_settles c.body))
  | implementation i =>
    rw [Definition.occurrences, phraseIds_phrase, phraseIds_append, phraseIds_flatMap, phraseIds_flatMap]
    refine (Settles.resolveIn i.owner .accusative (.single .singular)).seq
      ((Settles.forM i.methods fun f _ => checkFunction_settles f).seq
        (Settles.forM i.conversions fun c _ => ?_))
    exact (Settles.resolveIn c.target .nominative (.single .singular)).seq (checkBlock_settles c.body)

end Satzbau.Checker

namespace Satzbau.Program

variable {dictionary : Dictionary} {p : Program}

theorem check_settles_phrases (dictionary : Dictionary) (p : Program) :
    Checker.Settles dictionary (phraseIds p.occurrences) (p.check dictionary) fun J _ => p.Agrees J := by
  rw [occurrences, phraseIds_append, phraseIds_flatMap]
  exact (Checker.Settles.forM p.definitions fun d _ => Checker.checkDefinition_settles d).seq
    (Checker.checkBlock_settles p.statements)

theorem check_settles (dictionary : Dictionary) (p : Program) :
    Checker.Settles dictionary (idsOf p.occurrences) (p.check dictionary) fun J _ => p.Agrees J :=
  (check_settles_phrases dictionary p).widen (phraseIds_sublist _)

theorem annotations_eq_ok {a : Annotations} : p.annotations dictionary = .ok a ↔
    (p.check dictionary).run .empty = (.ok (), a) := by
  unfold annotations
  rcases (p.check dictionary).run .empty with ⟨fault | r, b⟩
  · exact ⟨nofun, nofun⟩
  · constructor
    · rintro ⟨⟩
      rfl
    · rintro ⟨⟩
      rfl

/-- What is noted of a program that was checked agrees. -/
theorem agrees_noted {a : Annotations} (distinct : (idsOf p.occurrences).Nodup)
    (checked : p.annotations dictionary = .ok a) : p.Agrees (.noted dictionary a) := by
  have run := annotations_eq_ok.mp checked
  have agrees := (check_settles dictionary p).sound distinct .empty (fun _ _ => rfl) ()
  rw [run] at agrees
  exact agrees rfl

end Satzbau.Program

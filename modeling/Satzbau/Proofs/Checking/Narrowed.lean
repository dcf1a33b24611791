import Satzbau.Proofs.Checking.Occurring

namespace Satzbau

/-- What is known of the phrases among occurrences. -/
def PhrasesHave (has : NounPhrase → Prop) (occurrences : List Occurrence) : Prop :=
  ∀ p, .phrase p ∈ occurrences → has p

namespace PhrasesHave

variable {has : NounPhrase → Prop} {p : NounPhrase} {o : Occurrence} {first later : List Occurrence}

theorem head (known : PhrasesHave has (.phrase p :: later)) : has p :=
  known p (List.mem_cons_self ..)

theorem tail (known : PhrasesHave has (o :: later)) : PhrasesHave has later :=
  fun p member => known p (List.mem_cons_of_mem _ member)

theorem left (known : PhrasesHave has (first ++ later)) : PhrasesHave has first :=
  fun p member => known p (List.mem_append_left _ member)

theorem right (known : PhrasesHave has (first ++ later)) : PhrasesHave has later :=
  fun p member => known p (List.mem_append_right _ member)

theorem of_flatMap {α : Type} {occurrences : α → List Occurrence} {xs : List α} {x : α}
    (known : PhrasesHave has (xs.flatMap occurrences)) (member : x ∈ xs) : PhrasesHave has (occurrences x) :=
  fun p inside => known p (List.mem_flatMap.mpr ⟨x, member, inside⟩)

/-- The phrase of a role occurs whether or not its value begins with it. -/
theorem role {value : Option Expression} (known : PhrasesHave has (Argument.mk p value).occurrences) : has p := by
  rw [Argument.occurrences] at known
  split at known
  · rename_i shares
    cases value with
    | none => contradiction
    | some e => exact known p (Expression.leadingProperty?_mem (beq_iff_eq.mp shares))
  · exact known.head

theorem value {value : Option Expression} (known : PhrasesHave has (Argument.mk p value).occurrences) :
    PhrasesHave has (valueOccurrences value) := by
  rw [Argument.occurrences] at known
  split at known
  · exact known
  · exact known.tail

end PhrasesHave

/-- A judgement that accepts only what another one accepts of phrases with some property, at places
that accept one case. -/
def Judgement.narrowed (J : Judgement) (has : NounPhrase → Prop) : Judgement where
  reads p cases numbers reading := J.reads p cases numbers reading ∧ has p ∧ ∃ c, cases = .single c
  ofCall := J.ofCall
  ofHeader := J.ofHeader

/-- A phrase at a place that accepts one case is read in that case. -/
def Judgement.IsSharp (J : Judgement) : Prop :=
  ∀ p c numbers reading, J.reads p (.single c) numbers reading → reading.cases = .single c

variable {J : Judgement} {has : NounPhrase → Prop}

theorem Judgement.narrow {p : NounPhrase} {c : Case} {numbers : NumberSet} (known : has p)
    (reads : ∃ reading, J.reads p (.single c) numbers reading) :
    ∃ reading, (J.narrowed has).reads p (.single c) numbers reading := by
  obtain ⟨reading, read⟩ := reads
  exact ⟨reading, read, known, c, rfl⟩

-- Every place accepts one case: what is handed down is a single case, and so is what a role was read in.
mutual

theorem Expression.Agrees.narrowed (sharp : J.IsSharp) {c : Case} {numbers : NumberSet} {leading : Bool}
    (e : Expression) (known : PhrasesHave has e.occurrences) (agrees : e.Agrees J (.single c) numbers leading) :
    e.Agrees (J.narrowed has) (.single c) numbers leading :=
  match e with
  | .literal _ | .self _ | .you _ => trivial
  | .noun _ | .ownProperty _ | .subjectProperty _ => J.narrow known.head agrees
  | .list _ items => ⟨J.narrow known.head agrees.1, itemsAgree.narrowed sharp items known.tail agrees.2⟩
  | .element _ index => ⟨J.narrow known.head agrees.1, Expression.Agrees.narrowed sharp index known.tail agrees.2⟩
  | .call call => Call.Agrees.narrowed sharp call known agrees
  | .binary _ _ left right => by
    refine ⟨?_, Expression.Agrees.narrowed sharp right known.right agrees.2⟩
    have atLeft := agrees.1
    cases leading with
    | true => exact Expression.Agrees.narrowed sharp left known.left atLeft
    | false => exact Expression.Agrees.narrowed sharp left known.left atLeft
  | .minus _ operand => Expression.Agrees.narrowed sharp operand known agrees
  | .conversion _ value _ =>
    ⟨Expression.Agrees.narrowed sharp value known.left agrees.1, J.narrow known.right.head agrees.2⟩
  | .instantiation _ fields => ⟨J.narrow known.head agrees.1, argumentsAgree.narrowed sharp fields known.tail agrees.2⟩
  | .property _ owner => ⟨J.narrow known.head agrees.1, Expression.Agrees.narrowed sharp owner known.tail agrees.2⟩

theorem itemsAgree.narrowed (sharp : J.IsSharp) (items : List Expression)
    (known : PhrasesHave has (itemOccurrences items)) (agree : itemsAgree J items) : itemsAgree (J.narrowed has) items :=
  match items with
  | [] => trivial
  | item :: later =>
    ⟨Expression.Agrees.narrowed sharp item known.left agree.1, itemsAgree.narrowed sharp later known.right agree.2⟩

theorem Argument.Agrees.narrowed (sharp : J.IsSharp) {c : Case} (argument : Argument)
    (known : PhrasesHave has argument.occurrences) (agrees : argument.Agrees J c) :
    argument.Agrees (J.narrowed has) c :=
  match argument with
  | ⟨_, value⟩ => by
    obtain ⟨reading, read, atValue⟩ := agrees
    have same := sharp _ _ _ _ read
    refine ⟨reading, ⟨read, known.role, c, rfl⟩, ?_⟩
    rw [same] at atValue ⊢
    exact valueAgrees.narrowed sharp value known.value atValue

theorem argumentsAgree.narrowed (sharp : J.IsSharp) {c : Case} (arguments : List Argument)
    (known : PhrasesHave has (argumentOccurrences arguments)) (agree : argumentsAgree J c arguments) :
    argumentsAgree (J.narrowed has) c arguments :=
  match arguments with
  | [] => trivial
  | argument :: later =>
    ⟨Argument.Agrees.narrowed sharp argument known.left agree.1, argumentsAgree.narrowed sharp later known.right agree.2⟩

theorem valueAgrees.narrowed (sharp : J.IsSharp) {c : Case} (value : Option Expression)
    (known : PhrasesHave has (valueOccurrences value)) (agrees : valueAgrees J (.single c) value) :
    valueAgrees (J.narrowed has) (.single c) value :=
  match value with
  | none => trivial
  | some value => Expression.Agrees.narrowed sharp value known agrees

theorem objectAgrees.narrowed (sharp : J.IsSharp) (object : ObjectRole Argument)
    (known : PhrasesHave has (objectOccurrences object)) (agrees : objectAgrees J object) :
    objectAgrees (J.narrowed has) object :=
  match object with
  | .thing argument => Argument.Agrees.narrowed sharp argument known agrees
  | .absent | .reflexive _ => trivial

theorem groupsAgree.narrowed (sharp : J.IsSharp) (groups : List (PrepositionGroup Argument))
    (known : PhrasesHave has (groupOccurrences groups)) (agree : groupsAgree J groups) :
    groupsAgree (J.narrowed has) groups :=
  match groups with
  | [] => trivial
  | ⟨_, items⟩ :: later =>
    ⟨agree.1.mono (fun _ picked => picked) fun _ => argumentsAgree.narrowed sharp items known.left,
      groupsAgree.narrowed sharp later known.right agree.2⟩

theorem Call.Agrees.narrowed (sharp : J.IsSharp) (call : Call) (known : PhrasesHave has call.occurrences)
    (agrees : call.Agrees J) : call.Agrees (J.narrowed has) :=
  match call with
  | ⟨_, _, object, groups, _⟩ =>
    ⟨objectAgrees.narrowed sharp object known.tail.left agrees.1,
      groupsAgree.narrowed sharp groups known.tail.right agrees.2⟩

end

mutual

theorem Statement.Agrees.narrowed (sharp : J.IsSharp) (s : Statement) (known : PhrasesHave has s.occurrences)
    (agrees : s.Agrees J) : s.Agrees (J.narrowed has) :=
  match s with
  | .declaration _ owner _ value => by
    obtain ⟨⟨reading, read, same⟩, atOwner, atValue⟩ := agrees
    exact ⟨⟨reading, ⟨read, known.head, _, rfl⟩, same⟩, valueAgrees.narrowed sharp owner known.tail.left atOwner,
      Expression.Agrees.narrowed sharp value known.tail.right atValue⟩
  | .conditional _ branches otherwise =>
    ⟨branchesAgree.narrowed sharp branches known.left agrees.1, otherwiseAgrees.narrowed sharp otherwise known.right agrees.2⟩
  | .whileLoop _ condition body =>
    ⟨Expression.Agrees.narrowed sharp condition known.left agrees.1, blockAgrees.narrowed sharp body known.right agrees.2⟩
  | .forEach _ _ source body =>
    ⟨J.narrow known.head agrees.1, valueAgrees.narrowed sharp source known.tail.left agrees.2.1,
      blockAgrees.narrowed sharp body known.tail.right agrees.2.2⟩
  | .give _ value => valueAgrees.narrowed sharp value known agrees
  | .methodBlock subject body =>
    ⟨Expression.Agrees.narrowed sharp subject known.left agrees.1, blockAgrees.narrowed sharp body known.right agrees.2⟩
  | .call call => Call.Agrees.narrowed sharp call known agrees
  | .loopControl .. | .builtin _ => trivial

theorem blockAgrees.narrowed (sharp : J.IsSharp) (block : List Statement)
    (known : PhrasesHave has (blockOccurrences block)) (agrees : blockAgrees J block) :
    blockAgrees (J.narrowed has) block :=
  match block with
  | [] => trivial
  | s :: later =>
    ⟨Statement.Agrees.narrowed sharp s known.left agrees.1, blockAgrees.narrowed sharp later known.right agrees.2⟩

theorem branchesAgree.narrowed (sharp : J.IsSharp) (branches : List Branch)
    (known : PhrasesHave has (branchOccurrences branches)) (agree : branchesAgree J branches) :
    branchesAgree (J.narrowed has) branches :=
  match branches with
  | [] => trivial
  | ⟨condition, body⟩ :: later =>
    ⟨Expression.Agrees.narrowed sharp condition known.left.left agree.1,
      blockAgrees.narrowed sharp body known.left.right agree.2.1, branchesAgree.narrowed sharp later known.right agree.2.2⟩

theorem otherwiseAgrees.narrowed (sharp : J.IsSharp) (otherwise : Option (List Statement))
    (known : PhrasesHave has (otherwiseOccurrences otherwise)) (agrees : otherwiseAgrees J otherwise) :
    otherwiseAgrees (J.narrowed has) otherwise :=
  match otherwise with
  | none => trivial
  | some body => blockAgrees.narrowed sharp body known agrees

end

theorem FunctionHeader.Agrees.narrowed {h : FunctionHeader} (known : PhrasesHave has h.occurrences) (agrees : h.Agrees J) :
    h.Agrees (J.narrowed has) where
  result p member := J.narrow (known p (List.mem_append_left _ (List.mem_map_of_mem (Option.mem_toList.mpr member))))
    (agrees.result p member)
  object p member := J.narrow (known.right.of_flatMap (List.mem_append_left _ member)).head (agrees.object p member)
  groups g member := (agrees.groups g member).mono (fun _ picked => picked) fun _ each p inside =>
    J.narrow (known.right.of_flatMap (List.mem_append_right _ (List.mem_flatMap.mpr ⟨g, member, inside⟩))).head (each p inside)

theorem FunctionDefinition.Agrees.narrowed (sharp : J.IsSharp) {f : FunctionDefinition}
    (known : PhrasesHave has f.occurrences) (agrees : f.Agrees J) : f.Agrees (J.narrowed has) :=
  ⟨FunctionHeader.Agrees.narrowed known.left agrees.1, blockAgrees.narrowed sharp f.body known.right agrees.2⟩

theorem Definition.Agrees.narrowed (sharp : J.IsSharp) {d : Definition} (known : PhrasesHave has d.occurrences)
    (agrees : d.Agrees J) : d.Agrees (J.narrowed has) := by
  cases d with
  | function f => exact FunctionDefinition.Agrees.narrowed sharp known agrees
  | declension d => exact trivial
  | noun c =>
    refine ⟨J.narrow known.head agrees.1, fun p member => ?_, blockAgrees.narrowed sharp c.body known.tail.right agrees.2.2⟩
    exact J.narrow (known.tail.left.of_flatMap member).head (agrees.2.1 p member)
  | implementation i =>
    refine ⟨J.narrow known.head agrees.1, fun f member => ?_, fun c member => ?_⟩
    · exact FunctionDefinition.Agrees.narrowed sharp (known.tail.left.of_flatMap member) (agrees.2.1 f member)
    · have inConversion := known.tail.right.of_flatMap member
      have atConversion := agrees.2.2 c member
      exact ⟨J.narrow inConversion.head atConversion.1, blockAgrees.narrowed sharp c.body inConversion.tail atConversion.2⟩

/-- Every place of a program accepts one case: what agrees at all agrees in that case. -/
theorem Program.Agrees.narrowed (sharp : J.IsSharp) {p : Program} (known : PhrasesHave has p.occurrences)
    (agrees : p.Agrees J) : p.Agrees (J.narrowed has) :=
  ⟨fun d member => Definition.Agrees.narrowed sharp (known.left.of_flatMap member) (agrees.1 d member),
    blockAgrees.narrowed sharp p.statements known.right agrees.2⟩

end Satzbau

import Satzbau.Parser.Statement
import Satzbau.Proofs.Parsing.NumberedExpressions

namespace Satzbau.Parser

variable {fact front : Token → Prop}

theorem Looks.atOtherwise : Looks atOtherwise fun _ _ => True := by
  refine .bind .peek fun token => ?_
  split
  · exact .return fun _ _ => trivial
  · split
    · exact .bind .peekSecond fun _ => .return fun _ _ _ => trivial
    · exact .return fun _ _ => trivial

theorem Looks.requireBody (token : Token) : Looks (requireBody token) fun _ _ => True :=
  Looks.require token _ _

theorem Looks.requireLoop (token : Token) : Looks (requireLoop token) fun _ _ => True :=
  Looks.require token _ _

theorem Delivers.endStatement (close : TokenKind) :
    Delivers fact front [] (endStatement close) (fun _ => []) fun _ => True := by
  unfold Parser.endStatement
  refine .look .peek fun token => ?_
  split
  · exact .bind .advance fun _ _ => .pure (.refl _) trivial
  · split
    · exact .throw _
    · exact .pure (.refl _) trivial

namespace Inner.Delivers

variable {inner : Inner}

theorem ofBlock (h : inner.Delivers fact) :
    Parser.Delivers fact front [] (Parser.block inner) (fun block => idsOf (blockOccurrences block))
      fun block => AllWritten fact (blockOccurrences block) :=
  .bind (.expect _ _) fun _ _ => h.statements _ _

theorem ofFinishStatement (h : inner.Delivers fact) (value : Expression) (known : AllWritten fact value.occurrences) :
    Parser.Delivers fact front (idsOf value.occurrences) (Parser.finishStatement inner value)
      (fun s => idsOf s.occurrences) fun s => AllWritten fact s.occurrences := by
  unfold Parser.finishStatement
  refine .look (.at? _) fun colon => ?_
  split
  · refine .within _ (.bind (.expect _ _) fun _ _ => .bind (h.statements _ _) fun body atBody => ?_)
    exact .pure (by simp [Statement.occurrences]) (by simp [Statement.occurrences, known, atBody])
  · split
    · exact .pure (by simp [Statement.occurrences, Expression.occurrences])
        (by simpa [Statement.occurrences, Expression.occurrences] using known)
    · exact .throw _

theorem ofAssignment (h : inner.Delivers fact) {target : NounPhrase} {owner : Option Expression}
    (atTarget : target.Written fact) (atOwner : AllWritten fact (valueOccurrences owner)) :
    Parser.Delivers fact front (target.id :: idsOf (valueOccurrences owner))
      (Parser.assignment inner target owner) (fun s => idsOf s.occurrences) fun s => AllWritten fact s.occurrences := by
  unfold Parser.assignment
  refine .within _ (.bind .advance fun verb _ => .bind (h.ofBinary 0) fun value atValue => ?_)
  refine .pure (by simp [Statement.occurrences]) ?_
  simp [Statement.occurrences, Occurrence.Written, atTarget, atOwner, atValue.1]

theorem ofNounStatement (h : inner.Delivers fact) (kind : Determiner) :
    Parser.Delivers fact (fun token => front token ∧ token.determiner? = some kind) []
      (Parser.nounStatement inner kind) (fun s => idsOf s.occurrences) fun s => AllWritten fact s.occurrences := by
  unfold Parser.nounStatement
  refine .bind .advance fun determiner isDeterminer => ?_
  split
  · exact .fail _
  · refine .bind .expectNoun fun noun isNoun => .look .atAssignment fun assigned => ?_
    split
    · refine .look (.requireOwner determiner kind) fun _ => ?_
      refine .bind (.nounPhrase isNoun (by simp [isDeterminer])) fun target atTarget => ?_
      exact .regroup (by simp [valueOccurrences]) (h.ofAssignment atTarget.2 (by simp [valueOccurrences]))
    · refine .bind (h.ofNounExpression determiner kind noun ⟨isDeterminer.1.2, isDeterminer.2⟩ isNoun)
        fun value atValue => ?_
      split
      · rename_i target owner
        obtain ⟨atTarget, atOwner⟩ : Occurrence.Written fact (.phrase target) ∧ AllWritten fact owner.occurrences := by
          simpa [Expression.occurrences] using atValue.1
        refine .look .atAssignment fun assigned => ?_
        split
        · refine .regroup ?_ (h.ofAssignment atTarget (show AllWritten fact (valueOccurrences (some owner)) from atOwner))
          simp [Expression.occurrences, valueOccurrences]
        · exact h.ofFinishStatement _ atValue.1
      · exact h.ofFinishStatement _ atValue.1

theorem ofBranch (h : inner.Delivers fact) :
    Parser.Delivers fact front [] (Parser.branch inner) (fun b => idsOf (branchOccurrences [b]))
      fun b => AllWritten fact (branchOccurrences [b]) := by
  unfold Parser.branch
  refine .bind (h.ofBinary 0) fun condition atCondition => .bind h.ofBlock fun body atBody => ?_
  exact .pure (by simp [branchOccurrences]) (by simp [branchOccurrences, atCondition.1, atBody])

theorem ofAlternatives (h : inner.Delivers fact) :
    Parser.Delivers fact front [] (Parser.alternatives inner)
      (fun found => idsOf (branchOccurrences found.1 ++ otherwiseOccurrences found.2))
      fun found => AllWritten fact (branchOccurrences found.1 ++ otherwiseOccurrences found.2) := by
  unfold Parser.alternatives
  refine .look .atOtherwise fun found => ?_
  split
  · refine .bind .skipLineEnds fun _ _ => .bind (.expect _ _) fun _ _ => .bind (.eat _) fun further _ => ?_
    split
    · refine .bind h.ofBranch fun next atNext => .bind h.alternatives fun rest atRest => .pure ?_ ?_
      · simp [branchOccurrences_cons next rest.1]
      · rw [allWritten_append] at atRest
        simp [branchOccurrences_cons next rest.1, atNext, atRest]
    · refine .bind h.ofBlock fun body atBody => .pure ?_ ?_
      · simp [branchOccurrences, otherwiseOccurrences]
      · simp [branchOccurrences, otherwiseOccurrences, atBody]
  · exact .pure (by simp [branchOccurrences, otherwiseOccurrences]) (by simp [branchOccurrences, otherwiseOccurrences])

theorem ofConditional (h : inner.Delivers fact) :
    Parser.Delivers fact front [] (Parser.conditional inner) (fun s => idsOf s.occurrences)
      fun s => AllWritten fact s.occurrences := by
  unfold Parser.conditional
  refine .within _ (.bind (.expect _ _) fun token _ => .bind h.ofBranch fun first atFirst => ?_)
  refine .bind h.ofAlternatives fun rest atRest => .pure ?_ ?_
  · simp [Statement.occurrences, branchOccurrences_cons first rest.1]
  · rw [allWritten_append] at atRest
    simp [Statement.occurrences, branchOccurrences_cons first rest.1, atFirst, atRest]

theorem ofWhileLoop (h : inner.Delivers fact) :
    Parser.Delivers fact front [] (Parser.whileLoop inner) (fun s => idsOf s.occurrences)
      fun s => AllWritten fact s.occurrences := by
  unfold Parser.whileLoop
  refine .within _ (.bind (.expect _ _) fun token _ => .bind (h.ofBinary 0) fun condition atCondition => ?_)
  refine .bind h.ofBlock fun body atBody => .pure ?_ ?_
  · simp [Statement.occurrences]
  · simp [Statement.occurrences, atCondition.1, atBody]

theorem ofLoopSource (h : inner.Delivers fact) :
    Parser.Delivers fact front [] (Parser.loopSource inner) (fun source => idsOf (valueOccurrences source))
      fun source => AllWritten fact (valueOccurrences source) := by
  unfold Parser.loopSource
  refine .look .peek fun token => ?_
  split
  · refine .bind .advance fun _ _ => .bind (h.expression 0) fun value atValue => ?_
    exact .pure (by simp [valueOccurrences]) (by simp [valueOccurrences, atValue.1])
  · exact .pure (by simp [valueOccurrences]) (by simp [valueOccurrences])

theorem ofForEach (h : inner.Delivers fact) :
    Parser.Delivers fact front [] (Parser.forEach inner) (fun s => idsOf s.occurrences)
      fun s => AllWritten fact s.occurrences := by
  unfold Parser.forEach
  refine .within _ (.bind (.expect _ _) fun token _ => .bind .expectDeterminer fun found isDeterminer => ?_)
  obtain ⟨determiner, kind⟩ := found
  dsimp only
  split
  · exact .fail _
  · refine .bind .expectNoun fun noun isNoun => ?_
    refine .bind (.nounPhrase isNoun (by simp [isDeterminer.1, isDeterminer.2])) fun binder atBinder => ?_
    refine .bind h.ofLoopSource fun source atSource => .bind h.ofBlock fun body atBody => .pure ?_ ?_
    · simp [Statement.occurrences]
    · simp [Statement.occurrences, Occurrence.Written, atBinder.2, atSource, atBody]

theorem ofGive (h : inner.Delivers fact) :
    Parser.Delivers fact front [] (Parser.give inner) (fun s => idsOf s.occurrences)
      fun s => AllWritten fact s.occurrences := by
  unfold Parser.give
  refine .within _ (.bind .advance fun token _ => .look (.requireBody token) fun _ => ?_)
  split
  · exact .pure (by simp [Statement.occurrences, valueOccurrences]) (by simp [Statement.occurrences, valueOccurrences])
  · refine .bind (h.ofBinary 0) fun value atValue => .bind (.expect _ _) fun _ _ => ?_
    exact .pure (by simp [Statement.occurrences, valueOccurrences])
      (by simp [Statement.occurrences, valueOccurrences, atValue.1])

theorem ofLoopControl (control : LoopControl) :
    Parser.Delivers fact front [] (Parser.loopControl control) (fun s => idsOf s.occurrences)
      fun s => AllWritten fact s.occurrences := by
  unfold Parser.loopControl
  refine .bind .advance fun token _ => .look (.requireLoop token) fun _ => ?_
  exact .pure (by simp [Statement.occurrences]) (by simp [Statement.occurrences])

theorem ofStatement (h : inner.Delivers fact) :
    Parser.Delivers fact front [] (Parser.statement inner) (fun s => idsOf s.occurrences)
      fun s => AllWritten fact s.occurrences := by
  have misplacedHere {front : Token → Prop} (required : String) :
      Parser.Delivers fact front [] (do Parser.misplaced (← Parser.advance) required : Parser Statement)
        (fun s => idsOf s.occurrences) fun s => AllWritten fact s.occurrences :=
    .bind .advance fun _ _ => .throw _
  unfold Parser.statement
  refine .look .peek fun token => ?_
  split
  · exact h.ofConditional
  · exact h.ofWhileLoop
  · exact h.ofForEach
  · exact h.ofGive
  · exact h.ofGive
  · exact ofLoopControl _
  · exact ofLoopControl _
  · refine .bind .advance fun token _ => .look (.requireBody token) fun _ => ?_
    exact .pure (by simp [Statement.occurrences]) (by simp [Statement.occurrences])
  · exact misplacedHere _
  · exact misplacedHere _
  · exact misplacedHere _
  · exact misplacedHere _
  · exact misplacedHere _
  · rename_i kind isDeterminer
    intro scope s a t holds atFront run
    refine h.ofNounStatement kind scope s a t holds (fun found seen => ⟨atFront found seen, ?_⟩) run
    rw [(atFront found seen).2, Token.determiner?, isDeterminer]
    rfl
  · exact .pass (h.ofBinary 0) fun value atValue => h.ofFinishStatement value atValue.1

theorem ofStatements (h : inner.Delivers fact) (close : TokenKind) (expected : String) :
    Parser.Delivers fact front [] (Parser.statements inner close expected)
      (fun block => idsOf (blockOccurrences block)) fun block => AllWritten fact (blockOccurrences block) := by
  unfold Parser.statements
  refine .bind .skipLineEnds fun _ _ => .bind (.eat close) fun closed _ => ?_
  split
  · exact .pure (by simp [blockOccurrences]) (by simp [blockOccurrences])
  · refine .look (.at? _) fun ended => ?_
    have rest {front : Token → Prop} : Parser.Delivers fact front [] (do
          let first ← Parser.statement inner
          Parser.endStatement close
          return first :: (← inner.statements close expected))
        (fun block => idsOf (blockOccurrences block)) fun block => AllWritten fact (blockOccurrences block) := by
      refine .bind h.ofStatement fun first atFirst => .bind (.endStatement close) fun _ _ => ?_
      refine .bind (h.statements close expected) fun later atLater => .pure ?_ ?_
      · simp [blockOccurrences]
      · simp [blockOccurrences, atFirst, atLater]
    split
    · have stops {front : Token → Prop} : Parser.Delivers fact front [] (Parser.unexpected expected)
          (fun _ : Unit => []) fun _ => True := .unexpected expected
      exact .bind stops fun _ _ => rest
    · exact rest

end Inner.Delivers

end Satzbau.Parser

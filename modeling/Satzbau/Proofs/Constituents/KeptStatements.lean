import Satzbau.Proofs.Constituents.KeptExpressions
import Satzbau.Proofs.Parsing.NumberedStatements

namespace Satzbau.Parser.Inner.Keeps

variable {front : Token → Prop} {inner : Inner}

theorem ofBlock (h : inner.Keeps) :
    Parser.Keeps front [] (Parser.block inner) (Just fun block => slotsOf (blockConstituents block)) :=
  .bind (.skip rfl _) fun _ => h.statements _ _ rfl

theorem ofFinishStatement (h : inner.Keeps) (value : Expression) :
    Parser.Keeps front (slotsOf value.constituents) (Parser.finishStatement inner value)
      (Just fun s => slotsOf s.constituents) := by
  unfold Parser.finishStatement
  refine .look (.at? _) fun colon => ?_
  split
  · refine .within _ (.bind (.skip rfl _) fun _ => .bind (h.statements _ _ rfl) fun body => .pure ?_)
    simp [Just, Statement.constituents]
  · split
    · exact .pure (by simp [Just, Statement.constituents, Expression.constituents])
    · exact .throw _

theorem inside_of_assigns {token : Token} (assigns : Assigns token) : token.kind ≠ .fileEnd := by
  intro ends
  rw [Assigns, ends] at assigns
  rcases assigns with other | other <;> contradiction

theorem ofAssignment (h : inner.Keeps) (atVerb : ∀ token, front token → Assigns token) (target : NounPhrase)
    (owner : Option Expression) :
    Parser.Keeps front (target.slots ++ slotsOf (valueConstituents owner)) (Parser.assignment inner target owner)
      (Just fun s => slotsOf s.constituents) := by
  unfold Parser.assignment
  refine .within _ (.bind (.take fun token known => inside_of_assigns (atVerb token known)) fun verb => ?_)
  refine .bind (h.ofBinary 0) fun value => .pure ?_
  simp [Just, Statement.constituents, Constituent.slots]

theorem ofNounStatement (h : inner.Keeps) (kind : Determiner) :
    Parser.Keeps (fun token => front token ∧ token.determiner? = some kind) []
      (Parser.nounStatement inner kind) (Just fun s => slotsOf s.constituents) := by
  unfold Parser.nounStatement
  refine .bind (.take fun _ known => Keeps.inside_of_determiner known.2) fun determiner => ?_
  split
  · exact .fail _
  · refine .bind .expectNoun fun noun => .look .atAssignment fun assigned => ?_
    split
    · rename_i there
      refine .look (.requireOwner determiner kind) fun _ => .name fun id => ?_
      have named : [.token determiner] ++ [.token noun] =
          NounPhrase.slots ⟨id, some determiner, noun⟩ ++ slotsOf (valueConstituents .none) := rfl
      exact named ▸ h.ofAssignment (fun token known => known.1.2 there) _ .none
    · refine .pass (h.ofNounExpression determiner kind noun) fun value => ?_
      split
      · rename_i target owner
        refine .look .atAssignment fun assigned => ?_
        split
        · rename_i there
          have joined : slotsOf (Expression.property target owner).constituents =
              target.slots ++ slotsOf (valueConstituents (some owner)) := by
            simp [Expression.constituents, Constituent.slots, valueConstituents]
          exact joined ▸ h.ofAssignment (fun token known => known.2 there) target (some owner)
        · exact h.ofFinishStatement _
      · exact h.ofFinishStatement _

theorem ofBranch (h : inner.Keeps) :
    Parser.Keeps front [] (Parser.branch inner) (Just fun b => slotsOf (branchConstituents [b])) := by
  unfold Parser.branch
  refine .bind (h.ofBinary 0) fun condition => .bind h.ofBlock fun body => .pure ?_
  simp [Just, branchConstituents]

theorem slots_of_branch (b : Branch) (later : List Branch) :
    slotsOf (branchConstituents (b :: later)) = slotsOf (branchConstituents [b]) ++ slotsOf (branchConstituents later) := by
  obtain ⟨condition, body⟩ := b
  simp [branchConstituents]

theorem ofAlternatives (h : inner.Keeps) :
    Parser.Keeps front [] (Parser.alternatives inner)
      (Just fun found => slotsOf (branchConstituents found.1 ++ otherwiseConstituents found.2)) := by
  unfold Parser.alternatives
  refine .look .atOtherwise fun found => ?_
  split
  · refine .bind .skipLineEnds fun _ => .bind (.skip rfl _) fun _ => .bind (.eat rfl) fun further => ?_
    split
    · refine .bind h.ofBranch fun next => .bind h.alternatives fun rest => .pure ?_
      simp [Just, slots_of_branch next rest.1]
    · exact .bind h.ofBlock fun body => .pure (by simp [Just, branchConstituents, otherwiseConstituents])
  · exact .pure (by simp [Just, branchConstituents, otherwiseConstituents])

theorem ofConditional (h : inner.Keeps) :
    Parser.Keeps front [] (Parser.conditional inner) (Just fun s => slotsOf s.constituents) := by
  unfold Parser.conditional
  refine .within _ (.bind (.expect (by simp) _) fun token => .bind h.ofBranch fun first => ?_)
  refine .bind h.ofAlternatives fun rest => .pure ?_
  simp [Just, Statement.constituents, Constituent.slots, slots_of_branch first rest.1]

theorem ofWhileLoop (h : inner.Keeps) :
    Parser.Keeps front [] (Parser.whileLoop inner) (Just fun s => slotsOf s.constituents) := by
  unfold Parser.whileLoop
  refine .within _ (.bind (.expect (by simp) _) fun token => .bind (h.ofBinary 0) fun condition => ?_)
  refine .bind h.ofBlock fun body => .pure ?_
  simp [Just, Statement.constituents, Constituent.slots]

theorem ofLoopSource (h : inner.Keeps) :
    Parser.Keeps front [] (Parser.loopSource inner) (Just fun source => slotsOf (sourceConstituents source)) := by
  unfold Parser.loopSource
  refine .look .peek fun token => ?_
  split
  · rename_i isIn
    -- the `in` is passed over, but it has a place
    have passed : Parser.Keeps (fun other => front other ∧ other = token) [] Parser.advance (Just fun _ => [.loopIn]) := by
      refine .advance (fun _ known _ => ?_) fun _ known ends => ?_
      · rw [known.2]
        exact .loopIn isIn.1 isIn.2 .nil
      · rw [known.2, isIn.1] at ends
        contradiction
    refine .bind passed fun _ => .bind (h.expression 0) fun value => .pure ?_
    simp [Just, sourceConstituents, Constituent.slots]
  · exact .pure (by simp [Just, sourceConstituents])

theorem ofForEach (h : inner.Keeps) :
    Parser.Keeps front [] (Parser.forEach inner) (Just fun s => slotsOf s.constituents) := by
  unfold Parser.forEach
  refine .within _ (.bind (.expect (by simp) _) fun token => .bind .expectDeterminer fun found => ?_)
  obtain ⟨determiner, kind⟩ := found
  dsimp only
  split
  · exact .fail _
  · refine .bind .expectNoun fun noun => .name fun id => .bind h.ofLoopSource fun source => .bind h.ofBlock fun body => ?_
    exact .pure (by simp [Just, Statement.constituents, Constituent.slots, NounPhrase.slots])

theorem ofGive (h : inner.Keeps) (inside : ∀ token, front token → token.kind ≠ .fileEnd) :
    Parser.Keeps front [] (Parser.give inner) (Just fun s => slotsOf s.constituents) := by
  unfold Parser.give
  refine .within _ (.bind (.take inside) fun token => .look (.requireBody token) fun _ => ?_)
  split
  · exact .pure (by simp [Just, Statement.constituents, valueConstituents, Constituent.slots])
  · refine .bind (h.ofBinary 0) fun value => .bind (.skip rfl _) fun _ => .pure ?_
    simp [Just, Statement.constituents, valueConstituents, Constituent.slots]

theorem ofLoopControl (control : LoopControl) (inside : ∀ token, front token → token.kind ≠ .fileEnd) :
    Parser.Keeps front [] (Parser.loopControl control) (Just fun s => slotsOf s.constituents) := by
  unfold Parser.loopControl
  refine .bind (.take inside) fun token => .look (.requireLoop token) fun _ => .pure ?_
  simp [Just, Statement.constituents, Constituent.slots]

theorem ofStatement (h : inner.Keeps) :
    Parser.Keeps front [] (Parser.statement inner) (Just fun s => slotsOf s.constituents) := by
  unfold Parser.statement
  refine .look .peek fun token => ?_
  have inside {kind : TokenKind} (here : token.kind = kind) (notEnd : kind ≠ .fileEnd) (other : Token)
      (known : front other ∧ other = token) : other.kind ≠ .fileEnd := by
    rwa [known.2, here]
  have misplacedHere (kind : token.kind ≠ .fileEnd) (required : String) :
      Parser.Keeps (fun other => front other ∧ other = token) [] (do
          Parser.misplaced (← Parser.advance) required : Parser Statement)
        (Just fun s => slotsOf s.constituents) :=
    .bind (.take fun other known => known.2 ▸ kind) fun _ => .throw _
  split
  · exact h.ofConditional
  · exact h.ofWhileLoop
  · exact h.ofForEach
  · rename_i kind
    exact h.ofGive (inside kind (by simp))
  · rename_i kind
    exact h.ofGive (inside kind (by simp))
  · rename_i kind
    exact ofLoopControl _ (inside kind (by simp))
  · rename_i kind
    exact ofLoopControl _ (inside kind (by simp))
  · rename_i kind
    refine .bind (.take (inside kind (by simp))) fun token => .look (.requireBody token) fun _ => .pure ?_
    simp [Just, Statement.constituents, Constituent.slots]
  · rename_i kind
    exact misplacedHere (by simp [kind]) _
  · rename_i kind
    exact misplacedHere (by simp [kind]) _
  · rename_i kind
    exact misplacedHere (by simp [kind]) _
  · rename_i kind
    exact misplacedHere (by simp [kind]) _
  · rename_i kind
    exact misplacedHere (by simp [kind]) _
  · rename_i kind isDeterminer
    intro scope s a t atEnd atFront run
    refine h.ofNounStatement kind scope s a t atEnd (fun found seen => ⟨atFront found seen, ?_⟩) run
    rw [(atFront found seen).2, Token.determiner?, isDeterminer]
    rfl
  · exact .pass (h.ofBinary 0) fun value => h.ofFinishStatement value

theorem ofStatements (h : inner.Keeps) (close : TokenKind) (expected : String) (silent : close.isContent = false) :
    Parser.Keeps front [] (Parser.statements inner close expected)
      (Just fun block => slotsOf (blockConstituents block)) := by
  unfold Parser.statements
  refine .bind .skipLineEnds fun _ => .bind (.eat silent) fun closed => ?_
  split
  · exact .pure (by simp [Just, blockConstituents])
  · refine .look (.at? _) fun ended => ?_
    have rest {front : Token → Prop} : Parser.Keeps front [] (do
          let first ← Parser.statement inner
          Parser.endStatement close
          return first :: (← inner.statements close expected))
        (Just fun block => slotsOf (blockConstituents block)) := by
      refine .bind h.ofStatement fun first => .bind (.endStatement close) fun _ => ?_
      refine .bind (h.statements close expected silent) fun later => .pure ?_
      simp [Just, blockConstituents]
    split
    · have stops {front : Token → Prop} : Parser.Keeps front [] (Parser.unexpected expected) (Just fun _ : Unit => []) :=
        .unexpected expected
      exact .bind stops fun _ => rest
    · exact rest

end Satzbau.Parser.Inner.Keeps

import Satzbau.Parser.Run
import Satzbau.Proofs.Internal.Expressions

namespace Satzbau

namespace Parser

variable {α : Type}

namespace Inner.Careful

variable {inner : Inner}

theorem ofBlock (h : inner.Careful) : Parser.Careful (Parser.block inner) := by
  unfold Parser.block
  exact .bind (.expect _ _) fun _ => h.statements _ _

theorem ofFinishStatement (h : inner.Careful) (value : Expression) :
    Parser.Careful (Parser.finishStatement inner value) := by
  unfold Parser.finishStatement
  refine .bind (.at? _) fun found => ?_
  split
  · exact .within _ (.bind (.expect _ _) fun _ => .bind (h.statements _ _) fun body => .pure _)
  · cases value with
    | call c => exact .pure _
    | _ => exact .throw nofun

theorem ofAssignment (h : inner.Careful) (target : NounPhrase) (owner : Option Expression) :
    Parser.Careful (Parser.assignment inner target owner) := by
  unfold Parser.assignment
  exact .within _ (.bind .advance fun verb => .bind (h.ofBinary 0) fun value => .pure _)

theorem ofNounStatement (h : inner.Careful) (kind : Determiner) : Parser.Careful (Parser.nounStatement inner kind) := by
  unfold Parser.nounStatement
  refine .bind .advance fun determiner => ?_
  split
  · exact .fail nofun
  · refine .bind .expectNoun fun noun => .bind .atAssignment fun assigned => ?_
    split
    · exact .bind (.requireOwner _ _) fun _ => .bind (.nounPhrase _ _) fun target => h.ofAssignment _ _
    · refine .bind (h.ofNounExpression _ _ _) fun value => ?_
      split
      · refine .bind .atAssignment fun assigned => ?_
        split
        · exact h.ofAssignment _ _
        · exact h.ofFinishStatement _
      · exact h.ofFinishStatement _

theorem ofBranch (h : inner.Careful) : Parser.Careful (Parser.branch inner) := by
  unfold Parser.branch
  exact .bind (h.ofBinary 0) fun condition => .bind h.ofBlock fun body => .pure _

theorem ofAlternatives (h : inner.Careful) : Parser.Careful (Parser.alternatives inner) := by
  unfold Parser.alternatives
  refine .bind .atOtherwise fun found => ?_
  split
  · refine .bind .skipLineEnds fun _ => .bind (.expect _ _) fun _ => .bind (.eat _) fun conditional => ?_
    split
    · exact .bind h.ofBranch fun next => .bind h.alternatives fun others => .pure _
    · exact .bind h.ofBlock fun body => .pure _
  · exact .pure _

theorem ofConditional (h : inner.Careful) : Parser.Careful (Parser.conditional inner) := by
  unfold Parser.conditional
  exact .within _ (.bind (.expect _ _) fun token => .bind h.ofBranch fun first =>
    .bind h.ofAlternatives fun others => .pure _)

theorem ofWhileLoop (h : inner.Careful) : Parser.Careful (Parser.whileLoop inner) := by
  unfold Parser.whileLoop
  exact .within _ (.bind (.expect _ _) fun token => .bind (h.ofBinary 0) fun condition =>
    .bind h.ofBlock fun body => .pure _)

theorem ofLoopSource (h : inner.Careful) : Parser.Careful (Parser.loopSource inner) := by
  unfold Parser.loopSource
  refine .bind .peek fun token => ?_
  split
  · exact .bind .advance fun _ => .bind (h.expression 0) fun source => .pure _
  · exact .pure _

theorem ofForEach (h : inner.Careful) : Parser.Careful (Parser.forEach inner) := by
  unfold Parser.forEach
  refine .within _ (.bind (.expect _ _) fun token => .bind .expectDeterminer fun found => ?_)
  obtain ⟨determiner, kind⟩ := found
  dsimp only
  split
  · exact .fail nofun
  · exact .bind .expectNoun fun noun => .bind (.nounPhrase _ _) fun binder => .bind h.ofLoopSource fun source =>
      .bind h.ofBlock fun body => .pure _

theorem ofGive (h : inner.Careful) : Parser.Careful (Parser.give inner) := by
  unfold Parser.give
  refine .within _ (.bind .advance fun token => .bind (.require _ _ _) fun _ => ?_)
  split
  · exact .pure _
  · exact .bind (h.ofBinary 0) fun value => .bind (.expect _ _) fun _ => .pure _

theorem ofLoopControl (control : LoopControl) : Parser.Careful (Parser.loopControl control) := by
  unfold Parser.loopControl
  exact .bind .advance fun token => .bind (.require _ _ _) fun _ => .pure _

theorem misplacedNext (required : String) : Parser.Careful (do misplaced (← advance) required : Parser α) :=
  .bind .advance fun _ => .throw nofun

theorem ofStatement (h : inner.Careful) : Parser.Careful (Parser.statement inner) := by
  unfold Parser.statement
  refine .bind .peek fun token => ?_
  split
  · exact h.ofConditional
  · exact h.ofWhileLoop
  · exact h.ofForEach
  · exact h.ofGive
  · exact h.ofGive
  · exact ofLoopControl _
  · exact ofLoopControl _
  · exact .bind .advance fun token => .bind (.require _ _ _) fun _ => .pure _
  · exact misplacedNext _
  · exact misplacedNext _
  · exact misplacedNext _
  · exact misplacedNext _
  · exact misplacedNext _
  · exact h.ofNounStatement _
  · exact .bind (h.ofBinary 0) fun value => h.ofFinishStatement value

theorem ofStatements (h : inner.Careful) (close : TokenKind) (expected : String) :
    Parser.Careful (Parser.statements inner close expected) := by
  unfold Parser.statements
  refine .bind .skipLineEnds fun _ => .bind (.eat _) fun closed => ?_
  split
  · exact .pure _
  · refine .bind (.at? _) fun ended => ?_
    have goesOn : Parser.Careful (do
        let first ← Parser.statement inner
        Parser.endStatement close
        return first :: (← inner.statements close expected) : Parser Block) :=
      .bind h.ofStatement fun first => .bind (.endStatement _) fun _ => .bind (h.statements _ _) fun later => .pure _
    split
    · exact .bind (.unexpected _) fun _ => goesOn
    · exact goesOn

end Inner.Careful

namespace Careful

theorem parameter : Careful Parser.parameter := by
  unfold Parser.parameter
  refine bind determinedNoun fun phrase => bind (at? .noun) fun found => ?_
  split
  · exact bind advance fun name => pure _
  · exact pure _

theorem headerObject : Careful Parser.headerObject := by
  unfold Parser.headerObject
  refine bind peek fun token => ?_
  split
  · exact bind parameter fun item => pure _
  · exact bind advance fun token => bind (require _ _ _) fun _ => pure _
  · exact bind advance fun token => bind (require _ _ _) fun _ => pure _
  · exact pure _

theorem resultType : Careful Parser.resultType := by
  unfold Parser.resultType
  refine bind (eat _) fun found => ?_
  split
  · exact bind expectNoun fun noun => bind (expect _ _) fun _ => bind (nounPhrase _ _) fun result => pure _
  · exact pure _

theorem forms : Careful Parser.forms := by
  unfold Parser.forms
  exact bind (expect _ _) fun _ => bind expectNoun fun nominative => bind (expect _ _) fun _ =>
    bind expectNoun fun genitive => bind (expect _ _) fun _ => bind expectNoun fun dative =>
    bind (expect _ _) fun _ => bind expectNoun fun accusative => bind (expect _ _) fun _ => pure _

theorem gender : Careful Parser.gender := by
  unfold Parser.gender
  refine bind peek fun token => ?_
  split
  · exact bind advance fun _ => pure _
  · exact unexpected _

theorem declensionSource : Careful Parser.declensionSource := by
  unfold Parser.declensionSource
  refine bind (eat _) fun found => ?_
  split
  · exact bind (expect _ _) fun _ => bind expectNoun fun word => bind (expect _ _) fun _ => pure _
  · exact bind gender fun gender => bind (expect _ _) fun _ => bind forms fun singular =>
      bind (expect _ _) fun _ => bind forms fun plural => pure _

theorem declension : Careful Parser.declension := by
  unfold Parser.declension
  exact within _ (bind (expect _ _) fun token => bind declensionSource fun source => pure _)

end Careful

namespace Inner.Careful

variable {inner : Inner}

theorem ofParameters (h : inner.Careful) : Parser.Careful (Parser.parameters inner) := by
  unfold Parser.parameters
  refine .bind .parameter fun first => .bind (.eat _) fun found => ?_
  split
  · exact .bind h.parameters fun later => .pure _
  · exact .pure _

theorem ofHeaderGroups (h : inner.Careful) : Parser.Careful (Parser.headerGroups inner) := by
  unfold Parser.headerGroups
  refine .bind .atPreposition fun found => ?_
  split
  · exact .bind .advance fun preposition => .bind h.ofParameters fun items =>
      .bind h.headerGroups fun later => .pure _
  · exact .pure _

theorem ofFunction (h : inner.Careful) : Parser.Careful (Parser.function inner) := by
  unfold Parser.function Parser.header
  refine .bind (.bind (.expect _ _) fun _ => .bind .resultType fun result => .bind (.expect _ _) fun verb =>
    .bind .headerObject fun object => .bind h.ofHeaderGroups fun groups => .bind .optionalWord fun suffix => .pure _)
    fun header => .bind h.ofBlock fun body => .pure _

theorem ofClassDefinition (h : inner.Careful) : Parser.Careful (Parser.classDefinition inner) := by
  unfold Parser.classDefinition
  refine .within _ (.bind (.expect _ _) fun token => .bind .expectNoun fun noun => .bind (.nounPhrase _ _) fun name =>
    .bind (.eat _) fun found => ?_)
  split
  · exact .bind h.ofParameters fun fields => .bind h.ofBlock fun body => .pure _
  · exact .bind (.pure _) fun fields => .bind h.ofBlock fun body => .pure _

theorem ofConversionDefinition (h : inner.Careful) : Parser.Careful (Parser.conversionDefinition inner) := by
  unfold Parser.conversionDefinition
  exact .within _ (.bind (.expect _ _) fun token => .bind .expectNoun fun noun => .bind (.nounPhrase _ _) fun target =>
    .bind h.ofBlock fun body => .pure _)

theorem ofMembers (h : inner.Careful) : Parser.Careful (Parser.members inner) := by
  unfold Parser.members
  refine .bind .skipLineEnds fun _ => .bind .peek fun token => ?_
  split
  · exact .bind .advance fun _ => .pure _
  · exact .bind (.within _ h.ofFunction) fun method => .bind (.endStatement _) fun _ =>
      .bind h.members fun others => .pure _
  · exact .bind h.ofConversionDefinition fun conversion => .bind (.endStatement _) fun _ =>
      .bind h.members fun others => .pure _
  · exact .unexpected _

theorem ofImplementation (h : inner.Careful) : Parser.Careful (Parser.implementation inner) := by
  unfold Parser.implementation
  exact .within _ (.bind (.expect _ _) fun token => .bind .determinedNoun fun owner => .bind (.expect _ _) fun _ =>
    .bind h.members fun members => .pure _)

theorem ofProgram (h : inner.Careful) : Parser.Careful (Parser.program inner) := by
  have define {p : Parser Definition} (careful : Parser.Careful p) : Parser.Careful (do
      let definition ← p
      Parser.endStatement .fileEnd
      let rest ← inner.program
      return { rest with definitions := definition :: rest.definitions } : Parser Program) :=
    .bind careful fun definition => .bind (.endStatement _) fun _ => .bind h.program fun rest => .pure _
  unfold Parser.program
  refine .bind .skipLineEnds fun _ => .bind .peek fun token => ?_
  split
  · exact .pure _
  · exact define (.map _ (.within _ h.ofFunction))
  · exact define h.ofClassDefinition
  · exact define h.ofImplementation
  · exact define .declension
  · exact .bind h.ofStatement fun first => .bind (.endStatement _) fun _ => .bind h.program fun rest => .pure _

theorem ofInner (size : Nat) : (Parser.inner size).Careful := by
  induction size with
  | zero => exact .ofNone
  | succ size ih =>
    exact {
      expression := ih.ofBinary
      operators := ih.ofOperators
      conversions := ih.ofConversions
      phrase := ih.ofPhrase
      items := ih.ofItems (ih.ofBinary 0)
      arguments := ih.ofArguments
      groups := ih.ofGroups
      statements := ih.ofStatements
      alternatives := ih.ofAlternatives
      parameters := ih.ofParameters
      headerGroups := ih.ofHeaderGroups
      members := ih.ofMembers
      program := ih.ofProgram
      operatorsKeep := ih.keepsOfOperators
      conversionsKeep := ih.keepsOfConversions }

end Inner.Careful

end Parser

/-- Reading a program never fails by a fault of the compiler itself. -/
theorem TokenStream.program_noInternal {stream : TokenStream} (clean : CleanItems stream.items) :
    NoInternal stream.program := by
  have careful : NoInternal (Parser.complete Parser.program ⟨[], stream.fileEnd⟩ ⟨stream.items, 0⟩) :=
    ((Parser.Inner.Careful.ofInner stream.items.length).ofProgram _ ⟨stream.items, 0⟩ clean).1
  unfold TokenStream.program
  intro d failed
  cases run : Parser.complete Parser.program ⟨[], stream.fileEnd⟩ ⟨stream.items, 0⟩ with
  | ok step =>
    rw [run] at failed
    contradiction
  | error fault =>
    rw [run] at failed
    cases failed
    exact careful d run

end Satzbau

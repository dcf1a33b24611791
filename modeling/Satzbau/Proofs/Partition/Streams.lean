import Mathlib.Data.List.Chain
import Satzbau.Parser.Basic
import Satzbau.Proofs.Partition.Columns
import Satzbau.Proofs.Text

namespace Satzbau

namespace Source

/-- What is read of lines one after the other, each in the comment that the one before it leaves open. -/
def readings (inComment : Bool) : List Lexer.Line → List (Except Diagnostic (List Token))
  | [] => []
  | line :: later => (line.tokens inComment).1 :: readings (line.tokens inComment).2 later

/-- Whether no line is the import of a file. -/
def WithoutImports (inComment : Bool) (lines : List Lexer.Line) : Prop :=
  ∀ tokens ∈ (readings inComment lines).filterMap Except.toOption, importTarget? tokens = none

/-- The tokens of a line and its end, unless there are none. -/
def ended (line : Lexer.Line) : List Token → List Token
  | [] => []
  | first :: others => first :: others ++ [line.lineEnd (first :: others)]

/-- The tokens of some lines, line by line. `inComment` says whether a block comment is open before them. -/
inductive Tokenized : Bool → List Lexer.Line → List Token → Prop
  | none {inComment : Bool} : Tokenized inComment [] []
  | line {before after : Bool} {line : Lexer.Line} {later : List Lexer.Line} {pieces : List Lexer.Piece}
    {tokens others : List Token} (first : line.Partitions before pieces tokens after) (behind : Tokenized after later others) :
    Tokenized before (line :: later) (ended line tokens ++ others)

/-- Not both of two tokens end a line. -/
def Apart (t u : Token) : Prop :=
  ¬(t.kind = .lineEnd ∧ u.kind = .lineEnd)

theorem isChain_apart {tokens : List Token} (notEnd : ∀ t ∈ tokens, t.kind ≠ .lineEnd) : tokens.IsChain Apart :=
  List.isChain_iff_forall_rel_of_append_cons_cons.mpr fun t _ earlier later split ends =>
    notEnd t (by simp [split]) ends.1

/-- No line begins with its end, so there is a token between any two ends of lines. -/
theorem Tokenized.apart {inComment : Bool} {lines : List Lexer.Line} {tokens : List Token}
    (tokenized : Tokenized inComment lines tokens) :
    tokens.IsChain Apart ∧ ∀ t ∈ tokens.head?, t.kind ≠ .lineEnd := by
  induction tokenized with
  | none => exact ⟨.nil, nofun⟩
  | @line before after line later pieces tokens others first behind ih =>
    have notEnd : ∀ t ∈ tokens, t.kind ≠ .lineEnd := fun t member ends => first.notEnd t member (Or.inr ends)
    cases tokens with
    | nil => exact ih
    | cons t tokens =>
      obtain ⟨apart, begins⟩ := ih
      have behindEnd : (line.lineEnd (t :: tokens) :: others).IsChain Apart :=
        List.isChain_cons.mpr ⟨fun u atFront ends => begins u atFront ends.2, apart⟩
      have all : (t :: tokens ++ line.lineEnd (t :: tokens) :: others).IsChain Apart :=
        (isChain_apart notEnd).append behindEnd fun u last _ _ ends => notEnd u (List.mem_of_mem_getLast? last) ends.1
      refine ⟨by simpa [ended] using all, ?_⟩
      rintro _ ⟨⟩
      exact notEnd t (List.mem_cons_self ..)

section Reading

variable {files : Files} {progress : Progress} {line : Lexer.Line}

theorem readLine_ended {tokens : List Token} {after : Bool} (read : line.tokens progress.inComment = (.ok tokens, after))
    (noImport : importTarget? tokens = none) :
    readLine files progress line = ((ended line tokens).map .ok, ⟨progress.queue, after⟩) := by
  unfold readLine
  rw [read]
  cases tokens with
  | nil => rfl
  | cons first others =>
    dsimp only
    rw [noImport]
    rfl

theorem readLine_fault {fault : Diagnostic} {after : Bool} (read : line.tokens progress.inComment = (.error fault, after)) :
    (readLine files progress line).1 = [.error fault] := by
  unfold readLine
  rw [read]

/-- What is read without a fault of lines that import nothing. -/
theorem readLines_tokenized {lines : List Lexer.Line} {tokens : List Token}
    (alone : WithoutImports progress.inComment lines) (read : (readLines files progress lines).1 = tokens.map .ok) :
    Tokenized progress.inComment lines tokens ∧ (readLines files progress lines).2 = progress.queue := by
  induction lines generalizing progress tokens with
  | nil =>
    obtain rfl : tokens = [] := List.map_eq_nil_iff.mp read.symm
    exact ⟨.none, rfl⟩
  | cons line later ih =>
    have split : (readLine files progress line).1 ++ (readLines files (readLine files progress line).2 later).1 =
      tokens.map .ok := read
    cases result : line.tokens progress.inComment with
    | mk outcome after =>
      cases outcome with
      | error fault =>
        rw [readLine_fault result] at split
        have member : Except.error fault ∈ tokens.map Except.ok := split ▸ List.mem_cons_self ..
        obtain ⟨_, _, impossible⟩ := List.mem_map.mp member
        contradiction
      | ok found =>
        have reading : readings progress.inComment (line :: later) = .ok found :: readings after later := by
          rw [readings, result]
        have known : ∀ others ∈ found :: (readings after later).filterMap Except.toOption, importTarget? others = none := by
          unfold WithoutImports at alone
          rw [reading] at alone
          exact alone
        obtain ⟨noImport, alone'⟩ := List.forall_mem_cons.mp known
        rw [readLine_ended result noImport] at split
        obtain ⟨first, others, rfl, sameFirst, sameOthers⟩ := List.map_eq_append_iff.mp split.symm
        obtain rfl : first = ended line found := List.map_inj_right (fun _ _ => Except.ok.inj) |>.mp sameFirst
        obtain ⟨behind, queue⟩ := @ih ⟨progress.queue, after⟩ others alone' sameOthers.symm
        obtain ⟨pieces, partitions⟩ := Lexer.Line.tokens_partitions (congrArg Prod.fst result)
        rw [result] at partitions
        refine ⟨.line partitions behind, ?_⟩
        show (readLines files (readLine files progress line).2 later).2 = progress.queue
        rw [readLine_ended result noImport]
        exact queue

end Reading

end Source

/-- What is read at a place of a stream. Behind all of its items there is the end of the last file, however
often it is asked for. -/
def TokenStream.nth (stream : TokenStream) (k : Nat) : Except Diagnostic Token :=
  stream.items[k]?.getD (.ok stream.fileEnd)

/-- A parser that has taken some items of a stream sees the next one. -/
theorem TokenStream.peek_drop (stream : TokenStream) (k : Nat) (around : List Construct) (id : NodeId) :
    Parser.peek ⟨around, stream.fileEnd⟩ ⟨stream.items.drop k, id⟩ =
      (stream.nth k).map fun token => (token, ⟨stream.items.drop k, id⟩) := by
  unfold nth
  rw [← List.head?_drop]
  cases stream.items.drop k with
  | nil => rfl
  | cons item later => cases item <;> rfl

theorem eq_map_of_mapM {ε α : Type} {items : List (Except ε α)} {values : List α} (read : items.mapM id = .ok values) :
    items = values.map .ok := by
  induction items generalizing values with
  | nil =>
    cases read
    rfl
  | cons item later ih =>
    rw [List.mapM_cons] at read
    cases item with
    | error fault => contradiction
    | ok value =>
      replace read : (later.mapM id >>= fun others => pure (value :: others)) = .ok values := read
      cases rest : later.mapM id with
      | error fault =>
        rw [rest] at read
        contradiction
      | ok others =>
        rw [rest] at read
        cases read
        rw [ih rest, List.map_cons]

theorem TokenStream.items_of_allTokens {stream : TokenStream} {all : List Token} (read : stream.allTokens = .ok all) :
    ∃ tokens, stream.items = tokens.map .ok ∧ all = tokens ++ [stream.fileEnd] := by
  unfold allTokens at read
  cases sequence : stream.items.mapM id with
  | error fault =>
    rw [sequence] at read
    contradiction
  | ok tokens =>
    rw [sequence] at read
    cases read
    exact ⟨tokens, eq_map_of_mapM sequence, rfl⟩

/-- The tokens of a text that imports nothing are those of its lines, each of which that has any is closed by
its end, and behind them there is nothing but the end of the file. -/
theorem TokenStream.ofText_tokenized {files : Files} {path : Path} {text : String} {all : List Token}
    (alone : Source.WithoutImports false (Source.linesOf path text)) (read : (ofText files path text).allTokens = .ok all) :
    ∃ tokens fileEnd, all = tokens ++ [fileEnd] ∧ Source.Tokenized false (Source.linesOf path text) tokens ∧
      tokens.IsChain Source.Apart ∧ fileEnd.kind = .fileEnd ∧
      ∀ k, (ofText files path text).nth k = .ok (tokens[k]?.getD fileEnd) := by
  obtain ⟨tokens, items, rfl⟩ := items_of_allTokens read
  have own : ∃ own : List Token, (Source.opened files path text).1 = own.map .ok := by
    obtain ⟨own, _, _, same, _⟩ := List.map_eq_append_iff.mp items.symm
    exact ⟨own, same.symm⟩
  obtain ⟨own, opened⟩ := own
  have queue := (Source.readLines_tokenized alone opened).2
  have stream := ofText_eq files path text (congrArg ImportQueue.pending queue)
  rw [stream] at items ⊢
  obtain ⟨tokenized, _⟩ := Source.readLines_tokenized alone items
  refine ⟨tokens, _, rfl, tokenized, tokenized.apart.1, rfl, fun k => ?_⟩
  rw [nth, items, List.getElem?_map]
  cases tokens[k]? <;> rfl

/-- An operator of two words, a comment behind it, a comment over two lines and a line with nothing on it. -/
def commentedComparison : String :=
  "wenn 1 größer   gleich 2: // immer\n/* noch\nnicht */ .\n\n"

theorem commentedComparison_tokenized :
    ∃ all tokens fileEnd, (TokenStream.ofText .none ⟨"satz"⟩ commentedComparison).allTokens = .ok all ∧
      all.map Token.text = ["wenn", "1", "größer   gleich", "2", ":", "\n", ".", "\n", ""] ∧
      all = tokens ++ [fileEnd] ∧ Source.Tokenized false (Source.linesOf ⟨"satz"⟩ commentedComparison) tokens ∧
      ∀ k, (TokenStream.ofText .none ⟨"satz"⟩ commentedComparison).nth k = .ok (tokens[k]?.getD fileEnd) := by
  have stream := TokenStream.ofText_eq .none ⟨"satz"⟩ commentedComparison (by decide +kernel)
  have computed : ((TokenStream.ofText .none ⟨"satz"⟩ commentedComparison).allTokens.map fun all =>
      all.map Token.text).toOption = some ["wenn", "1", "größer   gleich", "2", ":", "\n", ".", "\n", ""] := by
    rw [stream]
    decide +kernel
  have alone : Source.WithoutImports false (Source.linesOf ⟨"satz"⟩ commentedComparison) := by
    unfold Source.WithoutImports
    decide +kernel
  obtain ⟨all, read, texts⟩ := exists_ok_of_view computed
  obtain ⟨tokens, fileEnd, same, tokenized, _, _, places⟩ := TokenStream.ofText_tokenized alone read
  exact ⟨all, tokens, fileEnd, read, texts, same, tokenized, places⟩

end Satzbau

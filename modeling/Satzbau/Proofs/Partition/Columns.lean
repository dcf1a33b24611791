import Satzbau.Proofs.Lexing
import Satzbau.Proofs.Partition.Pieces

namespace Satzbau

/-- Whether a token takes a column of its line. -/
def Token.Covers (t : Token) (column : Nat) : Prop :=
  t.span.start.column ≤ column ∧ column < t.span.stop.column

namespace Lexer

/-- The characters of a line from a column up to another one. -/
def Line.between (line : Line) (first last : Nat) : List Char :=
  (line.text.drop (first - 1)).take (last - first)

/-- The number of characters of some pieces. -/
def width (pieces : List Piece) : Nat :=
  (pieces.flatMap Piece.text).length

/-- Whether the character in a column is part of a comment. -/
def InComment (pieces : List Piece) (column : Nat) : Prop :=
  ∃ earlier text later, pieces = earlier ++ .comment text :: later ∧ width earlier < column ∧
    column ≤ width earlier + text.length

/-- What the tokens of a line have to do with its characters. The pieces that the line falls into say which
characters are part of a comment. -/
structure Line.Partitions (line : Line) (before : Bool) (pieces : List Piece) (tokens : List Token) (after : Bool) : Prop where
  divides : Divides before pieces after
  whole : pieces.flatMap Piece.text = line.text
  placed : line.placed 1 pieces = tokens
  located : ∀ t ∈ tokens, t.file = line.file ∧ t.span.start.line = line.number ∧ t.span.stop.line = line.number
  within : ∀ t ∈ tokens, 1 ≤ t.span.start.column ∧ t.span.stop.column ≤ line.text.length + 1
  nonempty : ∀ t ∈ tokens, t.span.start.column < t.span.stop.column
  ascending : tokens.Pairwise fun t u => t.span.stop.column ≤ u.span.start.column
  selected : ∀ t ∈ tokens, t.text.toList = line.between t.span.start.column t.span.stop.column
  notEnd : ∀ t ∈ tokens, ¬EndsSomething t.kind
  uncovered : ∀ column c, 1 ≤ column → line.text[column - 1]? = some c → (∀ t ∈ tokens, ¬t.Covers column) →
    isBlank c = true ∨ InComment pieces column

theorem width_cons (piece : Piece) (later : List Piece) : width (piece :: later) = piece.text.length + width later := by
  unfold width
  rw [List.flatMap_cons, List.length_append]

theorem width_append (earlier later : List Piece) : width (earlier ++ later) = width earlier + width later := by
  unfold width
  rw [List.flatMap_append, List.length_append]

/-- What a piece is for itself. -/
def Piece.Sound : Piece → Prop
  | token _ text => text ≠ []
  | blank c => isBlank c = true
  | comment _ => True

theorem Divides.sound {before after : Bool} {pieces : List Piece} (divides : Divides before pieces after) :
    ∀ piece ∈ pieces, piece.Sound := by
  induction divides with
  | nothing => exact nofun
  | token nonempty _ ih => exact List.forall_mem_cons.mpr ⟨nonempty, ih⟩
  | blank isBlank _ ih => exact List.forall_mem_cons.mpr ⟨isBlank, ih⟩
  | lineComment => exact List.forall_mem_singleton.mpr trivial
  | closed _ _ ih => exact List.forall_mem_cons.mpr ⟨trivial, ih⟩
  | goesOn _ => exact List.forall_mem_singleton.mpr trivial

section Placed

variable (line : Line)

theorem placed_append (column : Nat) (earlier later : List Piece) :
    line.placed column (earlier ++ later) = line.placed column earlier ++ line.placed (column + width earlier) later := by
  induction earlier generalizing column with
  | nil => rfl
  | cons piece earlier ih =>
    have moved : column + width (piece :: earlier) = column + piece.text.length + width earlier := by
      rw [width_cons, Nat.add_assoc]
    rw [moved]
    cases piece with
    | token kind text => exact congrArg _ (ih _)
    | blank c => exact ih _
    | comment text => exact ih _

variable {line}

/-- A token stands where its piece does. -/
theorem mem_placed {column : Nat} {pieces : List Piece} {t : Token} :
    t ∈ line.placed column pieces ↔
      ∃ earlier kind text later, pieces = earlier ++ .token kind text :: later ∧ t = line.token (column + width earlier) kind text := by
  constructor
  · intro member
    induction pieces generalizing column with
    | nil => contradiction
    | cons piece later ih =>
      have behind (member : t ∈ line.placed (column + piece.text.length) later) :
          ∃ earlier kind text rest, piece :: later = earlier ++ .token kind text :: rest ∧
            t = line.token (column + width earlier) kind text := by
        obtain ⟨earlier, kind, text, rest, rfl, rfl⟩ := ih member
        refine ⟨piece :: earlier, kind, text, rest, rfl, ?_⟩
        rw [width_cons, Nat.add_assoc]
      cases piece with
      | blank c => exact behind member
      | comment text => exact behind member
      | token kind text =>
        obtain rfl | inLater := List.mem_cons.mp member
        · exact ⟨[], kind, text, later, rfl, rfl⟩
        · exact behind inLater
  · rintro ⟨earlier, kind, text, later, rfl, rfl⟩
    rw [placed_append]
    exact List.mem_append_right _ (List.mem_cons_self ..)

theorem placed_ascending (column : Nat) (pieces : List Piece) :
    (line.placed column pieces).Pairwise fun t u => t.span.stop.column ≤ u.span.start.column := by
  induction pieces generalizing column with
  | nil => exact .nil
  | cons piece later ih =>
    cases piece with
    | blank c => exact ih _
    | comment text => exact ih _
    | token kind text =>
      refine .cons (fun u member => ?_) (ih _)
      obtain ⟨earlier, kind', text', _, _, rfl⟩ := mem_placed.mp member
      exact Nat.le_add_right _ _

/-- Each character is part of a piece. -/
theorem exists_piece {pieces : List Piece} {index : Nat} (inside : index < width pieces) :
    ∃ earlier piece later, pieces = earlier ++ piece :: later ∧ width earlier ≤ index ∧
      index < width earlier + piece.text.length := by
  induction pieces generalizing index with
  | nil => contradiction
  | cons piece later ih =>
    rw [width_cons] at inside
    by_cases here : index < piece.text.length
    · exact ⟨[], piece, later, rfl, Nat.zero_le _, by simpa [width] using here⟩
    · obtain ⟨earlier, found, rest, rfl, lower, upper⟩ := @ih (index - piece.text.length) (by omega)
      refine ⟨piece :: earlier, found, rest, rfl, ?_, ?_⟩
      · rw [width_cons]
        omega
      · rw [width_cons]
        omega

end Placed

theorem Line.between_of_append {line : Line} {earlier text later : List Char} (whole : line.text = earlier ++ (text ++ later)) :
    line.between (1 + earlier.length) (1 + earlier.length + text.length) = text := by
  rw [Line.between, whole, Nat.add_sub_cancel_left, Nat.add_sub_cancel_left, List.drop_left, List.take_left]

theorem flatMap_text_append (earlier : List Piece) (piece : Piece) (later : List Piece) :
    (earlier ++ piece :: later).flatMap Piece.text =
      earlier.flatMap Piece.text ++ (piece.text ++ later.flatMap Piece.text) := by
  rw [List.flatMap_append, List.flatMap_cons]

/-- What no token takes is blank or part of a comment. -/
theorem blank_or_inComment {line : Line} {before after : Bool} {pieces : List Piece} (divides : Divides before pieces after)
    (whole : pieces.flatMap Piece.text = line.text) {column : Nat} {c : Char} (positive : 1 ≤ column)
    (found : line.text[column - 1]? = some c) (free : ∀ t ∈ line.placed 1 pieces, ¬t.Covers column) :
    isBlank c = true ∨ InComment pieces column := by
  have inside : column - 1 < width pieces := by
    rw [width, whole]
    exact (List.getElem?_eq_some_iff.mp found).1
  obtain ⟨earlier, piece, later, rfl, lower, upper⟩ := exists_piece inside
  cases piece with
  | token kind text =>
    rw [Piece.text] at upper
    have covered : (line.token (1 + width earlier) kind text).Covers column :=
      ⟨show 1 + width earlier ≤ column by omega, show column < 1 + width earlier + text.length by omega⟩
    exact absurd covered (free _ (mem_placed.mpr ⟨earlier, kind, text, later, rfl, rfl⟩))
  | comment text =>
    rw [Piece.text] at upper
    exact Or.inr ⟨earlier, text, later, rfl, by omega, by omega⟩
  | blank d =>
    have here : column - 1 = (earlier.flatMap Piece.text).length := by
      rw [Piece.text, List.length_singleton] at upper
      exact Nat.le_antisymm (Nat.le_of_lt_succ upper) lower
    rw [flatMap_text_append, Piece.text] at whole
    rw [← whole, here, List.getElem?_append_right (Nat.le_refl _), Nat.sub_self] at found
    cases found
    exact Or.inl (divides.sound (.blank c) (by simp))

/-- The tokens of a line partition it. -/
theorem Line.tokens_partitions {line : Line} {inComment : Bool} {tokens : List Token}
    (read : (line.tokens inComment).1 = .ok tokens) :
    ∃ pieces, line.Partitions inComment pieces tokens (line.tokens inComment).2 := by
  obtain ⟨pieces, divides, whole, placed⟩ := tokensFrom_divides line 1 inComment line.text read
  have notEnd := tokensFrom_not_end line 1 inComment line.text read
  subst placed
  refine ⟨pieces, {
    divides := divides
    whole := whole
    placed := rfl
    located := fun t member => ?_
    within := fun t member => ?_
    nonempty := fun t member => ?_
    ascending := placed_ascending 1 pieces
    selected := fun t member => ?_
    notEnd := notEnd
    uncovered := fun column c positive found free => blank_or_inComment divides whole positive found free }⟩
  · obtain ⟨_, _, _, _, _, rfl⟩ := mem_placed.mp member
    exact ⟨rfl, rfl, rfl⟩
  · obtain ⟨earlier, kind, text, later, rfl, rfl⟩ := mem_placed.mp member
    refine ⟨Nat.le_add_right 1 _, ?_⟩
    show 1 + width earlier + text.length ≤ line.text.length + 1
    rw [← whole, ← width, width_append, width_cons, Piece.text]
    omega
  · obtain ⟨earlier, kind, text, later, rfl, rfl⟩ := mem_placed.mp member
    have nonempty : text ≠ [] := divides.sound (.token kind text) (by simp)
    exact Nat.lt_add_of_pos_right (List.length_pos_iff.mpr nonempty)
  · obtain ⟨earlier, kind, text, later, rfl, rfl⟩ := mem_placed.mp member
    rw [flatMap_text_append] at whole
    exact String.toList_ofList.trans (Line.between_of_append whole.symm).symm

end Lexer

end Satzbau

import Satzbau.Proofs.Repeating.CarriageReturn

namespace Satzbau.Lexer

/-- A stretch of a line. -/
inductive Piece
  | token (kind : TokenKind) (text : List Char)
  | blank (c : Char)
  | comment (text : List Char)

def Piece.text : Piece → List Char
  | token _ text | comment text => text
  | blank c => [c]

/-- Whether nothing in a text closes a block comment. -/
def Unclosed (text : List Char) : Prop :=
  ¬ ['*', '/'] <:+: text

/-- What begins a block comment on its line: the sign that opens it, or nothing if it is open already. -/
def opening : Bool → List Char
  | false => ['/', '*']
  | true => []

/-- How a line falls into pieces, one behind the other. `before` and `after` say whether a block comment is
open where the line begins and where it ends. A line comment goes to the end of its line, and a block comment
to the first sign that closes it, which may be on a later line. -/
inductive Divides : Bool → List Piece → Bool → Prop
  | nothing : Divides false [] false
  | token {kind : TokenKind} {text : List Char} {pieces : List Piece} {after : Bool} (nonempty : text ≠ [])
    (later : Divides false pieces after) : Divides false (.token kind text :: pieces) after
  | blank {c : Char} {pieces : List Piece} {after : Bool} (isBlank : isBlank c = true)
    (later : Divides false pieces after) : Divides false (.blank c :: pieces) after
  | lineComment {text : List Char} : Divides false [.comment ('/' :: '/' :: text)] false
  | closed {before after : Bool} {body : List Char} {pieces : List Piece} (first : Unclosed (body ++ ['*']))
    (later : Divides false pieces after) : Divides before (.comment (opening before ++ (body ++ ['*', '/'])) :: pieces) after
  | goesOn {before : Bool} {body : List Char} (unclosed : Unclosed body) :
    Divides before [.comment (opening before ++ body)] true

/-- The tokens of some pieces of a line, the first of which begins in a column. -/
def Line.placed (line : Line) (column : Nat) : List Piece → List Token
  | [] => []
  | .token kind text :: later => line.token column kind text :: line.placed (column + text.length) later
  | .blank _ :: later => line.placed (column + 1) later
  | .comment text :: later => line.placed (column + text.length) later

theorem sign?_pos {c : Char} {next : Option Char} {kind : TokenKind} {length : Nat}
    (found : sign? c next = some (kind, length)) : 0 < length := by
  unfold sign? at found
  split at found
  · cases found
    exact Nat.succ_pos 1
  · obtain ⟨_, _, same⟩ := Option.map_eq_some_iff.mp found
    cases same
    exact Nat.one_pos

theorem word_pos {c : Char} (letter : isLetter c = true) (rest : List Char) : 0 < (word (c :: rest)).2 := by
  have wordCharacter : isWordCharacter c = true := by simp [isWordCharacter, letter]
  have nonempty : 0 < ((c :: rest).takeWhile isWordCharacter).length := by
    rw [List.takeWhile_cons_of_pos wordCharacter]
    exact Nat.succ_pos _
  unfold word
  dsimp only
  split
  · exact nonempty
  · split
    · exact Nat.add_pos_left nonempty _
    · exact nonempty

theorem quoted_le {text : List Char} {q : Quoted} (read : quoted text = .ok q) : q.length ≤ text.length := by
  fun_induction quoted text generalizing q with
  | case1 => contradiction
  | case2 => contradiction
  | case3 c rest value escaped ih =>
    obtain ⟨inner, readInner, rfl⟩ := extend_eq_ok read
    exact Nat.add_le_add_right (ih readInner) 2
  | case4 => contradiction
  | case5 =>
    cases read
    exact Nat.le_add_left 1 _
  | case6 c rest notAlone notEscape notQuote ih =>
    obtain ⟨inner, readInner, rfl⟩ := extend_eq_ok read
    exact Nat.add_le_add_right (ih readInner) 1

/-- A token takes characters that are there, and at least one of them. -/
theorem lexeme_length {c : Char} {rest : List Char} {kind : TokenKind} {length : Nat}
    (found : lexeme c rest = .ok (kind, length)) : 0 < length ∧ length ≤ rest.length + 1 := by
  unfold lexeme at found
  split at found
  · split at found
    · rename_i q read
      cases found
      exact ⟨Nat.succ_pos _, Nat.add_le_add_right (quoted_le read) 1⟩
    · contradiction
    · contradiction
  · split at found
    · cases found
      exact ⟨Nat.succ_pos _, Nat.add_le_add_right (numberTail_le false rest) 1⟩
    · split at found
      · rename_i letter
        have positive := word_pos letter rest
        have bound := word_le (c :: rest)
        rw [Except.ok.inj found] at positive bound
        exact ⟨positive, bound⟩
      · split at found
        · rename_i signed
          cases found
          exact ⟨sign?_pos signed, sign?_le signed⟩
        · contradiction

theorem unclosed_of_length_lt {text : List Char} (short : text.length < 2) : Unclosed text :=
  fun closes => absurd closes.length_le (Nat.not_le.mpr short)

theorem Unclosed.cons {c : Char} {text : List Char} (unclosed : Unclosed text)
    (stays : ¬(c = '*' ∧ text.head? = some '/')) : Unclosed (c :: text) := by
  intro closes
  obtain atFront | inside := List.infix_cons_iff.mp closes
  · obtain ⟨sameFirst, second⟩ := List.cons_prefix_cons.mp atFront
    cases text with
    | nil => exact absurd (List.prefix_nil.mp second) (List.cons_ne_nil _ _)
    | cons d rest => exact stays ⟨sameFirst.symm, congrArg some (List.cons_prefix_cons.mp second).1.symm⟩
  · exact unclosed inside

theorem Line.placed_comment_cons (line : Line) (column : Nat) (c : Char) (text : List Char) (later : List Piece) :
    line.placed column (.comment (c :: text) :: later) = line.placed (column + 1) (.comment text :: later) := by
  have same : column + (text.length + 1) = column + 1 + text.length := by omega
  exact congrArg (line.placed · later) same

section

variable {pieces : List Piece} {after : Bool}

/-- A character that does not close an open comment belongs to it. -/
theorem Divides.grow (divides : Divides true pieces after) {c : Char}
    (stays : ¬(c = '*' ∧ (pieces.flatMap Piece.text).head? = some '/')) (line : Line) (column : Nat) :
    ∃ pieces', Divides true pieces' after ∧ pieces'.flatMap Piece.text = c :: pieces.flatMap Piece.text ∧
      line.placed column pieces' = line.placed (column + 1) pieces := by
  cases divides with
  | @closed _ _ body later first behind =>
    have sameHead : (body ++ ['*']).head? = ((Piece.comment (opening true ++ (body ++ ['*', '/'])) :: later).flatMap Piece.text).head? := by
      cases body <;> rfl
    rw [← sameHead] at stays
    exact ⟨_, @Divides.closed true after (c :: body) later (first.cons stays) behind, rfl, line.placed_comment_cons _ _ _ _⟩
  | @goesOn _ body unclosed =>
    have sameHead : body.head? = ([Piece.comment (opening true ++ body)].flatMap Piece.text).head? := by
      cases body <;> rfl
    rw [← sameHead] at stays
    exact ⟨_, @Divides.goesOn true (c :: body) (unclosed.cons stays), rfl, rfl⟩

/-- An open comment may have been opened at its front. -/
theorem Divides.openAt (divides : Divides true pieces after) (line : Line) (column : Nat) :
    ∃ pieces', Divides false pieces' after ∧ pieces'.flatMap Piece.text = '/' :: '*' :: pieces.flatMap Piece.text ∧
      line.placed column pieces' = line.placed (column + 2) pieces := by
  cases divides with
  | @closed _ _ body later first behind =>
    exact ⟨_, @Divides.closed false after body later first behind, rfl,
      (line.placed_comment_cons _ _ _ _).trans (line.placed_comment_cons _ _ _ _)⟩
  | @goesOn _ body unclosed => exact ⟨_, @Divides.goesOn false body unclosed, rfl, rfl⟩

end

theorem eq_cons_tail {rest : List Char} {d : Char} (next : rest.head? = some d) : rest = d :: rest.tail := by
  cases rest with
  | nil => contradiction
  | cons e later =>
    cases next
    rfl

/-- The tokens of a line stand in its pieces. -/
theorem tokensFrom_divides (line : Line) (column : Nat) (inComment : Bool) (text : List Char) {tokens : List Token}
    (read : (line.tokensFrom column inComment text).1 = .ok tokens) :
    ∃ pieces, Divides inComment pieces (line.tokensFrom column inComment text).2 ∧ pieces.flatMap Piece.text = text ∧
      line.placed column pieces = tokens := by
  fun_induction line.tokensFrom column inComment text generalizing tokens
  case case1 column inComment =>
    cases read
    cases inComment with
    | false => exact ⟨[], .nothing, rfl, rfl⟩
    | true => exact ⟨_, @Divides.goesOn true [] (unclosed_of_length_lt (by decide)), rfl, rfl⟩
  case case2 column c rest closes ih =>
    obtain ⟨rfl, next⟩ := closes
    obtain ⟨pieces, divides, whole, placed⟩ := ih read
    refine ⟨_, @Divides.closed true _ [] pieces (unclosed_of_length_lt (by decide)) divides, ?_, placed⟩
    rw [eq_cons_tail next, ← whole]
    rfl
  case case3 column c rest goesOn ih =>
    obtain ⟨pieces, divides, whole, placed⟩ := ih read
    obtain ⟨pieces', divides', whole', placed'⟩ := divides.grow (whole ▸ goesOn) line column
    exact ⟨pieces', divides', whole'.trans (congrArg _ whole), placed'.trans placed⟩
  case case4 column inComment c rest outside blank ih =>
    obtain rfl : inComment = false := Bool.eq_false_iff.mpr outside
    obtain ⟨pieces, divides, whole, placed⟩ := ih read
    exact ⟨_, .blank blank divides, congrArg _ whole, placed⟩
  case case5 column inComment c rest outside _ lineComment =>
    obtain rfl : inComment = false := Bool.eq_false_iff.mpr outside
    obtain ⟨rfl, next⟩ := lineComment
    cases read
    refine ⟨_, @Divides.lineComment rest.tail, ?_, rfl⟩
    rw [List.flatMap_singleton, Piece.text, ← eq_cons_tail next]
  case case6 column inComment c rest outside _ _ opens ih =>
    obtain rfl : inComment = false := Bool.eq_false_iff.mpr outside
    obtain ⟨rfl, next⟩ := opens
    obtain ⟨pieces, divides, whole, placed⟩ := ih read
    obtain ⟨pieces', divides', whole', placed'⟩ := divides.openAt line column
    refine ⟨pieces', divides', ?_, placed'.trans placed⟩
    rw [whole', whole, ← eq_cons_tail next]
  case case7 => contradiction
  case case8 column inComment c rest outside _ _ _ kind length found token later ih =>
    obtain rfl : inComment = false := Bool.eq_false_iff.mpr outside
    cases result : later.1 with
    | error fault =>
      rw [result] at read
      contradiction
    | ok others =>
      rw [result] at read
      cases read
      obtain ⟨positive, bound⟩ := lexeme_length found
      obtain ⟨pieces, divides, whole, placed⟩ := ih result
      have takes : ((c :: rest).take length).length = length := by
        rw [List.length_take]
        exact Nat.min_eq_left bound
      refine ⟨.token kind ((c :: rest).take length) :: pieces, .token ?_ divides, ?_, ?_⟩
      · exact List.ne_nil_of_length_pos (takes.symm ▸ positive)
      · have behind : rest.drop (length - 1) = (c :: rest).drop length := (List.drop_cons positive).symm
        rw [List.flatMap_cons, whole, behind]
        exact List.take_append_drop length (c :: rest)
      · rw [Line.placed, takes, placed]

/-- A text that begins with a token, in a column where no comment is open: the token is its front, and what is read
behind the token does not depend on it. -/
def Line.ReadsFirst (line : Line) (column : Nat) (kind : TokenKind) (text behind : List Char) : Prop :=
  line.tokensFrom column false (text ++ behind) =
    ((line.tokensFrom (column + text.length) false behind).1.map (line.token column kind text :: ·),
      (line.tokensFrom (column + text.length) false behind).2)

theorem Line.readsFirst {c : Char} {rest : List Char} (begins : BeginsToken c rest) (line : Line) (column : Nat)
    {kind : TokenKind} {length : Nat} (found : lexeme c rest = .ok (kind, length)) :
    line.ReadsFirst column kind ((c :: rest).take length) ((c :: rest).drop length) := by
  obtain ⟨positive, bound⟩ := lexeme_length found
  have behind : rest.drop (length - 1) = (c :: rest).drop length := (List.drop_cons positive).symm
  have taken : ((c :: rest).take length).length = length := by
    rw [List.length_take]
    exact Nat.min_eq_left bound
  rw [ReadsFirst, List.take_append_drop, tokensFrom_token line column begins found, taken, behind]

end Satzbau.Lexer

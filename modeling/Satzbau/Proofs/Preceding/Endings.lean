import Satzbau.Proofs.Parsing.ExtendedExpressions
import Satzbau.Proofs.Pointing.Places

namespace Satzbau

namespace Parser

variable {α β : Type}

theorem bind_error {p : Parser α} {f : α → Parser β} {scope : Scope} {s : State} {fault : Diagnostic}
    (run : p scope s = .error fault) : (p >>= f) scope s = .error fault := by
  show (p scope s >>= fun step => f step.1 scope step.2) = _
  rw [run]
  rfl

/-- Two ways in which an input can go on. All of the first is late, whatever that means of a place. -/
structure Endings where
  late : Location → Prop
  items : List (Except Diagnostic Token)
  last : Token
  items' : List (Except Diagnostic Token)
  last' : Token
  itemsLate : ∀ item ∈ items, IsAt late item
  lastLate : late last.location

/-- How far a parser goes at most: it stays in its line, leaves it, or stays at the end of a later line. -/
inductive Reach
  | line
  | past
  | atEnd

/-- Whether the end of a line may be left by a parser. -/
def Reach.leaves : Reach → Bool
  | atEnd => true
  | _ => false

/-- A part of an input that ends with a line or with a fault. -/
structure IsFront (items : List (Except Diagnostic Token)) : Prop where
  nonempty : items ≠ []
  ends : ∀ token, items.getLast? = some (.ok token) → token.kind = .lineEnd

theorem IsFront.suffix {items left : List (Except Diagnostic Token)} (isFront : IsFront items) (cut : left <:+ items)
    (nonempty : left ≠ []) : IsFront left := by
  obtain ⟨taken, rfl⟩ := cut
  exact ⟨nonempty, fun token last => isFront.ends token (by rw [List.getLast?_append, last]; rfl)⟩

/-- Behind a token that does not end a line there is more. -/
theorem IsFront.left {token : Token} {left : List (Except Diagnostic Token)} (isFront : IsFront (.ok token :: left))
    (inside : token.kind ≠ .lineEnd) : IsFront left := by
  refine isFront.suffix (List.suffix_cons ..) ?_
  rintro rfl
  exact inside (isFront.ends token rfl)

namespace Endings

variable (E : Endings)

/-- An input of which all is late, but for the end of a line that may be left at its front. -/
inductive Behind : Bool → List (Except Diagnostic Token) → Prop
  | late {pending : Bool} {items : List (Except Diagnostic Token)} (late : ∀ item ∈ items, IsAt E.late item) :
    Behind pending items
  | pending {token : Token} {items : List (Except Diagnostic Token)} (kind : token.kind = .lineEnd)
    (late : ∀ item ∈ items, IsAt E.late item) : Behind true (.ok token :: items)

/-- What comes of an input of which all is late: something good, or a fault that is late. -/
inductive Ends (reach : Reach) (good : α → Prop) : Except Diagnostic (α × State) → Prop
  | ok {a : α} {t : State} (behind : E.Behind reach.leaves t.items) (isGood : good a) : Ends reach good (.ok (a, t))
  | error {fault : Diagnostic} (late : fault.PointsAt E.late) : Ends reach good (.error fault)

/-- What comes of an input that goes on in two ways: the same, with as much of its front left in both cases; or the
front is used up, if that may be, and then whatever comes of the first way is late. -/
inductive Agrees (uses : Bool) (reach : Reach) (front : List (Except Diagnostic Token)) :
    Except Diagnostic (α × State) → Except Diagnostic (α × State) → Prop
  | error {fault : Diagnostic} : Agrees uses reach front (.error fault) (.error fault)
  | ok {a : α} {left : List (Except Diagnostic Token)} {id : NodeId} (isFront : IsFront left) (cut : left <:+ front)
    (used : uses = true → left.length < front.length) :
    Agrees uses reach front (.ok (a, ⟨left ++ E.items, id⟩)) (.ok (a, ⟨left ++ E.items', id⟩))
  | passed {a : α} {t : State} {other : Except Diagnostic (α × State)} (goesOn : reach ≠ .line)
    (behind : E.Behind reach.leaves t.items) : Agrees uses reach front (.ok (a, t)) other
  | failed {fault : Diagnostic} {other : Except Diagnostic (α × State)} (goesOn : reach ≠ .line)
    (late : fault.PointsAt E.late) : Agrees uses reach front (.error fault) other

/-- What is known of the token at the front. -/
def Sees (around : List Construct) (s : State) (front : Token → Prop) : Prop :=
  ∀ token, peek ⟨around, E.last⟩ s = .ok (token, s) → front token

variable {E}

theorem Behind.pass {pending pending' : Bool} {items : List (Except Diagnostic Token)} (behind : E.Behind pending items)
    (allowed : pending = true → pending' = true) : E.Behind pending' items := by
  cases behind with
  | late late => exact .late late
  | pending kind late =>
    rw [allowed rfl]
    exact .pending kind late

/-- What comes of what is left comes of the whole. -/
theorem Agrees.ofLeft {uses uses' : Bool} {reach : Reach} {items left : List (Except Diagnostic Token)}
    {r r' : Except Diagnostic (α × State)} (agrees : E.Agrees uses' reach left r r') (cut : left <:+ items)
    (used : uses = true → uses' = true ∨ left.length < items.length) : E.Agrees uses reach items r r' := by
  cases agrees with
  | error => exact .error
  | ok isFront cut' used' =>
    refine .ok isFront (cut'.trans cut) fun takes => ?_
    rcases used takes with again | before
    · exact Nat.lt_of_lt_of_le (used' again) cut.length_le
    · exact Nat.lt_of_le_of_lt cut'.length_le before
  | passed goesOn behind => exact .passed goesOn behind
  | failed goesOn late => exact .failed goesOn late

theorem Ends.bind {p : Parser β} {f : β → Parser α} {scope : Scope} {s : State} {reach reach' : Reach} {good : α → Prop}
    {good' : β → Prop} (first : E.Ends reach' good' (p scope s))
    (next : ∀ b t, p scope s = .ok (b, t) → good' b → E.Behind reach'.leaves t.items → E.Ends reach good (f b scope t)) :
    E.Ends reach good ((p >>= f) scope s) := by
  generalize outcome : p scope s = r at first
  cases first with
  | ok behind isGood =>
    rw [bind_ok outcome]
    exact next _ _ outcome isGood behind
  | error late =>
    rw [bind_error outcome]
    exact .error late

/-- Behind the front part only the first way counts. -/
theorem Ends.agrees {uses : Bool} {reach : Reach} {good : α → Prop} {items : List (Except Diagnostic Token)}
    {r r' : Except Diagnostic (α × State)} (ends : E.Ends reach good r) (goesOn : reach ≠ .line) :
    E.Agrees uses reach items r r' := by
  cases ends with
  | ok behind _ => exact .passed goesOn behind
  | error late => exact .failed goesOn late

end Endings

/-- What the front part of an input decides, of at most some length: `p` and `q` make the same of it, however the input
goes on, unless it is used up; behind it, what `p` blames is late. `uses` says that a token is taken, and `pending`
that the end of a line may be left when all behind it is late. `known` is what is known of what was read if it all was
late, `front` what is known of the token at the front. -/
structure Decides (E : Endings) (limit : Nat) (uses pending : Bool) (reach : Reach) (front : Token → Prop) (known : Prop)
    (p q : Parser α) (good : α → Prop) : Prop where
  behind : ∀ around s, known → E.Behind pending s.items → E.Sees around s front →
    E.Ends reach good (p ⟨around, E.last⟩ s)
  before : ∀ around items id, IsFront items → items.length ≤ limit → E.Sees around ⟨items ++ E.items, id⟩ front →
    E.Agrees uses reach items (p ⟨around, E.last⟩ ⟨items ++ E.items, id⟩) (q ⟨around, E.last'⟩ ⟨items ++ E.items', id⟩)

namespace Decides

variable {E : Endings} {limit : Nat} {uses pending : Bool} {reach : Reach} {front : Token → Prop} {known : Prop}
  {p q : Parser α} {good : α → Prop}

theorem seen {front' : Token → Prop} (decides : Decides E limit uses pending reach front known p q good)
    (better : ∀ token, front' token → front token) : Decides E limit uses pending reach front' known p q good :=
  ⟨fun around s isKnown behind sees => decides.behind around s isKnown behind fun token saw => better token (sees token saw),
    fun around items id isFront short sees =>
      decides.before around items id isFront short fun token saw => better token (sees token saw)⟩

theorem anywhere (decides : Decides E limit uses pending reach (fun _ => True) known p q good) :
    Decides E limit uses pending reach front known p q good :=
  decides.seen fun _ _ => trivial

theorem always {known' : Prop} (decides : Decides E limit uses pending reach front known p q good)
    (better : known' → known) : Decides E limit uses pending reach front known' p q good :=
  ⟨fun around s isKnown => decides.behind around s (better isKnown), decides.before⟩

/-- A shorter front part is decided as well. -/
theorem less {shorter : Nat} (decides : Decides E limit uses pending reach front known p q good)
    (fits : shorter ≤ limit) : Decides E shorter uses pending reach front known p q good :=
  ⟨decides.behind, fun around items id isFront short =>
    decides.before around items id isFront (Nat.le_trans short fits)⟩

/-- Behind the front part, only the first parser counts. -/
theorem ofZero {q' : Parser α} (decides : Decides E limit uses pending reach front known p q good) :
    Decides E 0 uses pending reach front known p q' good :=
  ⟨decides.behind, fun _ _ _ isFront empty =>
    absurd (List.eq_nil_of_length_eq_zero (Nat.le_zero.mp empty)) isFront.nonempty⟩

theorem pure {a : α} (isGood : known → good a) :
    Decides E limit false false reach front known (Pure.pure a) (Pure.pure a) good :=
  ⟨fun _ _ isKnown behind _ => .ok (behind.pass nofun) (isGood isKnown),
    fun _ _ _ isFront _ _ => .ok isFront (List.suffix_refl _) fun impossible => (nomatch impossible)⟩

/-- Nothing is done any more, maybe at the end of a line. -/
theorem rest {a : α} : Decides E limit false pending .atEnd front known (Pure.pure a) (Pure.pure a) fun _ => True :=
  ⟨fun _ _ _ behind _ => .ok (behind.pass fun _ => rfl) trivial,
    fun _ _ _ isFront _ _ => .ok isFront (List.suffix_refl _) fun impossible => (nomatch impossible)⟩

theorem throw {place : Location} {fault : Fault} (late : known → E.late place) (plain : fault.first? = none) :
    Decides E limit uses pending reach front known (throw (.located place fault)) (throw (.located place fault)) good :=
  ⟨fun _ _ isKnown _ _ => .error (.located (late isKnown) plain), fun _ _ _ _ _ _ => .error⟩

theorem fail {f g : β → Parser α} {place : Location} {fault : Fault} (late : known → E.late place)
    (plain : fault.first? = none) :
    Decides E limit uses pending reach front known (MonadExcept.throw (.located place fault) >>= f)
      (MonadExcept.throw (.located place fault) >>= g) good :=
  ⟨fun _ _ isKnown _ _ => .error (.located (late isKnown) plain), fun _ _ _ _ _ _ => .error⟩

theorem failInternal {f g : β → Parser α} {message : String} :
    Decides E limit uses pending reach front known (MonadExcept.throw (.unlocated (.internal message)) >>= f)
      (MonadExcept.throw (.unlocated (.internal message)) >>= g) good :=
  ⟨fun _ _ _ _ _ => .error (.unlocated rfl rfl), fun _ _ _ _ _ _ => .error⟩

theorem within (construct : Construct) (decides : Decides E limit uses pending reach front known p q good) :
    Decides E limit uses pending reach front known (Parser.within construct p) (Parser.within construct q) good :=
  ⟨fun around s isKnown behind sees => decides.behind (construct :: around) s isKnown behind sees,
    fun around items id isFront short sees => decides.before (construct :: around) items id isFront short sees⟩

section bind

variable {p' q' : Parser β} {f g : β → Parser α} {good' : β → Prop} {uses' pending' : Bool} {reach' : Reach} {limit' : Nat}

/-- Two parsers, one after the other. If the first may leave its line, nothing is known of what it read. -/
theorem sequence {known' : β → Prop} (first : Decides E limit uses' pending reach' front known p' q' good')
    (next : ∀ b, Decides E limit' uses pending' reach (fun _ => True) (known' b) (f b) (g b) good)
    (fits : limit ≤ limit' ∨ uses' = true ∧ limit ≤ limit' + 1) {takes : Bool}
    (taken : takes = true → uses' = true ∨ uses = true) (left : reach'.leaves = true → pending' = true)
    (handed : reach' ≠ .line → reach ≠ .line ∧ ∀ b, known' b) (better : ∀ b, known → good' b → known' b) :
    Decides E limit takes pending reach front known (p' >>= f) (q' >>= g) good := by
  constructor
  · intro around s isKnown behind sees
    exact (first.behind around s isKnown behind sees).bind fun b t _ isGood behind' =>
      (next b).behind around t (better b isKnown isGood) (behind'.pass left) fun _ _ => trivial
  · intro around items id isFront short sees
    have run := first.before around items id isFront short sees
    generalize outcome : p' ⟨around, E.last⟩ ⟨items ++ E.items, id⟩ = r at run
    generalize outcome' : q' ⟨around, E.last'⟩ ⟨items ++ E.items', id⟩ = r' at run
    cases run with
    | error =>
      rw [bind_error outcome, bind_error outcome']
      exact .error
    | @ok b left id' isFront' cut used =>
      rw [bind_ok outcome, bind_ok outcome']
      have shorter := cut.length_le
      have short' : left.length ≤ limit' := by
        rcases fits with fits | ⟨isUsed, fits⟩
        · omega
        · have := used isUsed
          omega
      exact ((next b).before around left id' isFront' short' fun _ _ => trivial).ofLeft cut fun isTaken =>
        (taken isTaken).symm.imp_right used
    | passed goesOn behind =>
      obtain ⟨further, isKnown⟩ := handed goesOn
      rw [bind_ok outcome]
      exact ((next _).behind around _ (isKnown _) (behind.pass left) fun _ _ => trivial).agrees further
    | failed goesOn late =>
      rw [bind_error outcome]
      exact .failed (handed goesOn).1 late

/-- Something behind a parser that stays in its line. -/
theorem bind (first : Decides E limit false false .line front known p' q' good')
    (next : ∀ b, Decides E limit uses false reach (fun _ => True) (known ∧ good' b) (f b) (g b) good) :
    Decides E limit uses false reach front known (p' >>= f) (q' >>= g) good :=
  sequence first next (Or.inl (Nat.le_refl _)) Or.inr nofun (absurd rfl) fun _ isKnown isGood => ⟨isKnown, isGood⟩

/-- Something behind a parser that stays in its line and may have taken a token. -/
theorem take (first : Decides E limit uses false .line front known p' q' good')
    (next : ∀ b, Decides E limit false false reach (fun _ => True) (known ∧ good' b) (f b) (g b) good) :
    Decides E limit uses false reach front known (p' >>= f) (q' >>= g) good :=
  sequence first next (Or.inl (Nat.le_refl _)) Or.inl nofun (absurd rfl) fun _ isKnown isGood => ⟨isKnown, isGood⟩

/-- Something behind a parser that stays in its line and takes a token. -/
theorem after (first : Decides E (limit + 1) true false .line front known p' q' good')
    (next : ∀ b, Decides E limit false false reach (fun _ => True) (known ∧ good' b) (f b) (g b) good) :
    Decides E (limit + 1) uses false reach front known (p' >>= f) (q' >>= g) good :=
  sequence first next (Or.inr ⟨rfl, Nat.le_refl _⟩) (fun _ => Or.inl rfl) nofun (absurd rfl) fun _ isKnown isGood =>
    ⟨isKnown, isGood⟩

/-- Something behind a parser that may leave its line. -/
theorem cross (first : Decides E limit false pending reach' front known p' q' good')
    (next : ∀ b, Decides E limit uses reach'.leaves reach (fun _ => True) True (f b) (g b) good) (goesOn : reach ≠ .line) :
    Decides E limit uses pending reach front known (p' >>= f) (q' >>= g) good :=
  sequence first next (Or.inl (Nat.le_refl _)) Or.inr id (fun _ => ⟨goesOn, fun _ => trivial⟩) fun _ _ _ => trivial

/-- Something behind a parser that takes a token and may leave its line. -/
theorem crossAfter (first : Decides E (limit + 1) true pending reach' front known p' q' good')
    (next : ∀ b, Decides E limit false reach'.leaves reach (fun _ => True) True (f b) (g b) good) (goesOn : reach ≠ .line) :
    Decides E (limit + 1) uses pending reach front known (p' >>= f) (q' >>= g) good :=
  sequence first next (Or.inr ⟨rfl, Nat.le_refl _⟩) (fun _ => Or.inl rfl) id (fun _ => ⟨goesOn, fun _ => trivial⟩)
    fun _ _ _ => trivial

/-- What a parser made is put into something else. -/
theorem map (f : β → α) (decides : Decides E limit uses pending .past front known p' q' good') :
    Decides E limit uses pending .past front known (f <$> p') (f <$> q') fun _ => True := by
  rw [map_eq_pure_bind, map_eq_pure_bind]
  exact sequence decides (fun _ => pure fun _ => trivial) (Or.inl (Nat.le_refl _)) Or.inl nofun
    (fun _ => ⟨nofun, fun _ => trivial⟩) fun _ _ _ => trivial

theorem read {f g : Scope → Parser α}
    (next : ∀ around, Decides E limit uses pending reach front known (f ⟨around, E.last⟩) (g ⟨around, E.last'⟩) good) :
    Decides E limit uses pending reach front known (MonadReaderOf.read >>= f) (MonadReaderOf.read >>= g) good :=
  ⟨fun around => (next around).behind around, fun around => (next around).before around⟩

/-- A look at the token at the front tells the parsers behind it the same. -/
theorem look {p' : Parser β} {knows : β → Token → Prop} (looks : Looks p' knows)
    (first : Decides E limit false false .line front known p' p' good')
    (next : ∀ b, Decides E limit uses false reach (fun token => front token ∧ knows b token) (known ∧ good' b) (f b) (g b)
      good) :
    Decides E limit uses false reach front known (p' >>= f) (p' >>= g) good := by
  constructor
  · intro around s isKnown behind sees
    refine (first.behind around s isKnown behind sees).bind fun b t outcome isGood _ => ?_
    obtain ⟨rfl, saw⟩ := looks _ _ _ _ outcome
    exact (next b).behind around t ⟨isKnown, isGood⟩ behind fun token seen => ⟨sees token seen, saw token seen⟩
  · intro around items id isFront short sees
    have run := first.before around items id isFront short sees
    generalize outcome : p' ⟨around, E.last⟩ ⟨items ++ E.items, id⟩ = r at run
    generalize outcome' : p' ⟨around, E.last'⟩ ⟨items ++ E.items', id⟩ = r' at run
    cases run with
    | error =>
      rw [bind_error outcome, bind_error outcome']
      exact .error
    | @ok b left id' isFront' cut used =>
      obtain ⟨same, saw⟩ := looks _ _ _ _ outcome
      rw [bind_ok outcome, bind_ok outcome']
      obtain ⟨sameItems, rfl⟩ := State.mk.inj same
      obtain rfl : left = items := List.append_cancel_right sameItems
      exact (next b).before around left id' isFront short fun token seen => ⟨sees token seen, saw token seen⟩
    | passed impossible => contradiction
    | failed impossible => contradiction

end bind

end Decides

end Parser

end Satzbau

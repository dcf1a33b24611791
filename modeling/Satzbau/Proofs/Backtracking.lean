import Satzbau.Proofs.Checking.Search
import Satzbau.Proofs.Internal.Checking
import Satzbau.Proofs.Parsing.NumberedDefinitions
import Satzbau.Proofs.Text

namespace Satzbau

/-- The cases with which a check of a program passes, each found by its preposition alone. -/
def CaseChoice.settled (dictionary : Dictionary) : CaseChoice where
  ofCall g := (g.settledCase? (Checker.checkArguments dictionary)).getD .nominative
  ofHeader g := (g.settledCase? (Checker.checkParameters dictionary)).getD .nominative

theorem CaseChoice.noted_below_settled (dictionary : Dictionary) (a : Annotations) :
    (Judgement.noted dictionary a).Below ((CaseChoice.settled dictionary).judgement dictionary) where
  reads _ _ _ _ known := Judgement.free_reads.mpr known.1
  ofCall g c settled := by
    show (g.settledCase? (Checker.checkArguments dictionary)).getD .nominative = c
    rw [settled]
    rfl
  ofHeader g c settled := by
    show (g.settledCase? (Checker.checkParameters dictionary)).getD .nominative = c
    rw [settled]
    rfl

/-- The search for the cases of prepositions is complete: a program is accepted exactly if there is a
choice of one case for each preposition under which the whole program agrees. No attempt that failed
has an effect on a later one, and the cases of different prepositions do not depend on each other. -/
theorem TokenStream.annotations_isOk_iff {stream : TokenStream} {p : Program} (parsed : stream.program = .ok p)
    (dictionary : Dictionary) :
    (∃ a, p.annotations dictionary = .ok a) ↔ ∃ choice : CaseChoice, p.Agrees (choice.judgement dictionary) := by
  have distinct := stream.nodup_ids parsed
  have settles := Program.check_settles dictionary p
  constructor
  · rintro ⟨a, checked⟩
    have agrees := Program.agrees_noted distinct checked
    exact ⟨.settled dictionary, settles.mono _ _ () (CaseChoice.noted_below_settled dictionary a) agrees⟩
  · rintro ⟨choice, agrees⟩
    have free := settles.mono _ _ () (choice.below_free dictionary) agrees
    have passes := settles.complete distinct .empty (fun _ _ => rfl) () free
    exact ⟨((p.check dictionary).run .empty).2, Program.annotations_eq_ok.mpr (Prod.ext passes rfl)⟩

/-- `Mensch`, most of whose forms are the same. -/
def mensch : Declension :=
  ⟨.masculine, ⟨"Mensch", "Menschen", "Menschen", "Menschen"⟩, ⟨"Menschen", "Menschen", "Menschen", "Menschen"⟩⟩

def zahl : Declension :=
  ⟨.feminine, ⟨"Zahl", "Zahl", "Zahl", "Zahl"⟩, ⟨"Zahlen", "Zahlen", "Zahlen", "Zahlen"⟩⟩

/-- The preposition `auf` governs the dative and the accusative, and what stands behind it here is an
accusative. -/
theorem agrees_behind_auf :
    ∃ p, (TokenStream.ofText .none ⟨"satz"⟩ "lege die Zahl auf einen Menschen
").program = .ok p ∧
      ∃ choice : CaseChoice, p.Agrees (choice.judgement ⟨[mensch, zahl]⟩) := by
  have stream := TokenStream.ofText_eq .none ⟨"satz"⟩ "lege die Zahl auf einen Menschen\n" (by decide +kernel)
  have passes : ((TokenStream.ofText .none ⟨"satz"⟩ "lege die Zahl auf einen Menschen\n").program.bind
      fun p => p.annotations ⟨[mensch, zahl]⟩).isOk = true := by
    rw [stream]
    decide +kernel
  obtain ⟨p, a, parsed, checked⟩ := exists_ok_of_bind passes
  exact ⟨p, parsed, (TokenStream.annotations_isOk_iff parsed _).mp ⟨a, checked⟩⟩

namespace Checker

open Checking

/-- What trying some cases comes to, one after the other and each on the same annotations. The first one
with which the check passes decides, as if it had been the only one. If there is none, the annotations are
what they were, and the last one says why. -/
inductive Tries (check : Case → Checking Unit) (a : Annotations) : List Case → Except Diagnostic Unit × Annotations → Prop
  | passes {before after : List Case} {c : Case} {b : Annotations}
    (failed : ∀ d ∈ before, ∃ fault, ((check d).run a).1 = .error fault) (passed : (check c).run a = (.ok (), b)) :
    Tries check a (before ++ c :: after) (.ok (), b)
  | fails {before : List Case} {last : Case} {fault : Diagnostic}
    (failed : ∀ d ∈ before, ∃ fault, ((check d).run a).1 = .error fault)
    (why : ((check last).run a).1 = .error fault) : Tries check a (before ++ [last]) (.error fault, a)

variable {check : Case → Checking Unit} {a : Annotations}

/-- One more case that fails, before the others. -/
theorem Tries.behind {c : Case} {others : List Case} {result : Except Diagnostic Unit × Annotations} {fault : Diagnostic}
    (failed : ((check c).run a).1 = .error fault) (tries : Tries check a others result) :
    Tries check a (c :: others) result := by
  cases tries with
  | passes failedBefore passed =>
    exact @Tries.passes check a (c :: _) _ _ _ (List.forall_mem_cons.mpr ⟨⟨fault, failed⟩, failedBefore⟩) passed
  | fails failedBefore why =>
    exact @Tries.fails check a (c :: _) _ _ (List.forall_mem_cons.mpr ⟨⟨fault, failed⟩, failedBefore⟩) why

/-- Each attempt starts from the annotations that the first one found: what a failed one has recorded is
forgotten, and it has changed nothing else. -/
theorem tries_tryCases {ids : List NodeId} (grows : ∀ c a, Annotations.Grew ids a ((check c).run a).2)
    (failure : Diagnostic) {cases : List Case} (some : cases ≠ []) :
    Tries check a cases ((tryCases check failure cases).run a) := by
  induction cases generalizing failure with
  | nil => contradiction
  | cons c others ih =>
    have undone := (grows c a).rollback
    rw [tryCases_run_cons]
    rcases outcome : (check c).run a with ⟨fault | _, b⟩
    · rw [outcome] at undone
      dsimp only at undone ⊢
      rw [undone]
      have failed : ((check c).run a).1 = .error fault := congrArg Prod.fst outcome
      cases others with
      | nil => exact @Tries.fails check a [] c fault nofun failed
      | cons d later => exact .behind failed (ih fault (List.cons_ne_nil d later))
    · exact @Tries.passes check a [] others c b nofun outcome

/-- A preposition is checked by trying the cases that it governs. An unknown one is a fault that leaves the
annotations as they are. -/
def TriesCases (preposition : Token) (check : Case → Checking Unit) (a : Annotations) : Prop :=
  match Preposition.cases? preposition.text with
  | none => (checkGroup preposition check).run a = (.error (preposition.unexpected "a preposition"), a)
  | some cases => Tries check a cases ((checkGroup preposition check).run a)

theorem triesCases {ids : List NodeId} (grows : ∀ c a, Annotations.Grew ids a ((check c).run a).2)
    (preposition : Token) (a : Annotations) : TriesCases preposition check a := by
  unfold TriesCases checkGroup
  cases known : Preposition.cases? preposition.text with
  | none => rfl
  | some cases => exact tries_tryCases grows _ (Preposition.cases?_ne_nil known)

/-- A failed attempt leaves no trace. Whatever was annotated before, the roles of a preposition are checked
as if there had been nothing but one check of them, with the first case in which they all agree; if they
agree in none, nothing is annotated, and the fault is the one that the last case alone would give. Values
of the roles of a call may hold calls with prepositions of their own. -/
theorem checkGroup_leaves_no_trace (dictionary : Dictionary) (a : Annotations) :
    (∀ g : PrepositionGroup Argument,
      TriesCases g.preposition (fun c => checkArguments dictionary c g.items) a) ∧
    ∀ g : PrepositionGroup Parameter,
      TriesCases g.preposition (fun c => g.items.forM fun p => resolveIn dictionary p.phrase c .all) a :=
  ⟨fun g => triesCases (fun c => (checkArguments_settles c g.items).grows) g.preposition a,
    fun g => triesCases (fun c => (checkParameters_settles c g.items).grows) g.preposition a⟩

end Checker

end Satzbau

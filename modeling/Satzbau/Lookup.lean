import Satzbau.Declension
import Satzbau.Token

namespace Satzbau

/-- What a dictionary service says about a word, and after how many milliseconds. -/
structure Answer where
  result : Except LookupFailure Declension
  delay : Nat

/-- A service that is asked for declensions. -/
structure LookupService where
  answer : String → Answer

namespace LookupService

def offline : LookupService :=
  ⟨fun _ => ⟨.error .noConnectivity, 0⟩⟩

/-- A service that knows some answers and gives all of them after the same time. -/
def ofList (answers : List (String × Except LookupFailure Declension)) (delay : Nat) : LookupService :=
  ⟨fun word => ⟨(answers.lookup word).getD (.error (.notFound word)), delay⟩⟩

/-- What comes of asking for a word with a limit on the time. -/
def outcome (service : LookupService) (timeout : Nat) (word : String) : Except LookupFailure Declension :=
  let answer := service.answer word
  if answer.delay ≤ timeout then answer.result else .error (.timeout word)

end LookupService

/-- A declension that is left to the service: the statement that does so and the word it names. -/
structure LookupRequest where
  statement : Token
  word : Token
deriving DecidableEq, Repr

/-- How a failed lookup is reported at the word that was looked up. -/
def LookupFailure.diagnostic (word : Token) : LookupFailure → Diagnostic
  | notFound _ | unreadable _ => word.blame (.externalWordNotFound word.text)
  | noConnectivity => word.blame (.noConnectivity word.text)
  | timeout w => word.blame (.external (timeout w))
  | serverError message => word.blame (.external (serverError message))

/-- The end of one of several lookups, which is told by its index. -/
structure Arrival where
  index : Nat
  outcome : Except LookupFailure Declension

/-- All lookups start at once, so each ends when its answer comes or its time is over, whichever
is earlier. -/
def LookupService.arrivals (service : LookupService) (timeout : Nat) (requests : List LookupRequest) :
    List Arrival :=
  let ends := requests.mapIdx fun index request =>
    (min (service.answer request.word.text).delay timeout,
      (⟨index, service.outcome timeout request.word.text⟩ : Arrival))
  (ends.mergeSort fun a b => a.1 ≤ b.1).map Prod.snd

end Satzbau

import Satzbau.Annotation
import Satzbau.Program

namespace Satzbau

/-- What tells functions of one verb apart: the roles they take, each in its case and number, and
how they are introduced. -/
structure Signature where
  verb : String
  object : ObjectRole String
  groups : List (PrepositionGroup String)
  suffix : Option String

namespace Signature

/-- The word for an object that is the subject itself. -/
def reflexive : String :=
  "sich"

/-- A phrase with its definite article, whatever determiner it was written with. A symbol, which has
no article of its own, keeps what was written. -/
def canonicalPhrase (annotations : Annotations) (p : NounPhrase) : Except Diagnostic String := do
  let reading ← annotations.phrase p
  match reading.gender, reading.grammaticalCase with
  | some g, some c => return Determiner.definite.form c g reading.number ++ " " ++ p.word
  | _, _ =>
    match p.determiner with
    | some determiner => return determiner.text ++ " " ++ p.word
    | none => return p.word

def canonicalObject (annotations : Annotations) : ObjectRole NounPhrase → Except Diagnostic (ObjectRole String)
  | .absent => return .absent
  | .thing p => return .thing (← canonicalPhrase annotations p)
  | .reflexive token => return .reflexive token

def canonicalGroup (annotations : Annotations) (g : PrepositionGroup NounPhrase) :
    Except Diagnostic (PrepositionGroup String) :=
  return ⟨g.preposition, ← g.items.mapM (canonicalPhrase annotations)⟩

def ofRoles (annotations : Annotations) (verb : Token) (object : ObjectRole NounPhrase)
    (groups : List (PrepositionGroup NounPhrase)) (suffix : Option Token) : Except Diagnostic Signature := do
  let object ← canonicalObject annotations object
  let groups ← groups.mapM (canonicalGroup annotations)
  return ⟨verb.text, object, groups, suffix.map Token.text⟩

def objectText : ObjectRole String → List String
  | .absent => []
  | .thing phrase => [phrase]
  | .reflexive _ => [reflexive]

def groupText (g : PrepositionGroup String) : String :=
  g.preposition.text ++ " " ++ ", ".intercalate g.items

/-- A signature as one line of words, by which functions are found. -/
def text (s : Signature) : String :=
  " ".intercalate (s.verb :: objectText s.object ++ s.groups.map groupText ++ s.suffix.toList)

end Signature

def FunctionHeader.signature (annotations : Annotations) (h : FunctionHeader) : Except Diagnostic Signature :=
  Signature.ofRoles annotations h.verb (h.object.map Parameter.phrase) (h.groups.map (.map Parameter.phrase)) h.suffix

def Call.signature (annotations : Annotations) (c : Call) : Except Diagnostic Signature :=
  Signature.ofRoles annotations c.verb (c.object.map Argument.phrase) (c.groups.map (.map Argument.phrase)) c.suffix

end Satzbau

import Satzbau.Path

namespace Satzbau

/-- The names that lead from the root of a file tree to one of its members. -/
abbrev Place := List String

/-- A tree of files as the list of its files. Directories are the places above a file, the working
directory and the others that are known, each with the places above it. -/
structure Files where
  contents : List (Place × ByteArray)
  directories : List Place
  workingDirectory : Place

/-- Why a file cannot be read. -/
inductive ReadFault
  | missing
  | notDirectory
  | isDirectory
  | nameTooLong
  | zeroInName
  | badEncoding
deriving DecidableEq, Repr

def ReadFault.message : ReadFault → String
  | missing => "No such file or directory (os error 2)"
  | notDirectory => "Not a directory (os error 20)"
  | isDirectory => "Is a directory (os error 21)"
  | nameTooLong => "File name too long (os error 36)"
  | zeroInName => "file name contained an unexpected NUL byte"
  | badEncoding => "stream did not contain valid UTF-8"

namespace Files

/-- What stands at a place of a file tree. -/
inductive Member
  | file (content : ByteArray)
  | directory

/-- Whether a place lies on the way to something that the tree knows. -/
def isAbove (files : Files) (place : Place) : Bool :=
  place.isPrefixOf files.workingDirectory || files.directories.any place.isPrefixOf ||
    files.contents.any fun entry => place.isPrefixOf entry.1

def member? (files : Files) (place : Place) : Option Member :=
  match files.contents.lookup place with
  | some content => some (.file content)
  | none => if files.isAbove place then some .directory else none

/-- The longest name, in bytes, that a directory can hold, and the longest path. -/
def nameLimit : Nat :=
  255

def pathLimit : Nat :=
  4095

/-- One step of a walk through the tree. Any step, also one that stays, needs a directory to stand
in. -/
def step (files : Files) (place : Place) (segment : String) : Except ReadFault Place :=
  match files.member? place with
  | none => .error .missing
  | some (.file _) => .error .notDirectory
  | some .directory =>
    if segment = "" ∨ segment = "." then .ok place
    else if segment = ".." then .ok place.dropLast
    else if nameLimit < segment.utf8ByteSize then .error .nameTooLong
    else
      match files.member? (place ++ [segment]) with
      | none => .error .missing
      | some _ => .ok (place ++ [segment])

/-- The place from which a path is walked. -/
def startOf (files : Files) (path : Path) : Place :=
  if path.isAbsolute then [] else files.workingDirectory

/-- The place to which a path leads, step by step, however many steps that takes. -/
def walk (files : Files) (path : Path) : Except ReadFault Place :=
  if path.holdsZero then .error .zeroInName
  else if path.written = "" then .error .missing
  else path.steps.foldlM files.step (files.startOf path)

/-- The place that is opened under a path. A path that is opened must not be too long as a whole. -/
def resolve (files : Files) (path : Path) : Except ReadFault Place :=
  if !path.holdsZero && pathLimit < path.written.utf8ByteSize then .error .nameTooLong
  else files.walk path

/-- The text of the file at a place. -/
def textAt (files : Files) (place : Place) : Except ReadFault String :=
  match files.member? place with
  | none => .error .missing
  | some .directory => .error .isDirectory
  | some (.file content) =>
    match String.fromUTF8? content with
    | some text => .ok text
    | none => .error .badEncoding

def read (files : Files) (path : Path) : Except ReadFault String :=
  files.resolve path >>= files.textAt

/-- Gives the file at a place a new text. -/
def writeAt (files : Files) (place : Place) (text : String) : Files :=
  { files with
    contents := files.contents.map fun entry =>
      if entry.1 = place then (place, text.toUTF8) else entry }

/-- Where a step leads if everything on the way is a directory. -/
def stepBlindly (place : Place) (segment : String) : Place :=
  if segment = "" ∨ segment = "." then place
  else if segment = ".." then place.dropLast
  else place ++ [segment]

/-- The places through which some steps lead, up to the one where they end. -/
def passed (place : Place) : List String → List Place
  | [] => [place]
  | segment :: later => place :: passed (stepBlindly place segment) later

/-- A tree that also knows what stands at the end of a path: a file, or a directory if there is no
content. All that is passed on the way is a directory. -/
def learn (files : Files) (path : Path) (content : Option ByteArray) : Files :=
  let places := passed (files.startOf path) path.steps
  match content with
  | none => { files with directories := places ++ files.directories }
  | some content =>
    { files with
      contents := (places.getLast?.getD [], content) :: files.contents
      directories := places.dropLast ++ files.directories }

end Files

/-- What a path stands for: a place in the tree if it leads to one, else its own spelling. -/
inductive FileName
  | found (place : Place)
  | absent (path : Path)
deriving DecidableEq, Repr

namespace FileName

def path : FileName → Path
  | found place => ⟨"/" ++ "/".intercalate place⟩
  | absent path => path

/-- Whether two names count as one: their paths have the same parts. A path that leads nowhere, such as
one that goes on behind a file with a slash, can have the parts of a place. -/
def same (a b : FileName) : Bool :=
  a.path.equiv b.path

theorem same_self (a : FileName) : a.same a = true := by
  simp [same, Path.equiv]

end FileName

namespace Files

/-- The name of what a path leads to. The path is walked and not opened, so it may be of any length. -/
def identify (files : Files) (path : Path) : FileName :=
  match files.walk path with
  | .ok place => .found place
  | .error _ => .absent path

/-- The text behind a name. Behind a path that leads nowhere there is none. -/
def text (files : Files) : FileName → Except ReadFault String
  | .found place => files.textAt place
  | .absent path =>
    match files.resolve path with
    | .error fault => .error fault
    | .ok _ => .error .missing

theorem mem_of_text {files : Files} {name : FileName} {text : String} (readable : files.text name = .ok text) :
    ∃ entry ∈ files.contents, name = .found entry.1 := by
  cases name with
  | absent path =>
    simp only [Files.text] at readable
    split at readable <;> contradiction
  | found place =>
    simp only [Files.text, textAt] at readable
    split at readable
    · contradiction
    · contradiction
    · rename_i content atPlace
      simp only [member?] at atPlace
      split at atPlace
      · rename_i content' found
        obtain ⟨before, after, cut, _⟩ := List.lookup_eq_some_iff.mp found
        exact ⟨(place, content'), by simp [cut], rfl⟩
      · split at atPlace <;> simp at atPlace

end Files

end Satzbau

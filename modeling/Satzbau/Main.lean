import Satzbau.CommandLine.Run
import Satzbau.StandardLibrary

namespace Satzbau.CommandLine

/-- What stands at a path on the disk: a file with its content, a directory, or nothing. -/
def fetch (path : Path) : IO (Option (Option ByteArray)) := do
  try
    let found ← IO.FS.realPath path.written
    if ← found.isDir then return some none
    return some (some (← IO.FS.readBinFile found))
  catch _ => return none

/-- Fetches as much of a path as leads to something. -/
def fetchAlong (path : Path) : IO (Option (Path × Option ByteArray)) :=
  (List.range path.steps.length).reverse.findSomeM? fun last => do
    let along : Path := ⟨"/".intercalate (path.steps.take (last + 1))⟩
    return (← fetch along).map (along, ·)

/-- Fetches what a run would read until nothing more can be fetched. -/
partial def gather (library : Path) (arguments : List String) (asked : List Path) (files : Files) :
    IO Files := do
  match (unread library files arguments).find? fun path => !asked.contains path with
  | none => return files
  | some path =>
    match ← fetchAlong path with
    | some (along, found) => gather library arguments (path :: asked) (files.learn along found)
    | none => gather library arguments (path :: asked) files

/-- Writes the files that a run has changed. -/
def store (before after : Files) : IO Unit :=
  after.contents.forM fun (place, content) => do
    if before.contents.lookup place != some content then
      IO.FS.writeBinFile (FileName.found place).path.written content

/-- The directory in which the program was started, as a tree without files. -/
def here : IO Files := do
  let directory := (← IO.currentDir).toString
  return ⟨[], [], Path.steps ⟨directory⟩ |>.filter (· ≠ "")⟩

/-- The standard library has its place beneath the program's own file, where the disk holds nothing. -/
def libraryPlace : IO Place := do
  let program := (← IO.appPath).toString
  return Path.steps ⟨program ++ "/Standardbibliothek.gm"⟩ |>.filter (· ≠ "")

end Satzbau.CommandLine

open Satzbau in
def main (arguments : List String) : IO UInt32 := do
  let place ← CommandLine.libraryPlace
  let library := (FileName.found place).path
  let files ← CommandLine.gather library arguments [] (StandardLibrary.addTo place (← CommandLine.here))
  let outcome := CommandLine.run library files arguments
  CommandLine.store files outcome.files
  IO.print outcome.output
  IO.eprint outcome.errors
  return outcome.exitCode.toUInt32

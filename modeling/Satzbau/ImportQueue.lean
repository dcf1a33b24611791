import Satzbau.Diagnostic
import Satzbau.Files

namespace Satzbau

/-- The files that are still to be read, in the order in which they were discovered, and those that
were taken out to be read. -/
structure ImportQueue where
  pending : List FileName
  visited : List FileName
deriving DecidableEq, Repr

namespace ImportQueue

def empty : ImportQueue :=
  ⟨[], []⟩

def hasVisited (queue : ImportQueue) (name : FileName) : Bool :=
  queue.visited.any name.same

def isPending (queue : ImportQueue) (name : FileName) : Bool :=
  queue.pending.any name.same

/-- Puts a file at the end of the queue. A file that is waiting stays where it is; a file that was
read before cannot be read again, for which the import is blamed. -/
def enqueue (queue : ImportQueue) (name : FileName) (blamed : Option Location) :
    Except Diagnostic ImportQueue :=
  if queue.hasVisited name then .error ⟨.cyclicImport name.path.written, blamed⟩
  else if queue.isPending name then .ok queue
  else .ok { queue with pending := queue.pending ++ [name] }

def dequeue? (queue : ImportQueue) : Option (FileName × ImportQueue) :=
  match queue.pending with
  | [] => none
  | name :: later => some (name, ⟨later, name :: queue.visited⟩)

theorem dequeue?_eq_some {queue rest : ImportQueue} {name : FileName}
    (dequeued : queue.dequeue? = some (name, rest)) :
    rest.pending.length < queue.pending.length ∧ rest.visited = name :: queue.visited := by
  simp only [dequeue?] at dequeued
  split at dequeued
  · contradiction
  · rename_i pending
    cases dequeued
    simp [pending]

/-- Counts a file as read without reading it. -/
def visit (queue : ImportQueue) (name : FileName) : ImportQueue :=
  { queue with visited := name :: queue.visited }

def ofPaths (files : Files) (paths : List Path) : Except Diagnostic ImportQueue :=
  paths.foldlM (fun queue path => queue.enqueue (files.identify path) none) empty

end ImportQueue

end Satzbau

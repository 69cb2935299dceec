import IcebergCxx.ThreadPool

/-!
# Who owns the pool of a multi-threaded scan

`GetScanMetadataMultiThreaded` and `ManifestFileTask` of `tea_scan.cpp`, as far as the ownership of
the thread pool goes. The calling thread has one `shared_ptr` to the pool and every queued or
running task of a manifest file has one; a worker destroys the functor of a task after the result is
available through the future. What the tasks answer is a parameter: for each manifest file the
statuses of its entries, and whether the task throws after it has submitted them.
-/

namespace IcebergCxx

open Lib

inductive ScanTask
  | manifestFile (i : Nat)
  | manifestEntry (i j : Nat)
  deriving DecidableEq

/-- A `ManifestFileTask` has a copy of the `shared_ptr`, a `ManifestEntryTask` has none. -/
def ScanTask.ownsPool : ScanTask → Bool
  | manifestFile _ => true
  | manifestEntry _ _ => false

/-- What a task of a manifest file comes to: the entries it submits, with whether `AddEntry` of each
succeeds, and whether it throws after that. -/
structure ManifestOutcome where
  statuses : List Bool
  throws : Bool

inductive ScanWorker
  | getTask
  | running (task : ScanTask) (submitted : Nat)
  | resultSet (task : ScanTask)
  deriving DecidableEq

/-- Where the calling thread is; `leaving` is after the last use of the pool, by a return or an
exception, and `left` after the release of its `shared_ptr`. -/
inductive ScanCaller
  | submitting (next : Nat)
  | gettingFutures (next : Nat)
  | gettingStatuses (rest : List (ScanTask × Bool))
  | leaving
  | left
  deriving DecidableEq

/-- The results available so far, and who destroyed the pool: the calling thread or a worker. -/
structure ScanSystem (n : Nat) where
  pool : ThreadPool ScanTask := {}
  workers : Fin n → ScanWorker := fun _ => .getTask
  caller : ScanCaller := .submitting 0
  results : List ScanTask := []
  destroyedBy : Option (Option (Fin n)) := none

/-- The futures of all entries, with what they come to, in the order in which they are waited for. -/
def statusesOf (manifests : List ManifestOutcome) : List (ScanTask × Bool) :=
  manifests.zipIdx.flatMap (fun manifest =>
    manifest.1.statuses.zipIdx.map (fun status => (.manifestEntry manifest.2 status.2, status.1)))

namespace ScanSystem

variable {n : Nat}

def setWorker (s : ScanSystem n) (worker : Fin n) (phase : ScanWorker) : ScanSystem n :=
  { s with workers := Function.update s.workers worker phase }

def workerOwns : ScanWorker → Bool
  | .getTask => false
  | .running task _ => task.ownsPool
  | .resultSet task => task.ownsPool

/-- Some `shared_ptr` to the pool is left. -/
def owned (s : ScanSystem n) : Bool :=
  s.caller ≠ .left || s.pool.tasksToDo.any ScanTask.ownsPool || decide (∃ worker, workerOwns (s.workers worker) = true)

/-- The release of a `shared_ptr` destroys the pool when none is left. -/
def released (actor : Option (Fin n)) (s : ScanSystem n) : ScanSystem n :=
  if s.owned then s else { s with destroyedBy := some actor }

/-- The result of a task is made available. -/
def setResult (s : ScanSystem n) (worker : Fin n) (task : ScanTask) : ScanSystem n :=
  { s with results := s.results ++ [task] }.setWorker worker (.resultSet task)

def stepCaller (manifests : List ManifestOutcome) (s : ScanSystem n) : Option (ScanSystem n) :=
  match s.caller with
  | .submitting next =>
    if next < manifests.length then
      match s.pool.submit (.manifestFile next) with
      | .ok pool => some { s with pool := pool, caller := .submitting (next + 1) }
      | .error _ => some { s with caller := .leaving }
    else some { s with caller := .gettingFutures 0 }
  | .gettingFutures next =>
    match manifests[next]? with
    | none => some { s with caller := .gettingStatuses (statusesOf manifests) }
    | some manifest =>
      if .manifestFile next ∈ s.results then
        some { s with caller := if manifest.throws then .leaving else .gettingFutures (next + 1) }
      else none
  | .gettingStatuses [] => some { s with caller := .leaving }
  | .gettingStatuses ((task, ok) :: rest) =>
    if task ∈ s.results then some { s with caller := if ok then .gettingStatuses rest else .leaving } else none
  | .leaving => some ({ s with caller := .left }.released none)
  | .left => none

def stepWorker (manifests : List ManifestOutcome) (s : ScanSystem n) (worker : Fin n) : Option (ScanSystem n) :=
  match s.workers worker with
  | .getTask =>
    let result := s.pool.getTask
    match result.1 with
    | .task task => some ({ s with pool := result.2 }.setWorker worker (.running task 0))
    | _ => some { s with pool := result.2 }
  | .running (.manifestFile i) submitted =>
    if submitted < ((manifests[i]?).map (fun manifest => manifest.statuses.length)).getD 0 then
      match s.pool.submit (.manifestEntry i submitted) with
      | .ok pool => some ({ s with pool := pool }.setWorker worker (.running (.manifestFile i) (submitted + 1)))
      | .error _ => some (s.setResult worker (.manifestFile i))
    else some (s.setResult worker (.manifestFile i))
  | .running (.manifestEntry i j) _ => some (s.setResult worker (.manifestEntry i j))
  | .resultSet task =>
    let s := s.setWorker worker .getTask
    some (if task.ownsPool then s.released (some worker) else s)

/-- One step of the calling thread or of a worker, as long as there is a pool. -/
def step (manifests : List ManifestOutcome) (s : ScanSystem n) (actor : Option (Fin n)) : Option (ScanSystem n) :=
  if s.destroyedBy.isSome then none
  else
    match actor with
    | none => s.stepCaller manifests
    | some worker => s.stepWorker manifests worker

/-- The state after the steps, when every one of them can be taken. -/
def run (manifests : List ManifestOutcome) (s : ScanSystem n) (actors : List (Option (Fin n))) :
    Option (ScanSystem n) := actors.foldlM (step manifests) s

end ScanSystem

end IcebergCxx

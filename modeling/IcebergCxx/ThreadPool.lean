import IcebergCxx.Basic

/-!
# The thread pool

`threadpool.h`. `ThreadPool` is what the mutex protects, with the locked parts of `Submit`, `Stop`
and `GetTask`. `PoolSystem` is a pool with its workers and the calls of `Stop`, and `step` takes
one of the steps that threads interleave; a task is known by the number of its acceptance, and what
it does while it runs are steps of the others. A worker that waits on the condition variable may
wake at any time.
-/

namespace IcebergCxx

open Lib

inductive PoolStatus
  | running | waitPending | cancelPending
  deriving DecidableEq

structure ThreadPool (α : Type) where
  status : PoolStatus := .running
  tasksToDo : List α := []

/-- What a worker has after the locked part of `GetTask`: it waits on, an empty task, or a task. -/
inductive Fetched (α : Type)
  | wait
  | empty
  | task (task : α)

namespace ThreadPool

variable {α : Type}

def submit (func : α) (pool : ThreadPool α) : Except String (ThreadPool α) := do
  ensure (pool.status = .running) "Submit is impossible, thread pool is stopped"
  return { pool with tasksToDo := pool.tasksToDo ++ [func] }

/-- The locked part of `Stop`, and whether the call goes on to join the threads. -/
def stop (waitForRemainingTasks : Bool) (pool : ThreadPool α) : Bool × ThreadPool α :=
  if pool.status ≠ .running then (false, pool)
  else if waitForRemainingTasks then (true, { pool with status := .waitPending })
  else (true, { pool with status := .cancelPending })

/-- `GetTask` from a check of the waiting loop on. -/
def getTask (pool : ThreadPool α) : Fetched α × ThreadPool α :=
  if pool.tasksToDo.isEmpty && pool.status = .running then (.wait, pool)
  else
    let pool := if pool.status = .waitPending && pool.tasksToDo.isEmpty then { pool with status := .cancelPending }
      else pool
    if pool.status = .cancelPending then (.empty, pool)
    else
      match pool.tasksToDo with
      | [] => (.empty, pool)
      | result :: tasksToDo => (.task result, { pool with tasksToDo := tasksToDo })

end ThreadPool

inductive WorkerPhase (α : Type)
  | ready
  | waiting
  | holding (task : α)
  | running (task : α)
  | exited
  deriving DecidableEq

/-- A call of `Stop` after its locked part: it joins the threads from one on, or it is over. -/
inductive StopPhase
  | joining (next : Nat) (hasException : Bool)
  | returned
  | threw
  deriving DecidableEq

/-- A call of `Stop`, perhaps by a task that a worker runs. -/
structure StopCall (n : Nat) where
  caller : Option (Fin n)
  wait : Bool
  phase : StopPhase
  deriving DecidableEq

/-- A pool with `n` workers, the calls of `Stop` in the order of their locked parts, the number of
accepted tasks, and the tasks that were dequeued, started and finished so far. -/
structure PoolSystem (n : Nat) where
  pool : ThreadPool Nat := {}
  workers : Fin n → WorkerPhase Nat := fun _ => .ready
  stops : List (StopCall n) := []
  accepted : Nat := 0
  dequeued : List Nat := []
  started : List Nat := []
  finished : List Nat := []

inductive PoolAction (n : Nat)
  | submit
  | stop (caller : Option (Fin n)) (wait : Bool)
  | getTask (worker : Fin n)
  | run (worker : Fin n)
  | finish (worker : Fin n)
  | join
  deriving DecidableEq

namespace PoolSystem

variable {n : Nat}

/-- A worker calls `Stop` only from a task. -/
def mayStop (s : PoolSystem n) (caller : Option (Fin n)) : Bool :=
  match caller with
  | none => true
  | some worker =>
    match s.workers worker with
    | .running _ => true
    | _ => false

/-- The task of the worker is inside of `Stop`. -/
def insideStop (s : PoolSystem n) (worker : Fin n) : Bool :=
  s.stops.any (fun call => call.caller = some worker && call.phase ≠ .returned && call.phase ≠ .threw)

def setWorker (s : PoolSystem n) (worker : Fin n) (phase : WorkerPhase Nat) : PoolSystem n :=
  { s with workers := Function.update s.workers worker phase }

/-- One round of the loop that joins the threads; a thread cannot join itself. -/
def joinNext (s : PoolSystem n) (call : StopCall n) (next : Nat) (hasException : Bool) : Option StopPhase :=
  if h : next < n then
    if call.caller = some ⟨next, h⟩ then some (.joining (next + 1) true)
    else if s.workers ⟨next, h⟩ = .exited then some (.joining (next + 1) hasException)
    else none
  else some (if hasException then .threw else .returned)

def submit (s : PoolSystem n) : PoolSystem n :=
  match s.pool.submit s.accepted with
  | .ok pool => { s with pool := pool, accepted := s.accepted + 1 }
  | .error _ => s

def stop (s : PoolSystem n) (caller : Option (Fin n)) (wait : Bool) : PoolSystem n :=
  let result := s.pool.stop wait
  let phase := if result.1 then .joining 0 false else .returned
  { s with pool := result.2, stops := s.stops ++ [{ caller := caller, wait := wait, phase := phase }] }

def getTask (s : PoolSystem n) (worker : Fin n) : PoolSystem n :=
  let result := s.pool.getTask
  match result.1 with
  | .wait => { s with pool := result.2 }.setWorker worker .waiting
  | .empty => { s with pool := result.2 }.setWorker worker .exited
  | .task task => { s with pool := result.2, dequeued := s.dequeued ++ [task] }.setWorker worker (.holding task)

/-- One step; none when the thread cannot take it. -/
def step (s : PoolSystem n) : PoolAction n → Option (PoolSystem n)
  | .submit => some s.submit
  | .stop caller wait => if s.mayStop caller then some (s.stop caller wait) else none
  | .getTask worker =>
    if s.workers worker = .ready ∨ s.workers worker = .waiting then some (s.getTask worker) else none
  | .run worker =>
    match s.workers worker with
    | .holding task => some ({ s with started := s.started ++ [task] }.setWorker worker (.running task))
    | _ => none
  | .finish worker =>
    match s.workers worker with
    | .running task =>
      if s.insideStop worker then none
      else some ({ s with finished := s.finished ++ [task] }.setWorker worker .ready)
    | _ => none
  | .join =>
    match s.stops with
    | [] => none
    | call :: stops =>
      match call.phase with
      | .joining next hasException =>
        (s.joinNext call next hasException).map (fun phase => { s with stops := { call with phase := phase } :: stops })
      | _ => none

/-- The state after the steps, when every one of them can be taken. -/
def run (s : PoolSystem n) (actions : List (PoolAction n)) : Option (PoolSystem n) := actions.foldlM step s

end PoolSystem

end IcebergCxx

import IcebergCxx.MultiThreadedScan
import IcebergCxx.Lib.Run

/-!
# Who destroys the pool of a multi-threaded scan

A worker may still hold the functor of the last manifest file when the calling thread has all the
results, returns and releases its `shared_ptr`; the worker's release is then the last one. With one
worker the results of the entries of the last manifest file are only available after its functor is
destroyed, so the calling thread is last when it waits for one of them.
-/

namespace IcebergCxx.Proofs

open Lib ScanSystem

variable {n : Nat} {manifests : List ManifestOutcome}

/-- The number of entries that a manifest file submits. -/
def entryCount (manifests : List ManifestOutcome) (i : Nat) : Nat :=
  ((manifests[i]?).map (fun manifest => manifest.statuses.length)).getD 0

/-- What a step can do while the pool runs. -/
inductive ScanMove (manifests : List ManifestOutcome) (s : ScanSystem n) : ScanSystem n → Prop
  | submit (next : Nat) (hc : s.caller = .submitting next) (h : next < manifests.length) :
    ScanMove manifests s
      { s with
        pool := { s.pool with tasksToDo := s.pool.tasksToDo ++ [.manifestFile next] }
        caller := .submitting (next + 1) }
  | submitted (next : Nat) (hc : s.caller = .submitting next) (h : ¬next < manifests.length) :
    ScanMove manifests s { s with caller := .gettingFutures 0 }
  | gotFutures (next : Nat) (hc : s.caller = .gettingFutures next) (h : manifests[next]? = none) :
    ScanMove manifests s { s with caller := .gettingStatuses (statusesOf manifests) }
  | gotFuture (next : Nat) (manifest : ManifestOutcome) (hc : s.caller = .gettingFutures next)
    (h : manifests[next]? = some manifest) (hr : .manifestFile next ∈ s.results) (ht : ¬manifest.throws = true) :
    ScanMove manifests s { s with caller := .gettingFutures (next + 1) }
  | threwFuture (next : Nat) (manifest : ManifestOutcome) (hc : s.caller = .gettingFutures next)
    (h : manifests[next]? = some manifest) (hr : .manifestFile next ∈ s.results) (ht : manifest.throws = true) :
    ScanMove manifests s { s with caller := .leaving }
  | gotStatuses (hc : s.caller = .gettingStatuses []) : ScanMove manifests s { s with caller := .leaving }
  | gotStatus (task : ScanTask) (ok : Bool) (rest : List (ScanTask × Bool))
    (hc : s.caller = .gettingStatuses ((task, ok) :: rest)) (hr : task ∈ s.results) (hok : ok = true) :
    ScanMove manifests s { s with caller := .gettingStatuses rest }
  | badStatus (task : ScanTask) (ok : Bool) (rest : List (ScanTask × Bool))
    (hc : s.caller = .gettingStatuses ((task, ok) :: rest)) (hr : task ∈ s.results) (hok : ¬ok = true) :
    ScanMove manifests s { s with caller := .leaving }
  | leave (hc : s.caller = .leaving) : ScanMove manifests s ({ s with caller := .left }.released none)
  | idle : ScanMove manifests s s
  | fetch (w : Fin n) (task : ScanTask) (rest : List ScanTask) (hw : s.workers w = .getTask)
    (hq : s.pool.tasksToDo = task :: rest) :
    ScanMove manifests s ({ s with pool := { s.pool with tasksToDo := rest } }.setWorker w (.running task 0))
  | submitEntry (w : Fin n) (i k : Nat) (hw : s.workers w = .running (.manifestFile i) k)
    (h : k < entryCount manifests i) :
    ScanMove manifests s
      ({ s with pool := { s.pool with tasksToDo := s.pool.tasksToDo ++ [ScanTask.manifestEntry i k] } }.setWorker w
        (.running (.manifestFile i) (k + 1)))
  | setManifest (w : Fin n) (i k : Nat) (hw : s.workers w = .running (.manifestFile i) k)
    (h : ¬k < entryCount manifests i) : ScanMove manifests s (s.setResult w (.manifestFile i))
  | setEntry (w : Fin n) (i j k : Nat) (hw : s.workers w = .running (.manifestEntry i j) k) :
    ScanMove manifests s (s.setResult w (.manifestEntry i j))
  | releaseManifest (w : Fin n) (i : Nat) (hw : s.workers w = .resultSet (.manifestFile i)) :
    ScanMove manifests s ((s.setWorker w .getTask).released (some w))
  | releaseEntry (w : Fin n) (i j : Nat) (hw : s.workers w = .resultSet (.manifestEntry i j)) :
    ScanMove manifests s (s.setWorker w .getTask)

section
variable {s s' : ScanSystem n}

lemma submit_running {pool : ThreadPool ScanTask} (h : pool.status = .running) (task : ScanTask) :
    pool.submit task = .ok { pool with tasksToDo := pool.tasksToDo ++ [task] } := by
  simp only [ThreadPool.submit, h, decide_true, ensure_true, ok_bind]
  rfl

lemma stepCaller_move (hrun : s.pool.status = .running) (h : s.stepCaller manifests = some s') :
    ScanMove manifests s s' := by
  unfold ScanSystem.stepCaller at h
  split at h
  · split_ifs at h with hnext
    · rw [submit_running hrun] at h
      cases h
      exact .submit _ ‹_› hnext
    · cases h
      exact .submitted _ ‹_› hnext
  · split at h
    · cases h
      exact .gotFutures _ ‹_› ‹_›
    · split_ifs at h with hr ht
      · cases h
        exact .threwFuture _ _ ‹_› ‹_› hr ht
      · cases h
        exact .gotFuture _ _ ‹_› ‹_› hr ht
  · cases h
    exact .gotStatuses ‹_›
  · split_ifs at h with hr hok
    · cases h
      exact .gotStatus _ _ _ ‹_› hr hok
    · cases h
      exact .badStatus _ _ _ ‹_› hr hok
  · cases h
    exact .leave ‹_›
  · cases h

lemma getTask_nil {pool : ThreadPool ScanTask} (h : pool.status = .running) (hq : pool.tasksToDo = []) :
    pool.getTask = (.wait, pool) := by
  obtain ⟨status, tasks⟩ := pool
  cases h
  cases hq
  rfl

lemma getTask_cons {pool : ThreadPool ScanTask} {task : ScanTask} {rest : List ScanTask} (h : pool.status = .running)
    (hq : pool.tasksToDo = task :: rest) : pool.getTask = (.task task, { pool with tasksToDo := rest }) := by
  obtain ⟨status, tasks⟩ := pool
  cases h
  cases hq
  rfl

lemma stepWorker_move {w : Fin n} (hrun : s.pool.status = .running) (h : s.stepWorker manifests w = some s') :
    ScanMove manifests s s' := by
  unfold ScanSystem.stepWorker at h
  split at h
  · cases hq : s.pool.tasksToDo with
    | nil =>
      rw [getTask_nil hrun hq] at h
      cases h
      exact .idle
    | cons task rest =>
      rw [getTask_cons hrun hq] at h
      cases h
      exact .fetch w task rest ‹_› hq
  · split_ifs at h with hk
    · rw [submit_running hrun] at h
      cases h
      exact .submitEntry w _ _ ‹_› hk
    · cases h
      exact .setManifest w _ _ ‹_› hk
  · cases h
    exact .setEntry w _ _ _ ‹_›
  · cases h
    rename_i task hw
    cases task with
    | manifestFile i => exact .releaseManifest w i hw
    | manifestEntry i j => exact .releaseEntry w i j hw

lemma scanStep_move {actor : Option (Fin n)} (hrun : s.pool.status = .running)
    (h : s.step manifests actor = some s') : ScanMove manifests s s' := by
  unfold ScanSystem.step at h
  split_ifs at h
  cases actor with
  | none => exact stepCaller_move hrun h
  | some w => exact stepWorker_move hrun h

lemma released_cases (s : ScanSystem n) (actor : Option (Fin n)) :
    s.owned = true ∧ s.released actor = s ∨ s.owned = false ∧ s.released actor = { s with destroyedBy := some actor } := by
  unfold ScanSystem.released
  cases s.owned
  · exact .inr ⟨rfl, rfl⟩
  · exact .inl ⟨rfl, rfl⟩

end

/-! ### One worker -/

/-- The task whose functor a worker has. -/
def heldTask : ScanWorker → Option ScanTask
  | .getTask => none
  | .running task _ => some task
  | .resultSet task => some task

def manifestIndex : ScanTask → Option Nat
  | .manifestFile i => some i
  | .manifestEntry _ _ => none

/-- The number of manifest files submitted so far. -/
def submittedCount (manifests : List ManifestOutcome) (caller : ScanCaller) : Nat :=
  match caller with
  | .submitting next => next
  | _ => manifests.length

/-- The calling thread waits for the result of an entry of the last manifest file. -/
structure WaitsForLast (manifests : List ManifestOutcome) : Prop where
  noThrow : ∀ manifest ∈ manifests, manifest.throws = false
  last : ∃ i, manifests.length = i + 1 ∧ 0 < entryCount manifests i
  ok : ∀ i j, (.manifestEntry i j, false) ∈ statusesOf manifests → i + 1 = manifests.length

/-- Manifest files are dequeued in order, `m` of them so far. The entries with a result belong to
them, and not to the one whose functor the worker has. -/
structure OneWorkerInv (manifests : List ManifestOutcome) (m : Nat) (s : ScanSystem 1) : Prop where
  running : s.pool.status = .running
  queued : s.pool.tasksToDo.filterMap manifestIndex = List.range' m (submittedCount manifests s.caller - m)
  dequeued_le : m ≤ submittedCount manifests s.caller
  submitted_le : submittedCount manifests s.caller ≤ manifests.length
  held : ∀ w i, heldTask (s.workers w) = some (.manifestFile i) → i + 1 = m
  entry_held : ∀ w i j, heldTask (s.workers w) = some (.manifestEntry i j) → i < m
  entry_queued : ∀ i j, .manifestEntry i j ∈ s.pool.tasksToDo → i < m
  entry_result : ∀ i j, .manifestEntry i j ∈ s.results →
    i < m ∧ ∀ w i', heldTask (s.workers w) = some (.manifestFile i') → i + 1 < m
  statuses : ∀ rest, s.caller = .gettingStatuses rest →
    ∃ got, statusesOf manifests = got ++ rest ∧ ∀ e ∈ got, e.1 ∈ s.results
  leaving : s.caller = .leaving ∨ s.caller = .left →
    ∃ i j, manifests.length = i + 1 ∧ .manifestEntry i j ∈ s.results
  alive : ∀ w, s.destroyedBy ≠ some (some w)

lemma workers_one (s : ScanSystem 1) (w w' : Fin 1) (phase : ScanWorker) : (s.setWorker w phase).workers w' = phase := by
  rw [Subsingleton.elim w' w]
  exact Function.update_self _ _ _

/-- The calling thread is at another place, with the same number of submitted manifest files. -/
lemma OneWorkerInv.caller {m : Nat} {s : ScanSystem 1} (h : OneWorkerInv manifests m s) {caller : ScanCaller}
    (hcount : submittedCount manifests caller = submittedCount manifests s.caller)
    (hstatuses : ∀ rest, caller = .gettingStatuses rest →
      ∃ got, statusesOf manifests = got ++ rest ∧ ∀ e ∈ got, e.1 ∈ s.results)
    (hleaving : caller = .leaving ∨ caller = .left → ∃ i j, manifests.length = i + 1 ∧ .manifestEntry i j ∈ s.results) :
    OneWorkerInv manifests m { s with caller := caller } := by
  constructor
  case running => exact h.running
  case queued => rw [hcount]; exact h.queued
  case dequeued_le => rw [hcount]; exact h.dequeued_le
  case submitted_le => rw [hcount]; exact h.submitted_le
  case held => exact h.held
  case entry_held => exact h.entry_held
  case entry_queued => exact h.entry_queued
  case entry_result => exact h.entry_result
  case statuses => exact hstatuses
  case leaving => exact hleaving
  case alive => exact h.alive

lemma mem_statusesOf {i j : Nat} {ok : Bool} (h : (.manifestEntry i j, ok) ∈ statusesOf manifests) :
    j < entryCount manifests i := by
  unfold statusesOf at h
  obtain ⟨⟨manifest, i'⟩, hmem, h⟩ := List.mem_flatMap.mp h
  obtain ⟨⟨ok', j'⟩, hmem', h⟩ := List.mem_map.mp h
  cases h
  have hi := List.mem_zipIdx_iff_getElem?.mp hmem
  have hj := (List.mem_zipIdx_iff_getElem?.mp hmem')
  obtain ⟨hlt, -⟩ := List.getElem?_eq_some_iff.mp hj
  simp only at hi
  rw [entryCount, hi]
  exact hlt

/-- Every entry has its future. -/
lemma exists_mem_statusesOf {i j : Nat} (h : j < entryCount manifests i) :
    ∃ ok, (.manifestEntry i j, ok) ∈ statusesOf manifests := by
  unfold entryCount at h
  cases hm : manifests[i]? with
  | none =>
    rw [hm] at h
    exact absurd h (Nat.not_lt_zero _)
  | some manifest =>
    rw [hm] at h
    change j < manifest.statuses.length at h
    refine ⟨manifest.statuses[j], List.mem_flatMap.mpr ⟨(manifest, i), ?_, List.mem_map.mpr ⟨(manifest.statuses[j], j), ?_, rfl⟩⟩⟩
    · exact List.mem_zipIdx_iff_getElem?.mpr hm
    · exact List.mem_zipIdx_iff_getElem?.mpr (List.getElem?_eq_getElem h)

lemma eq_manifestEntry_of_mem {e : ScanTask × Bool} (h : e ∈ statusesOf manifests) : ∃ i j, e.1 = .manifestEntry i j := by
  obtain ⟨⟨manifest, i⟩, -, h⟩ := List.mem_flatMap.mp h
  obtain ⟨⟨ok, j⟩, -, rfl⟩ := List.mem_map.mp h
  exact ⟨i, j, rfl⟩

section
variable {m : Nat} {s : ScanSystem 1}

lemma OneWorkerInv.submit (h : OneWorkerInv manifests m s) {next : Nat} (hc : s.caller = .submitting next)
    (hnext : next < manifests.length) :
    OneWorkerInv manifests m
      { s with
        pool := { s.pool with tasksToDo := s.pool.tasksToDo ++ [.manifestFile next] }
        caller := .submitting (next + 1) } := by
  have hcount : submittedCount manifests s.caller = next := by rw [hc]; rfl
  have hle := h.dequeued_le
  have hqueued := h.queued
  rw [hcount] at hle hqueued
  constructor
  case running => exact h.running
  case queued =>
    change (s.pool.tasksToDo ++ [ScanTask.manifestFile next]).filterMap manifestIndex = List.range' m (next + 1 - m)
    rw [List.filterMap_append, hqueued, show next + 1 - m = (next - m) + 1 by omega, List.range'_concat]
    change _ ++ [next] = _
    rw [Nat.one_mul, Nat.add_sub_cancel' hle]
  case dequeued_le => exact Nat.le_succ_of_le hle
  case submitted_le => exact hnext
  case held => exact h.held
  case entry_held => exact h.entry_held
  case entry_queued =>
    intro i j hmem
    rcases List.mem_append.mp hmem with hmem | hmem
    · exact h.entry_queued i j hmem
    · cases List.mem_singleton.mp hmem
  case entry_result => exact h.entry_result
  case statuses =>
    intro rest hrest
    cases hrest
  case leaving =>
    rintro (hl | hl) <;> cases hl
  case alive => exact h.alive

/-- The manifest file at the head of the queue is the next one. -/
lemma OneWorkerInv.fetchManifest (h : OneWorkerInv manifests m s) {w : Fin 1} {i : Nat} {rest : List ScanTask}
    (hq : s.pool.tasksToDo = .manifestFile i :: rest) :
    OneWorkerInv manifests (m + 1)
      ({ s with pool := { s.pool with tasksToDo := rest } }.setWorker w (.running (.manifestFile i) 0)) := by
  have hqueued := h.queued
  rw [hq] at hqueued
  change i :: rest.filterMap manifestIndex = _ at hqueued
  obtain ⟨d, hd⟩ : ∃ d, submittedCount manifests s.caller - m = d + 1 := by
    cases hcount : submittedCount manifests s.caller - m with
    | zero =>
      rw [hcount] at hqueued
      cases hqueued
    | succ d => exact ⟨d, rfl⟩
  rw [hd, List.range'_succ, List.cons.injEq] at hqueued
  obtain ⟨rfl, hrest⟩ := hqueued
  constructor
  case running => exact h.running
  case queued =>
    change rest.filterMap manifestIndex = List.range' (i + 1) (submittedCount manifests s.caller - (i + 1))
    rw [hrest, show submittedCount manifests s.caller - (i + 1) = d by omega]
  case dequeued_le =>
    change i + 1 ≤ submittedCount manifests s.caller
    omega
  case submitted_le => exact h.submitted_le
  case held =>
    intro w' i' hw'
    rw [workers_one] at hw'
    cases hw'
    rfl
  case entry_held =>
    intro w' i' j hw'
    rw [workers_one] at hw'
    cases hw'
  case entry_queued =>
    intro i' j hmem
    have := h.entry_queued i' j (by rw [hq]; exact List.mem_cons_of_mem _ hmem)
    omega
  case entry_result =>
    intro i' j hmem
    have := (h.entry_result i' j hmem).1
    exact ⟨by omega, fun _ _ _ => by omega⟩
  case statuses => exact h.statuses
  case leaving => exact h.leaving
  case alive => exact h.alive

lemma OneWorkerInv.fetchEntry (h : OneWorkerInv manifests m s) {w : Fin 1} {i j : Nat} {rest : List ScanTask}
    (hq : s.pool.tasksToDo = .manifestEntry i j :: rest) :
    OneWorkerInv manifests m
      ({ s with pool := { s.pool with tasksToDo := rest } }.setWorker w (.running (.manifestEntry i j) 0)) := by
  constructor
  case running => exact h.running
  case queued =>
    have hqueued := h.queued
    rw [hq] at hqueued
    exact hqueued
  case dequeued_le => exact h.dequeued_le
  case submitted_le => exact h.submitted_le
  case held =>
    intro w' i' hw'
    rw [workers_one] at hw'
    cases hw'
  case entry_held =>
    intro w' i' j' hw'
    rw [workers_one] at hw'
    cases hw'
    exact h.entry_queued i j (by rw [hq]; exact List.mem_cons_self)
  case entry_queued =>
    intro i' j' hmem
    exact h.entry_queued i' j' (by rw [hq]; exact List.mem_cons_of_mem _ hmem)
  case entry_result =>
    intro i' j' hmem
    refine ⟨(h.entry_result i' j' hmem).1, fun w' i'' hw' => ?_⟩
    rw [workers_one] at hw'
    cases hw'
  case statuses => exact h.statuses
  case leaving => exact h.leaving
  case alive => exact h.alive

lemma OneWorkerInv.submitEntry (h : OneWorkerInv manifests m s) {w : Fin 1} {i k : Nat}
    (hw : s.workers w = .running (.manifestFile i) k) :
    OneWorkerInv manifests m
      ({ s with pool := { s.pool with tasksToDo := s.pool.tasksToDo ++ [ScanTask.manifestEntry i k] } }.setWorker w
        (.running (.manifestFile i) (k + 1))) := by
  have hheld : heldTask (s.workers w) = some (.manifestFile i) := by rw [hw]; rfl
  constructor
  case running => exact h.running
  case queued =>
    change (s.pool.tasksToDo ++ [ScanTask.manifestEntry i k]).filterMap manifestIndex = _
    rw [List.filterMap_append, h.queued]
    exact List.append_nil _
  case dequeued_le => exact h.dequeued_le
  case submitted_le => exact h.submitted_le
  case held =>
    intro w' i' hw'
    rw [workers_one] at hw'
    cases hw'
    exact h.held w i hheld
  case entry_held =>
    intro w' i' j' hw'
    rw [workers_one] at hw'
    cases hw'
  case entry_queued =>
    intro i' j' hmem
    rcases List.mem_append.mp hmem with hmem | hmem
    · exact h.entry_queued i' j' hmem
    · cases List.mem_singleton.mp hmem
      have := h.held w i hheld
      omega
  case entry_result =>
    intro i' j' hmem
    obtain ⟨h1, h2⟩ := h.entry_result i' j' hmem
    exact ⟨h1, fun _ _ _ => h2 w i hheld⟩
  case statuses => exact h.statuses
  case leaving => exact h.leaving
  case alive => exact h.alive

/-- A result is made available; the worker keeps the functor. -/
lemma OneWorkerInv.setResult (h : OneWorkerInv manifests m s) {w : Fin 1} {task : ScanTask}
    (hheld : heldTask (s.workers w) = some task) : OneWorkerInv manifests m (s.setResult w task) := by
  have hkept : ∀ w' : Fin 1, heldTask ((s.setResult w task).workers w') = heldTask (s.workers w') := by
    intro w'
    rw [ScanSystem.setResult, workers_one, Subsingleton.elim w' w, hheld]
    rfl
  constructor
  case running => exact h.running
  case queued => exact h.queued
  case dequeued_le => exact h.dequeued_le
  case submitted_le => exact h.submitted_le
  case held =>
    intro w' i hw'
    rw [hkept] at hw'
    exact h.held w' i hw'
  case entry_held =>
    intro w' i j hw'
    rw [hkept] at hw'
    exact h.entry_held w' i j hw'
  case entry_queued => exact h.entry_queued
  case entry_result =>
    intro i j hmem
    rcases List.mem_append.mp hmem with hmem | hmem
    · refine ⟨(h.entry_result i j hmem).1, fun w' i' hw' => ?_⟩
      rw [hkept] at hw'
      exact (h.entry_result i j hmem).2 w' i' hw'
    · have htask := List.mem_singleton.mp hmem
      rw [← htask] at hheld
      refine ⟨h.entry_held w i j hheld, fun w' i' hw' => ?_⟩
      rw [hkept, Subsingleton.elim w' w, hheld] at hw'
      cases hw'
  case statuses =>
    intro rest hrest
    obtain ⟨got, hgot, hall⟩ := h.statuses rest hrest
    exact ⟨got, hgot, fun e he => List.mem_append_left _ (hall e he)⟩
  case leaving =>
    intro hl
    obtain ⟨i, j, hi, hmem⟩ := h.leaving hl
    exact ⟨i, j, hi, List.mem_append_left _ hmem⟩
  case alive => exact h.alive

lemma OneWorkerInv.release (h : OneWorkerInv manifests m s) (w : Fin 1) :
    OneWorkerInv manifests m (s.setWorker w .getTask) := by
  constructor
  case running => exact h.running
  case queued => exact h.queued
  case dequeued_le => exact h.dequeued_le
  case submitted_le => exact h.submitted_le
  case held =>
    intro w' i hw'
    rw [workers_one] at hw'
    cases hw'
  case entry_held =>
    intro w' i j hw'
    rw [workers_one] at hw'
    cases hw'
  case entry_queued => exact h.entry_queued
  case entry_result =>
    intro i j hmem
    refine ⟨(h.entry_result i j hmem).1, fun w' i' hw' => ?_⟩
    rw [workers_one] at hw'
    cases hw'
  case statuses => exact h.statuses
  case leaving => exact h.leaving
  case alive => exact h.alive

/-- While the worker has the functor of a manifest file the calling thread has not left. -/
lemma OneWorkerInv.caller_ne_left (h : OneWorkerInv manifests m s) {w : Fin 1} {i : Nat}
    (hheld : heldTask (s.workers w) = some (.manifestFile i)) : s.caller ≠ .left := by
  intro hleft
  obtain ⟨i', j, hi', hmem⟩ := h.leaving (.inr hleft)
  have h1 := (h.entry_result i' j hmem).2 w i hheld
  have h2 := h.dequeued_le
  have h3 := h.submitted_le
  omega

end

/-- Every move keeps the invariant when the calling thread waits for the last manifest file. -/
lemma OneWorkerInv.move {m : Nat} {s s' : ScanSystem 1} (hwaits : WaitsForLast manifests)
    (h : OneWorkerInv manifests m s) (hm : ScanMove manifests s s') : ∃ m', OneWorkerInv manifests m' s' := by
  cases hm with
  | submit next hc hnext => exact ⟨m, h.submit hc hnext⟩
  | submitted next hc hnext =>
    have hle := h.submitted_le
    rw [hc] at hle
    change next ≤ manifests.length at hle
    refine ⟨m, h.caller ?_ (fun rest hrest => by cases hrest) (by rintro (hl | hl) <;> cases hl)⟩
    rw [hc]
    change manifests.length = next
    omega
  | gotFutures next hc hnone =>
    refine ⟨m, h.caller (by rw [hc]; rfl) (fun rest hrest => ?_) (by rintro (hl | hl) <;> cases hl)⟩
    cases hrest
    exact ⟨[], rfl, by simp⟩
  | gotFuture next manifest hc hsome hr ht =>
    exact ⟨m, h.caller (by rw [hc]; rfl) (fun rest hrest => by cases hrest) (by rintro (hl | hl) <;> cases hl)⟩
  | threwFuture next manifest hc hsome hr ht =>
    have hno := hwaits.noThrow manifest (List.mem_of_getElem? hsome)
    rw [ht] at hno
    cases hno
  | gotStatuses hc =>
    refine ⟨m, h.caller (by rw [hc]; rfl) (fun rest hrest => by cases hrest) (fun _ => ?_)⟩
    obtain ⟨i, hi, hpos⟩ := hwaits.last
    obtain ⟨ok, hmem⟩ := exists_mem_statusesOf hpos
    obtain ⟨got, hgot, hall⟩ := h.statuses [] hc
    rw [List.append_nil] at hgot
    rw [hgot] at hmem
    exact ⟨i, 0, hi, hall _ hmem⟩
  | gotStatus task ok rest hc hr hok =>
    refine ⟨m, h.caller (by rw [hc]; rfl) (fun rest' hrest => ?_) (by rintro (hl | hl) <;> cases hl)⟩
    cases hrest
    obtain ⟨got, hgot, hall⟩ := h.statuses _ hc
    refine ⟨got ++ [(task, ok)], by rw [hgot, List.append_assoc]; rfl, fun e he => ?_⟩
    rcases List.mem_append.mp he with he | he
    · exact hall e he
    · rw [List.mem_singleton.mp he]
      exact hr
  | badStatus task ok rest hc hr hok =>
    refine ⟨m, h.caller (by rw [hc]; rfl) (fun rest hrest => by cases hrest) (fun _ => ?_)⟩
    obtain ⟨got, hgot, -⟩ := h.statuses _ hc
    have hmem : (task, ok) ∈ statusesOf manifests := by
      rw [hgot]
      exact List.mem_append_right _ List.mem_cons_self
    obtain ⟨i, j, hij⟩ := eq_manifestEntry_of_mem hmem
    rw [Bool.not_eq_true] at hok
    simp only at hij
    rw [hij, hok] at hmem
    exact ⟨i, j, (hwaits.ok i j hmem).symm, hij ▸ hr⟩
  | leave hc =>
    have h' : OneWorkerInv manifests m { s with caller := .left } :=
      h.caller (by rw [hc]; rfl) (fun rest hrest => by cases hrest) (fun _ => h.leaving (.inl hc))
    rcases released_cases { s with caller := .left } none with ⟨-, heq⟩ | ⟨-, heq⟩
    · rw [heq]
      exact ⟨m, h'⟩
    · rw [heq]
      exact ⟨m, { h' with alive := fun w hw => by cases hw }⟩
  | idle => exact ⟨m, h⟩
  | fetch w task rest hw hq =>
    cases task with
    | manifestFile i => exact ⟨m + 1, h.fetchManifest hq⟩
    | manifestEntry i j => exact ⟨m, h.fetchEntry hq⟩
  | submitEntry w i k hw hk => exact ⟨m, h.submitEntry hw⟩
  | setManifest w i k hw hk => exact ⟨m, h.setResult (by rw [hw]; rfl)⟩
  | setEntry w i j k hw => exact ⟨m, h.setResult (by rw [hw]; rfl)⟩
  | releaseManifest w i hw =>
    have hleft : s.caller ≠ .left := h.caller_ne_left (w := w) (i := i) (by rw [hw]; rfl)
    rcases released_cases (s.setWorker w .getTask) (some w) with ⟨-, heq⟩ | ⟨hnot, heq⟩
    · rw [heq]
      exact ⟨m, h.release w⟩
    · exfalso
      unfold ScanSystem.owned at hnot
      have hcaller : (s.setWorker w .getTask).caller = s.caller := rfl
      rw [hcaller, decide_eq_true hleft] at hnot
      cases hnot
  | releaseEntry w i j hw => exact ⟨m, h.release w⟩

lemma oneWorkerInv_initial : OneWorkerInv manifests 0 ({} : ScanSystem 1) := by
  constructor
  case running => rfl
  case queued => rfl
  case dequeued_le => exact le_rfl
  case submitted_le => exact Nat.zero_le _
  case held => intro w i hw; cases hw
  case entry_held => intro w i j hw; cases hw
  case entry_queued => intro i j hmem; cases hmem
  case entry_result => intro i j hmem; cases hmem
  case statuses => intro rest hrest; cases hrest
  case leaving => rintro (hl | hl) <;> cases hl
  case alive => intro w hw; cases hw

lemma oneWorker_alive (hwaits : WaitsForLast manifests) {actors : List (Option (Fin 1))} {s : ScanSystem 1}
    (hrun : ({} : ScanSystem 1).run manifests actors = some s) (w : Fin 1) : s.destroyedBy ≠ some (some w) := by
  have hinv : ∃ m, OneWorkerInv manifests m s := by
    apply foldlM_invariant (P := fun s => ∃ m, OneWorkerInv manifests m s) ⟨0, oneWorkerInv_initial⟩ _ hrun
    rintro s actor s' ⟨m, hs⟩ hstep
    exact hs.move hwaits (scanStep_move hs.running hstep)
  obtain ⟨m, hinv⟩ := hinv
  exact hinv.alive w

/-! ### No manifest file -/

/-- No worker ever has a task. -/
structure NoTaskInv (s : ScanSystem n) : Prop where
  running : s.pool.status = .running
  queue : s.pool.tasksToDo = []
  workers : ∀ w, s.workers w = .getTask
  alive : ∀ w, s.destroyedBy ≠ some (some w)

lemma NoTaskInv.move {s s' : ScanSystem n} (h : NoTaskInv s) (hm : ScanMove [] s s') : NoTaskInv s' := by
  cases hm with
  | submit next hc hnext => exact absurd hnext (Nat.not_lt_zero _)
  | leave hc =>
    rcases released_cases { s with caller := .left } none with ⟨-, heq⟩ | ⟨-, heq⟩
    · rw [heq]
      exact ⟨h.running, h.queue, h.workers, h.alive⟩
    · rw [heq]
      exact ⟨h.running, h.queue, h.workers, fun w hw => by cases hw⟩
  | fetch w task rest hw hq =>
    rw [h.queue] at hq
    cases hq
  | submitEntry w i k hw hk => rw [h.workers w] at hw; cases hw
  | setManifest w i k hw hk => rw [h.workers w] at hw; cases hw
  | setEntry w i j k hw => rw [h.workers w] at hw; cases hw
  | releaseManifest w i hw => rw [h.workers w] at hw; cases hw
  | releaseEntry w i j hw => rw [h.workers w] at hw; cases hw
  | _ => exact ⟨h.running, h.queue, h.workers, h.alive⟩

lemma noManifest_alive {actors : List (Option (Fin n))} {s : ScanSystem n}
    (hrun : ({} : ScanSystem n).run [] actors = some s) (w : Fin n) : s.destroyedBy ≠ some (some w) := by
  have hinv : NoTaskInv s := by
    apply foldlM_invariant (P := NoTaskInv) ⟨rfl, rfl, fun _ => rfl, fun _ hw => by cases hw⟩ _ hrun
    intro s actor s' hs hstep
    exact hs.move (scanStep_move hs.running hstep)
  exact hinv.alive w

/-! ### A schedule in which a worker is last -/

/-- A running pool that has not been destroyed. -/
def conf (workers : Fin n → ScanWorker) (caller : ScanCaller) (queue results : List ScanTask) : ScanSystem n where
  pool := { tasksToDo := queue }
  workers := workers
  caller := caller
  results := results

section
variable {f : Fin n → ScanWorker} {w : Fin n} {c : ScanCaller} {q r : List ScanTask}

lemma step_fetch (hw : f w = .getTask) (task : ScanTask) :
    (conf f c (task :: q) r).step manifests (some w) = some (conf (Function.update f w (.running task 0)) c q r) := by
  change (conf f c (task :: q) r).stepWorker manifests w = _
  have hworker : (conf f c (task :: q) r).workers w = .getTask := hw
  unfold ScanSystem.stepWorker
  rw [hworker]
  rfl

lemma step_submitEntry {i k : Nat} (hw : f w = .running (.manifestFile i) k) (hk : k < entryCount manifests i) :
    (conf f c q r).step manifests (some w) =
      some (conf (Function.update f w (.running (.manifestFile i) (k + 1))) c (q ++ [.manifestEntry i k]) r) := by
  change (conf f c q r).stepWorker manifests w = _
  have hworker : (conf f c q r).workers w = .running (.manifestFile i) k := hw
  unfold ScanSystem.stepWorker
  rw [hworker]
  exact if_pos hk

lemma step_setManifest {i k : Nat} (hw : f w = .running (.manifestFile i) k) (hk : ¬k < entryCount manifests i) :
    (conf f c q r).step manifests (some w) =
      some (conf (Function.update f w (.resultSet (.manifestFile i))) c q (r ++ [.manifestFile i])) := by
  change (conf f c q r).stepWorker manifests w = _
  have hworker : (conf f c q r).workers w = .running (.manifestFile i) k := hw
  unfold ScanSystem.stepWorker
  rw [hworker]
  exact if_neg hk

lemma step_setEntry {i j k : Nat} (hw : f w = .running (.manifestEntry i j) k) :
    (conf f c q r).step manifests (some w) =
      some (conf (Function.update f w (.resultSet (.manifestEntry i j))) c q (r ++ [.manifestEntry i j])) := by
  change (conf f c q r).stepWorker manifests w = _
  have hworker : (conf f c q r).workers w = .running (.manifestEntry i j) k := hw
  unfold ScanSystem.stepWorker
  rw [hworker]
  rfl

lemma step_releaseEntry {i j : Nat} (hw : f w = .resultSet (.manifestEntry i j)) :
    (conf f c q r).step manifests (some w) = some (conf (Function.update f w .getTask) c q r) := by
  change (conf f c q r).stepWorker manifests w = _
  have hworker : (conf f c q r).workers w = .resultSet (.manifestEntry i j) := hw
  unfold ScanSystem.stepWorker
  rw [hworker]
  rfl

lemma step_releaseManifest {i : Nat} (hw : f w = .resultSet (.manifestFile i)) :
    (conf f c q r).step manifests (some w) =
      some ((conf (Function.update f w .getTask) c q r).released (some w)) := by
  change (conf f c q r).stepWorker manifests w = _
  have hworker : (conf f c q r).workers w = .resultSet (.manifestFile i) := hw
  unfold ScanSystem.stepWorker
  rw [hworker]
  rfl

lemma released_of_caller (hc : c ≠ .left) (actor : Option (Fin n)) : (conf f c q r).released actor = conf f c q r := by
  have howned : (conf f c q r).owned = true := by
    have hcaller : (conf f c q r).caller = c := rfl
    rw [ScanSystem.owned, hcaller, decide_eq_true hc]
    rfl
  rw [ScanSystem.released, howned]
  rfl

/-- A worker runs the entries at the head of the queue. -/
lemma leads_entries (hw : f w = .getTask) (es : List (Nat × Nat)) :
    Leads (ScanSystem.step manifests) (conf f c (es.map (fun e => .manifestEntry e.1 e.2) ++ q) r)
      (conf f c q (r ++ es.map (fun e => .manifestEntry e.1 e.2))) := by
  induction es generalizing r with
  | nil =>
    rw [List.map_nil, List.append_nil]
    exact Leads.refl _
  | cons e es ih =>
    have hself : Function.update f w .getTask = f := by rw [← hw, Function.update_eq_self]
    refine (Leads.one (step_fetch hw _)).trans ?_
    refine (Leads.one (step_setEntry (Function.update_self _ _ _))).trans ?_
    refine (Leads.one (step_releaseEntry (Function.update_self _ _ _))).trans ?_
    rw [Function.update_idem, Function.update_idem, hself]
    have hrest := ih (r := r ++ [.manifestEntry e.1 e.2])
    rw [List.append_assoc] at hrest
    exact hrest

/-- The entries that the task of a manifest file submits. -/
def entriesOf (manifests : List ManifestOutcome) (i : Nat) : List (Nat × Nat) :=
  (List.range (entryCount manifests i)).map (fun j => (i, j))

lemma leads_submitEntries {i : Nat} (d k : Nat) (hd : k + d = entryCount manifests i)
    (hw : f w = .running (.manifestFile i) k) :
    Leads (ScanSystem.step manifests) (conf f c q r)
      (conf (Function.update f w (.running (.manifestFile i) (entryCount manifests i))) c
        (q ++ (List.range' k d).map (fun j => .manifestEntry i j)) r) := by
  induction d generalizing k q f with
  | zero =>
    rw [← hd, Nat.add_zero, ← hw, Function.update_eq_self]
    change Leads _ _ (conf f c (q ++ []) r)
    rw [List.append_nil]
    exact Leads.refl _
  | succ d ih =>
    refine (Leads.one (step_submitEntry hw (by omega))).trans ?_
    have hrest := ih (k + 1) (q := q ++ [.manifestEntry i k]) (f := Function.update f w (.running (.manifestFile i) (k + 1)))
      (by omega) (Function.update_self _ _ _)
    rw [Function.update_idem, List.append_assoc] at hrest
    exact hrest

/-- A worker runs the task of a manifest file until its result is available. -/
lemma leads_manifest (hw : f w = .getTask) (i : Nat) :
    Leads (ScanSystem.step manifests) (conf f c (.manifestFile i :: q) r)
      (conf (Function.update f w (.resultSet (.manifestFile i))) c
        (q ++ (entriesOf manifests i).map (fun e => .manifestEntry e.1 e.2)) (r ++ [.manifestFile i])) := by
  refine (Leads.one (step_fetch hw _)).trans ?_
  refine (leads_submitEntries (entryCount manifests i) 0 (Nat.zero_add _) (Function.update_self _ _ _)).trans ?_
  refine (Leads.one (step_setManifest (Function.update_self _ _ _) (lt_irrefl _))).trans ?_
  rw [Function.update_idem, Function.update_idem, entriesOf, List.map_map, ← List.range_eq_range']
  exact Leads.refl _

/-- A worker runs the task of a manifest file and then its entries. -/
lemma leads_manifest_entries (hc : c ≠ .left) (hw : f w = .getTask) (i : Nat) :
    Leads (ScanSystem.step manifests) (conf f c [.manifestFile i] r)
      (conf f c [] (r ++ [.manifestFile i] ++ (entriesOf manifests i).map (fun e => .manifestEntry e.1 e.2))) := by
  have hself : Function.update f w .getTask = f := by rw [← hw, Function.update_eq_self]
  refine (leads_manifest hw i).trans ?_
  refine (Leads.one (step_releaseManifest (Function.update_self _ _ _))).trans ?_
  rw [Function.update_idem, hself, released_of_caller hc]
  have hrest : Leads (ScanSystem.step manifests)
      (conf f c ((entriesOf manifests i).map (fun e => .manifestEntry e.1 e.2) ++ []) (r ++ [.manifestFile i])) _ :=
    leads_entries hw (entriesOf manifests i)
  rw [List.append_nil] at hrest
  exact hrest

lemma step_submit {i : Nat} (h : i < manifests.length) :
    (conf f (.submitting i) q r).step manifests none = some (conf f (.submitting (i + 1)) (q ++ [.manifestFile i]) r) :=
  if_pos h

/-- The results of the first manifest files and of their entries are available. -/
def ResultsOf (manifests : List ManifestOutcome) (k : Nat) (r : List ScanTask) : Prop :=
  (∀ i < k, .manifestFile i ∈ r) ∧ ∀ i j, i < k → j < entryCount manifests i → .manifestEntry i j ∈ r

lemma mem_entriesOf {i j : Nat} (h : j < entryCount manifests i) :
    ScanTask.manifestEntry i j ∈ (entriesOf manifests i).map (fun e => .manifestEntry e.1 e.2) :=
  List.mem_map.mpr ⟨(i, j), List.mem_map.mpr ⟨j, List.mem_range.mpr h, rfl⟩, rfl⟩

/-- One worker runs the first manifest files one after the other as they are submitted. -/
lemma leads_first (w : Fin n) (k : Nat) (hk : k ≤ manifests.length) :
    ∃ r, Leads (ScanSystem.step manifests) ({} : ScanSystem n) (conf (fun _ => .getTask) (.submitting k) [] r) ∧
      ResultsOf manifests k r := by
  induction k with
  | zero => exact ⟨[], Leads.refl _, fun i hi => absurd hi (Nat.not_lt_zero _), fun i _ hi => absurd hi (Nat.not_lt_zero _)⟩
  | succ k ih =>
    obtain ⟨r, hleads, hmanifests, hentries⟩ := ih (by omega)
    refine ⟨r ++ [.manifestFile k] ++ (entriesOf manifests k).map (fun e => .manifestEntry e.1 e.2), ?_, ?_, ?_⟩
    · refine hleads.trans ((Leads.one (step_submit (by omega))).trans ?_)
      exact leads_manifest_entries (w := w) (by simp) rfl k
    · intro i hi
      by_cases hik : i = k
      · subst hik
        simp
      · exact List.mem_append_left _ (List.mem_append_left _ (hmanifests i (by omega)))
    · intro i j hi hj
      by_cases hik : i = k
      · subst hik
        exact List.mem_append_right _ (mem_entriesOf hj)
      · exact List.mem_append_left _ (List.mem_append_left _ (hentries i j (by omega) hj))

/-- With all results of manifest files the calling thread comes to the statuses, or it leaves. -/
lemma leads_futures (hr : ∀ i < manifests.length, .manifestFile i ∈ r) (d next : Nat)
    (hd : next + d = manifests.length) :
    Leads (ScanSystem.step manifests) (conf f (.gettingFutures next) q r) (conf f .leaving q r) ∨
      (∀ i, next ≤ i → ∀ manifest, manifests[i]? = some manifest → manifest.throws = false) ∧
        Leads (ScanSystem.step manifests) (conf f (.gettingFutures next) q r)
          (conf f (.gettingStatuses (statusesOf manifests)) q r) := by
  induction d generalizing next with
  | zero =>
    have hnone : manifests[next]? = none := List.getElem?_eq_none (by omega)
    refine .inr ⟨fun i hi manifest hm => ?_, Leads.one (a := none) ?_⟩
    · rw [List.getElem?_eq_none (by omega)] at hm
      cases hm
    · change (conf f (.gettingFutures next) q r).stepCaller manifests = _
      simp only [ScanSystem.stepCaller, conf, hnone]
  | succ d ih =>
    obtain ⟨manifest, hm⟩ : ∃ manifest, manifests[next]? = some manifest :=
      ⟨_, List.getElem?_eq_getElem (by omega)⟩
    have hmem : .manifestFile next ∈ r := hr next (by omega)
    have hstep : (conf f (.gettingFutures next) q r).step manifests none =
        some (conf f (if manifest.throws then .leaving else .gettingFutures (next + 1)) q r) := by
      change (conf f (.gettingFutures next) q r).stepCaller manifests = _
      simp only [ScanSystem.stepCaller, conf, hm]
      exact if_pos hmem
    cases ht : manifest.throws with
    | true =>
      rw [ht] at hstep
      exact .inl (Leads.one hstep)
    | false =>
      rw [ht] at hstep
      rcases ih (next + 1) (by omega) with hleave | ⟨hall, hleads⟩
      · exact .inl ((Leads.one hstep).trans hleave)
      · refine .inr ⟨fun i hi manifest' hm' => ?_, (Leads.one hstep).trans hleads⟩
        by_cases hin : i = next
        · rw [hin, hm] at hm'
          cases hm'
          exact ht
        · exact hall i (by omega) manifest' hm'

/-- The calling thread leaves after the statuses that are available, when there are no others or one
of them is not OK. -/
lemma leads_statuses (good rest : List (ScanTask × Bool)) (hgood : ∀ e ∈ good, e.1 ∈ r)
    (hend : rest = [] ∨ ∃ e ∈ good, e.2 = false) :
    Leads (ScanSystem.step manifests) (conf f (.gettingStatuses (good ++ rest)) q r) (conf f .leaving q r) := by
  induction good with
  | nil =>
    rcases hend with rfl | ⟨e, he, -⟩
    · exact Leads.one (a := none) rfl
    · cases he
  | cons e good ih =>
    obtain ⟨task, ok⟩ := e
    have hmem : task ∈ r := hgood _ List.mem_cons_self
    have hstep : (conf f (.gettingStatuses ((task, ok) :: (good ++ rest))) q r).step manifests none =
        some (conf f (if ok then .gettingStatuses (good ++ rest) else .leaving) q r) := by
      change (conf f (.gettingStatuses ((task, ok) :: (good ++ rest))) q r).stepCaller manifests = _
      simp only [ScanSystem.stepCaller, conf]
      exact if_pos hmem
    cases ok with
    | false => exact Leads.one hstep
    | true =>
      refine (Leads.one hstep).trans (ih (fun e he => hgood e (List.mem_cons_of_mem _ he)) ?_)
      rcases hend with hnil | ⟨e, he, hbad⟩
      · exact .inl hnil
      · rcases List.mem_cons.mp he with rfl | he
        · cases hbad
        · exact .inr ⟨e, he, hbad⟩

/-- When the calling thread leaves while a worker has the only functor, that worker is last. -/
lemma leads_destroyed {w : Fin n} {i : Nat} (hw : f w = .resultSet (.manifestFile i))
    (hothers : ∀ w', w' ≠ w → f w' = .getTask) (hq : q.any ScanTask.ownsPool = false) :
    ∃ s, Leads (ScanSystem.step manifests) (conf f .leaving q r) s ∧ s.destroyedBy = some (some w) := by
  have hleave : (conf f .leaving q r).step manifests none = some (conf f .left q r) := by
    have howned : (conf f .left q r).owned = true := by
      have hex : ∃ worker, workerOwns ((conf f .left q r).workers worker) = true := ⟨w, by change workerOwns (f w) = true; rw [hw]; rfl⟩
      rw [ScanSystem.owned, decide_eq_true hex, Bool.or_true]
    change some ((conf f .left q r).released none) = _
    rw [ScanSystem.released, howned]
    rfl
  have hnone : (conf (Function.update f w .getTask) .left q r).owned = false := by
    have hworkers : ¬∃ worker, workerOwns ((conf (Function.update f w .getTask) .left q r).workers worker) = true := by
      rintro ⟨w', hw'⟩
      change workerOwns (Function.update f w .getTask w') = true at hw'
      by_cases hww : w' = w
      · rw [hww, Function.update_self] at hw'
        cases hw'
      · rw [Function.update_of_ne hww, hothers w' hww] at hw'
        cases hw'
    rw [ScanSystem.owned, decide_eq_false hworkers, Bool.or_false]
    exact hq
  refine ⟨_, (Leads.one hleave).trans (Leads.one (step_releaseManifest hw)), ?_⟩
  rw [ScanSystem.released, hnone]
  rfl

end

lemma lt_length_of_entryCount {i j : Nat} (h : j < entryCount manifests i) : i < manifests.length := by
  by_contra hlt
  rw [entryCount, List.getElem?_eq_none (by omega)] at h
  exact absurd h (Nat.not_lt_zero _)

lemma entryCount_append {ms : List ManifestOutcome} {i : Nat} (h : i < ms.length) (ms' : List ManifestOutcome) :
    entryCount (ms ++ ms') i = entryCount ms i := by
  rw [entryCount, entryCount, List.getElem?_append_left h]

lemma statusesOf_concat (ms : List ManifestOutcome) (last : ManifestOutcome) :
    statusesOf (ms ++ [last]) =
      statusesOf ms ++ last.statuses.zipIdx.map (fun status => (.manifestEntry ms.length status.2, status.1)) := by
  rw [statusesOf, List.zipIdx_append, List.flatMap_append, Nat.zero_add]
  simp only [List.zipIdx_singleton, List.flatMap_singleton]
  rfl

/-- The statuses the calling thread has when only the entries of the last manifest file are missing,
in the cases in which it leaves with them. -/
lemma exists_good_statuses {ms : List ManifestOutcome} {last : ManifestOutcome} {r : List ScanTask}
    (hr : ∀ i j, i < ms.length → j < entryCount (ms ++ [last]) i → .manifestEntry i j ∈ r)
    (hnot : ¬WaitsForLast (ms ++ [last])) (hno : ∀ manifest ∈ ms ++ [last], manifest.throws = false) :
    ∃ good rest, statusesOf (ms ++ [last]) = good ++ rest ∧ (∀ e ∈ good, e.1 ∈ r) ∧
      (rest = [] ∨ ∃ e ∈ good, e.2 = false) := by
  have hgood : ∀ e ∈ statusesOf ms, e.1 ∈ r := by
    rintro ⟨task, ok⟩ he
    obtain ⟨i, j, hij⟩ := eq_manifestEntry_of_mem he
    simp only at hij
    subst hij
    have hj := mem_statusesOf he
    have hi := lt_length_of_entryCount hj
    exact hr i j hi (by rw [entryCount_append hi]; exact hj)
  refine ⟨statusesOf ms, _, statusesOf_concat ms last, hgood, ?_⟩
  by_cases hempty : last.statuses = []
  · left
    rw [hempty]
    rfl
  · right
    by_contra hall
    apply hnot
    refine ⟨hno, ⟨ms.length, by simp, ?_⟩, fun i j hmem => ?_⟩
    · rw [entryCount, List.getElem?_concat_length]
      exact List.length_pos_iff.mpr hempty
    · rw [statusesOf_concat] at hmem
      rcases List.mem_append.mp hmem with hmem | hmem
      · exact absurd ⟨_, hmem, rfl⟩ hall
      · obtain ⟨⟨ok, j'⟩, -, h⟩ := List.mem_map.mp hmem
        cases h
        simp

/-- The state in which one worker has the result of the last manifest file set and still has its
functor, with all that comes before it done. -/
lemma leads_lastResult (w : Fin n) (ms : List ManifestOutcome) (last : ManifestOutcome) :
    ∃ r, ResultsOf (ms ++ [last]) ms.length r ∧
      Leads (ScanSystem.step (ms ++ [last])) ({} : ScanSystem n)
        (conf (Function.update (fun _ => .getTask) w (.resultSet (.manifestFile ms.length))) (.gettingFutures 0)
          ((entriesOf (ms ++ [last]) ms.length).map (fun e => .manifestEntry e.1 e.2)) (r ++ [.manifestFile ms.length])) := by
  have hle : ms.length ≤ (ms ++ [last]).length := by simp
  have hlt : ¬ms.length + 1 < (ms ++ [last]).length := by simp
  obtain ⟨r, hleads, hresults⟩ := leads_first w ms.length hle
  refine ⟨r, hresults, hleads.trans ((Leads.one (step_submit (by simp))).trans ?_)⟩
  have hsubmitted : ∀ q : List ScanTask, (conf (fun _ : Fin n => .getTask) (.submitting (ms.length + 1)) q r).step
      (ms ++ [last]) none = some (conf (fun _ => .getTask) (.gettingFutures 0) q r) := by
    intro q
    change (conf (fun _ : Fin n => .getTask) (.submitting (ms.length + 1)) q r).stepCaller (ms ++ [last]) = _
    simp only [ScanSystem.stepCaller, conf]
    exact if_neg hlt
  exact (Leads.one (hsubmitted _)).trans (leads_manifest rfl ms.length)

/-- In every schedule the calling thread is last. -/
def CallerLast (n : Nat) (manifests : List ManifestOutcome) : Prop :=
  ∀ (actors : List (Option (Fin n))) (s : ScanSystem n), ({} : ScanSystem n).run manifests actors = some s →
    ∀ w, s.destroyedBy ≠ some (some w)

lemma not_callerLast_of_leads {s : ScanSystem n} {w : Fin n} (h : Leads (ScanSystem.step manifests) {} s)
    (hs : s.destroyedBy = some (some w)) : ¬CallerLast n manifests := by
  obtain ⟨actors, hrun⟩ := h
  exact fun hlast => hlast actors s hrun w hs

lemma any_ownsPool_entries (es : List (Nat × Nat)) :
    (es.map (fun e => ScanTask.manifestEntry e.1 e.2)).any ScanTask.ownsPool = false := by
  rw [List.any_map, List.any_eq_false]
  intro e he
  simp [ScanTask.ownsPool]

lemma noThrow_of_getElem? {ms : List ManifestOutcome}
    (h : ∀ i, 0 ≤ i → ∀ manifest, ms[i]? = some manifest → manifest.throws = false) :
    ∀ manifest ∈ ms, manifest.throws = false := by
  intro manifest hmem
  obtain ⟨i, hi⟩ := List.mem_iff_getElem?.mp hmem
  exact h i (Nat.zero_le _) manifest hi

lemma mem_append_manifest {ms : List ManifestOutcome} {last : ManifestOutcome} {r : List ScanTask}
    (hr : ∀ i < ms.length, .manifestFile i ∈ r) :
    ∀ i < (ms ++ [last]).length, .manifestFile i ∈ r ++ [ScanTask.manifestFile ms.length] := by
  intro i hi
  rw [List.length_append, List.length_singleton] at hi
  by_cases hik : i = ms.length
  · rw [hik]
    exact List.mem_append_right _ (List.mem_singleton_self _)
  · exact List.mem_append_left _ (hr i (by omega))

/-- A second worker runs the entries of the last manifest file. -/
lemma not_callerLast_of_two (h : 1 < n) (ms : List ManifestOutcome) (last : ManifestOutcome) :
    ¬CallerLast n (ms ++ [last]) := by
  let w₀ : Fin n := ⟨0, by omega⟩
  let w₁ : Fin n := ⟨1, h⟩
  have hne : w₁ ≠ w₀ := by
    intro heq
    cases Fin.ext_iff.mp heq
  obtain ⟨r, ⟨hmanifests, hentries⟩, hleads⟩ := leads_lastResult w₀ ms last
  set f : Fin n → ScanWorker := Function.update (fun _ => .getTask) w₀ (.resultSet (.manifestFile ms.length)) with hf
  have hothers : ∀ w, w ≠ w₀ → f w = .getTask := fun w hw => Function.update_of_ne hw _ _
  have hdrain : Leads (ScanSystem.step (ms ++ [last]))
      (conf f (.gettingFutures 0) ((entriesOf (ms ++ [last]) ms.length).map (fun e => .manifestEntry e.1 e.2) ++ [])
        (r ++ [.manifestFile ms.length])) _ := leads_entries (hothers w₁ hne) _
  rw [List.append_nil] at hdrain
  have hstart := hleads.trans hdrain
  have hleave : Leads (ScanSystem.step (ms ++ [last])) ({} : ScanSystem n) (conf f .leaving []
      (r ++ [.manifestFile ms.length] ++ (entriesOf (ms ++ [last]) ms.length).map (fun e => .manifestEntry e.1 e.2))) := by
    have hfutures := leads_futures (f := f) (q := []) (fun i hi => List.mem_append_left
      ((entriesOf (ms ++ [last]) ms.length).map (fun e => ScanTask.manifestEntry e.1 e.2)) (mem_append_manifest hmanifests i hi))
      (ms ++ [last]).length 0 (Nat.zero_add _)
    rcases hfutures with hfutures | ⟨-, hfutures⟩
    · exact hstart.trans hfutures
    · refine hstart.trans (hfutures.trans ?_)
      have hall : ∀ e ∈ statusesOf (ms ++ [last]), e.1 ∈
          r ++ [.manifestFile ms.length] ++ (entriesOf (ms ++ [last]) ms.length).map (fun e => .manifestEntry e.1 e.2) := by
        rintro ⟨task, ok⟩ he
        obtain ⟨i, j, hij⟩ := eq_manifestEntry_of_mem he
        simp only at hij
        subst hij
        have hj := mem_statusesOf he
        have hi := lt_length_of_entryCount hj
        rw [List.length_append, List.length_singleton] at hi
        by_cases hik : i = ms.length
        · subst hik
          exact List.mem_append_right _ (mem_entriesOf hj)
        · exact List.mem_append_left _ (List.mem_append_left _ (hentries i j (by omega) hj))
      rw [← List.append_nil (statusesOf (ms ++ [last]))]
      exact leads_statuses (statusesOf (ms ++ [last])) [] hall (.inl rfl)
  obtain ⟨s, hs, hdestroyed⟩ := leads_destroyed (q := []) (Function.update_self _ _ _) hothers rfl
  exact not_callerLast_of_leads (hleave.trans hs) hdestroyed

/-- The only worker still has the functor of the last manifest file. -/
lemma not_callerLast_of_one {ms : List ManifestOutcome} {last : ManifestOutcome} (hnot : ¬WaitsForLast (ms ++ [last])) :
    ¬CallerLast 1 (ms ++ [last]) := by
  obtain ⟨r, ⟨hmanifests, hentries⟩, hleads⟩ := leads_lastResult (0 : Fin 1) ms last
  set f : Fin 1 → ScanWorker := Function.update (fun _ => .getTask) 0 (.resultSet (.manifestFile ms.length)) with hf
  have hothers : ∀ w : Fin 1, w ≠ 0 → f w = .getTask := fun w hw => absurd (Subsingleton.elim w 0) hw
  have hleave : Leads (ScanSystem.step (ms ++ [last])) ({} : ScanSystem 1) (conf f .leaving
      ((entriesOf (ms ++ [last]) ms.length).map (fun e => .manifestEntry e.1 e.2)) (r ++ [.manifestFile ms.length])) := by
    rcases leads_futures (f := f) (mem_append_manifest hmanifests) (ms ++ [last]).length 0 (Nat.zero_add _) with
      hfutures | ⟨hno, hfutures⟩
    · exact hleads.trans hfutures
    · obtain ⟨good, rest, hsplit, hgood, hend⟩ := exists_good_statuses hentries hnot (noThrow_of_getElem? hno)
      refine hleads.trans (hfutures.trans ?_)
      rw [hsplit]
      exact leads_statuses good rest (fun e he => List.mem_append_left _ (hgood e he)) hend
  obtain ⟨s, hs, hdestroyed⟩ :=
    leads_destroyed (Function.update_self _ _ _) hothers (any_ownsPool_entries (entriesOf (ms ++ [last]) ms.length))
  exact not_callerLast_of_leads (hleave.trans hs) hdestroyed

/-- The calling thread destroys the pool in every schedule exactly when there is no manifest file, or
the only worker has to destroy the functor of the last one before the calling thread can leave. -/
theorem callerLast_iff (n : Nat) (manifests : List ManifestOutcome) :
    CallerLast n manifests ↔ n = 0 ∨ manifests = [] ∨ n = 1 ∧ WaitsForLast manifests := by
  constructor
  · intro hlast
    rcases List.eq_nil_or_concat manifests with rfl | ⟨ms, last, rfl⟩
    · exact .inr (.inl rfl)
    · rw [List.concat_eq_append] at hlast ⊢
      rcases Nat.lt_trichotomy n 1 with hn | rfl | hn
      · exact .inl (by omega)
      · by_contra hcond
        exact not_callerLast_of_one (fun hwaits => hcond (.inr (.inr ⟨rfl, hwaits⟩))) hlast
      · exact absurd hlast (not_callerLast_of_two hn ms last)
  · rintro (rfl | rfl | ⟨rfl, hwaits⟩) actors s hrun w
    · exact w.elim0
    · exact noManifest_alive hrun w
    · exact oneWorker_alive hwaits hrun w

/-- One worker and one manifest file without entries: the worker sets the result, the calling thread
returns, and the worker releases the last `shared_ptr`. -/
theorem emptyManifest_worker_destroys_pool :
    ∃ s, ({} : ScanSystem 1).run [⟨[], false⟩]
        [none, none, some 0, some 0, none, none, none, none, some 0] = some s ∧ s.destroyedBy = some (some 0) :=
  ⟨_, rfl, rfl⟩

end IcebergCxx.Proofs

import IcebergCxx.ThreadPool
import IcebergCxx.Lib.Run

/-!
# Discipline of the thread pool

Every step of the system is one of the moves of `PoolMove`. `PoolInv` is what they keep: the
dequeued tasks and the queue are the accepted tasks in order, a dequeued task is held by one worker
or was started once, a worker exits only when the pool is cancelled, and a pool that is stopped with
waiting is cancelled only with an empty queue. `threadPool_discipline` reads the law off it.
-/

namespace IcebergCxx.Proofs

open Lib PoolSystem

variable {n : Nat}

/-- What a step can do. -/
inductive PoolMove (s : PoolSystem n) : PoolAction n → PoolSystem n → Prop
  | accept (h : s.pool.status = .running) :
    PoolMove s .submit
      { s with pool := { s.pool with tasksToDo := s.pool.tasksToDo ++ [s.accepted] }, accepted := s.accepted + 1 }
  | reject (h : s.pool.status ≠ .running) : PoolMove s .submit s
  | stop (caller : Option (Fin n)) (wait : Bool) (h : s.pool.status = .running) :
    PoolMove s (.stop caller wait)
      { s with
        pool := { s.pool with status := if wait then .waitPending else .cancelPending }
        stops := s.stops ++ [⟨caller, wait, .joining 0 false⟩] }
  | stopAgain (caller : Option (Fin n)) (wait : Bool) (h : s.pool.status ≠ .running) :
    PoolMove s (.stop caller wait) { s with stops := s.stops ++ [⟨caller, wait, .returned⟩] }
  | wait (w : Fin n) (hw : s.workers w = .ready ∨ s.workers w = .waiting) :
    PoolMove s (.getTask w) (s.setWorker w .waiting)
  | exit (w : Fin n) (hw : s.workers w = .ready ∨ s.workers w = .waiting)
    (h : s.pool.status = .waitPending ∧ s.pool.tasksToDo = [] ∨ s.pool.status = .cancelPending) :
    PoolMove s (.getTask w) ({ s with pool := { s.pool with status := .cancelPending } }.setWorker w .exited)
  | dequeue (w : Fin n) (task : Nat) (rest : List Nat) (hw : s.workers w = .ready ∨ s.workers w = .waiting)
    (h : s.pool.status ≠ .cancelPending) (hq : s.pool.tasksToDo = task :: rest) :
    PoolMove s (.getTask w)
      ({ s with
        pool := { s.pool with tasksToDo := rest }
        dequeued := s.dequeued ++ [task] }.setWorker w (.holding task))
  | run (w : Fin n) (task : Nat) (hw : s.workers w = .holding task) :
    PoolMove s (.run w) ({ s with started := s.started ++ [task] }.setWorker w (.running task))
  | finish (w : Fin n) (task : Nat) (hw : s.workers w = .running task) :
    PoolMove s (.finish w) ({ s with finished := s.finished ++ [task] }.setWorker w .ready)
  | join (call : StopCall n) (stops : List (StopCall n)) (next : Nat) (hasException : Bool) (phase : StopPhase)
    (hs : s.stops = call :: stops) (hp : call.phase = .joining next hasException)
    (h : s.joinNext call next hasException = some phase) :
    PoolMove s .join { s with stops := { call with phase := phase } :: stops }

lemma getTask_move (s : PoolSystem n) (w : Fin n) (hw : s.workers w = .ready ∨ s.workers w = .waiting) :
    PoolMove s (.getTask w) (s.getTask w) := by
  obtain ⟨⟨status, tasks⟩, workers, stops, accepted, dequeued, started, finished⟩ := s
  cases status with
  | running =>
    cases tasks with
    | nil => exact .wait w hw
    | cons task rest => exact .dequeue w task rest hw (by simp) rfl
  | waitPending =>
    cases tasks with
    | nil => exact .exit w hw (.inl ⟨rfl, rfl⟩)
    | cons task rest => exact .dequeue w task rest hw (by simp) rfl
  | cancelPending =>
    cases tasks with
    | nil => exact .exit w hw (.inr rfl)
    | cons task rest => exact .exit w hw (.inr rfl)

lemma submit_move (s : PoolSystem n) : PoolMove s .submit s.submit := by
  by_cases h : s.pool.status = .running
  · have hs : s.submit =
        { s with pool := { s.pool with tasksToDo := s.pool.tasksToDo ++ [s.accepted] }, accepted := s.accepted + 1 } := by
      simp only [PoolSystem.submit, ThreadPool.submit, h, decide_true, ensure_true, ok_bind]
      rfl
    rw [hs]
    exact .accept h
  · have hs : s.submit = s := by
      simp only [PoolSystem.submit, ThreadPool.submit, decide_eq_false h]
      rfl
    rw [hs]
    exact .reject h

lemma stop_move (s : PoolSystem n) (caller : Option (Fin n)) (wait : Bool) :
    PoolMove s (.stop caller wait) (s.stop caller wait) := by
  by_cases h : s.pool.status = .running
  · have hs : s.stop caller wait =
        { s with
          pool := { s.pool with status := if wait then .waitPending else .cancelPending }
          stops := s.stops ++ [⟨caller, wait, .joining 0 false⟩] } := by
      cases wait <;> simp [PoolSystem.stop, ThreadPool.stop, h]
    rw [hs]
    exact .stop caller wait h
  · have hs : s.stop caller wait = { s with stops := s.stops ++ [⟨caller, wait, .returned⟩] } := by
      simp [PoolSystem.stop, ThreadPool.stop, h]
    rw [hs]
    exact .stopAgain caller wait h

/-- Every step is a move. -/
lemma step_move {s s' : PoolSystem n} {a : PoolAction n} (h : s.step a = some s') : PoolMove s a s' := by
  cases a with
  | submit =>
    cases h
    exact submit_move s
  | stop caller wait =>
    rw [step] at h
    split_ifs at h
    cases h
    exact stop_move s caller wait
  | getTask w =>
    rw [step] at h
    split_ifs at h with hw
    cases h
    exact getTask_move s w hw
  | run w =>
    simp only [step] at h
    split at h
    · cases h
      exact .run w _ ‹_›
    · cases h
  | finish w =>
    simp only [step] at h
    split at h
    · split_ifs at h
      cases h
      exact .finish w _ ‹_›
    · cases h
  | join =>
    simp only [step] at h
    split at h
    · cases h
    · split at h
      · obtain ⟨phase, hphase, rfl⟩ := Option.map_eq_some_iff.mp h
        exact .join _ _ _ _ phase ‹_› ‹_› hphase
      · cases h

/-! ### Tasks -/

/-- The dequeued tasks and the queue are the accepted tasks in order; a dequeued task is held by one
worker or was started once; a started task is finished or running. -/
structure TaskInv (s : PoolSystem n) : Prop where
  order : s.dequeued ++ s.pool.tasksToDo = List.range s.accepted
  holding_mem : ∀ w t, s.workers w = .holding t → t ∈ s.dequeued ∧ t ∉ s.started
  holding_inj : ∀ w w' t, s.workers w = .holding t → s.workers w' = .holding t → w = w'
  started_nodup : s.started.Nodup
  started_mem : ∀ t ∈ s.started, t ∈ s.dequeued
  dequeued_cases : ∀ t ∈ s.dequeued, t ∈ s.started ∨ ∃ w, s.workers w = .holding t
  started_cases : ∀ t ∈ s.started, t ∈ s.finished ∨ ∃ w, s.workers w = .running t

lemma workers_setWorker (s : PoolSystem n) (w w' : Fin n) (phase : WorkerPhase Nat) :
    (s.setWorker w phase).workers w' = if w' = w then phase else s.workers w' := by
  simp only [setWorker, Function.update_apply]

section
variable {s : PoolSystem n} {w : Fin n}

/-- A worker without a task stays without one. -/
lemma TaskInv.setWorker (h : TaskInv s) (hw : s.workers w = .ready ∨ s.workers w = .waiting)
    {phase : WorkerPhase Nat} (hphase : phase = .waiting ∨ phase = .exited) : TaskInv (s.setWorker w phase) where
  order := h.order
  holding_mem := by
    intro w' t ht
    rw [workers_setWorker] at ht
    change t ∈ s.dequeued ∧ t ∉ s.started
    grind [h.holding_mem]
  holding_inj := by
    intro w' w'' t ht ht'
    rw [workers_setWorker] at ht ht'
    grind [h.holding_inj]
  started_nodup := h.started_nodup
  started_mem := h.started_mem
  dequeued_cases := by
    intro t ht
    rcases h.dequeued_cases t ht with hs | ⟨w', hw'⟩
    · exact .inl hs
    · refine .inr ⟨w', ?_⟩
      rw [workers_setWorker]
      grind
  started_cases := by
    intro t ht
    rcases h.started_cases t ht with hs | ⟨w', hw'⟩
    · exact .inl hs
    · refine .inr ⟨w', ?_⟩
      rw [workers_setWorker]
      grind

lemma TaskInv.notMem_dequeued (h : TaskInv s) {task : Nat} {rest : List Nat} (hq : s.pool.tasksToDo = task :: rest) :
    task ∉ s.dequeued := by
  have hnodup : (s.dequeued ++ task :: rest).Nodup := by
    rw [← hq, h.order]
    exact List.nodup_range
  intro hmem
  exact (List.nodup_append.mp hnodup).2.2 task hmem task List.mem_cons_self rfl

lemma TaskInv.dequeue (h : TaskInv s) (hw : s.workers w = .ready ∨ s.workers w = .waiting) {task : Nat}
    {rest : List Nat} (hq : s.pool.tasksToDo = task :: rest) :
    TaskInv ({ s with
      pool := { s.pool with tasksToDo := rest }
      dequeued := s.dequeued ++ [task] }.setWorker w (.holding task)) := by
  have hfresh := h.notMem_dequeued hq
  constructor
  case order =>
    change (s.dequeued ++ [task]) ++ rest = List.range s.accepted
    rw [← h.order, hq, List.append_assoc]
    rfl
  case holding_mem =>
    intro w' t ht
    rw [workers_setWorker] at ht
    change t ∈ s.dequeued ++ [task] ∧ t ∉ s.started
    grind [h.holding_mem, h.started_mem]
  case holding_inj =>
    intro w' w'' t ht ht'
    rw [workers_setWorker] at ht ht'
    grind [h.holding_inj, h.holding_mem]
  case started_nodup => exact h.started_nodup
  case started_mem =>
    intro t ht
    exact List.mem_append_left _ (h.started_mem t ht)
  case dequeued_cases =>
    intro t ht
    rcases List.mem_append.mp ht with ht | ht
    · rcases h.dequeued_cases t ht with hs | ⟨w', hw'⟩
      · exact .inl hs
      · refine .inr ⟨w', ?_⟩
        rw [workers_setWorker]
        grind
    · refine .inr ⟨w, ?_⟩
      rw [workers_setWorker, if_pos rfl, List.mem_singleton.mp ht]
  case started_cases =>
    intro t ht
    rcases h.started_cases t ht with hs | ⟨w', hw'⟩
    · exact .inl hs
    · refine .inr ⟨w', ?_⟩
      rw [workers_setWorker]
      grind

lemma TaskInv.run (h : TaskInv s) {task : Nat} (hw : s.workers w = .holding task) :
    TaskInv ({ s with started := s.started ++ [task] }.setWorker w (.running task)) := by
  obtain ⟨hmem, hnot⟩ := h.holding_mem w task hw
  constructor
  case order => exact h.order
  case holding_mem =>
    intro w' t ht
    rw [workers_setWorker] at ht
    change t ∈ s.dequeued ∧ t ∉ s.started ++ [task]
    grind [h.holding_mem, h.holding_inj]
  case holding_inj =>
    intro w' w'' t ht ht'
    rw [workers_setWorker] at ht ht'
    grind [h.holding_inj]
  case started_nodup =>
    change (s.started ++ [task]).Nodup
    exact List.nodup_append.mpr ⟨h.started_nodup, by simp, by grind⟩
  case started_mem =>
    intro t ht
    rcases List.mem_append.mp ht with ht | ht
    · exact h.started_mem t ht
    · rw [List.mem_singleton.mp ht]
      exact hmem
  case dequeued_cases =>
    intro t ht
    rcases h.dequeued_cases t ht with hs | ⟨w', hw'⟩
    · exact .inl (List.mem_append_left _ hs)
    · by_cases hww : w' = w
      · rw [hww, hw] at hw'
        cases hw'
        exact .inl (List.mem_append_right _ (List.mem_singleton_self _))
      · refine .inr ⟨w', ?_⟩
        rw [workers_setWorker, if_neg hww]
        exact hw'
  case started_cases =>
    intro t ht
    rcases List.mem_append.mp ht with ht | ht
    · rcases h.started_cases t ht with hs | ⟨w', hw'⟩
      · exact .inl hs
      · refine .inr ⟨w', ?_⟩
        rw [workers_setWorker]
        grind
    · refine .inr ⟨w, ?_⟩
      rw [workers_setWorker, if_pos rfl, List.mem_singleton.mp ht]

lemma TaskInv.finish (h : TaskInv s) {task : Nat} (hw : s.workers w = .running task) :
    TaskInv ({ s with finished := s.finished ++ [task] }.setWorker w .ready) := by
  constructor
  case order => exact h.order
  case holding_mem =>
    intro w' t ht
    rw [workers_setWorker] at ht
    change t ∈ s.dequeued ∧ t ∉ s.started
    grind [h.holding_mem]
  case holding_inj =>
    intro w' w'' t ht ht'
    rw [workers_setWorker] at ht ht'
    grind [h.holding_inj]
  case started_nodup => exact h.started_nodup
  case started_mem => exact h.started_mem
  case dequeued_cases =>
    intro t ht
    rcases h.dequeued_cases t ht with hs | ⟨w', hw'⟩
    · exact .inl hs
    · refine .inr ⟨w', ?_⟩
      rw [workers_setWorker]
      grind
  case started_cases =>
    intro t ht
    change t ∈ s.finished ++ [task] ∨ _
    rcases h.started_cases t ht with hs | ⟨w', hw'⟩
    · exact .inl (List.mem_append_left _ hs)
    · by_cases hww : w' = w
      · rw [hww, hw] at hw'
        cases hw'
        exact .inl (List.mem_append_right _ (List.mem_singleton_self _))
      · refine .inr ⟨w', ?_⟩
        rw [workers_setWorker, if_neg hww]
        exact hw'

lemma TaskInv.move {s' : PoolSystem n} {a : PoolAction n} (h : TaskInv s) (hm : PoolMove s a s') : TaskInv s' := by
  cases hm with
  | accept hrun =>
    refine ⟨?_, h.holding_mem, h.holding_inj, h.started_nodup, h.started_mem, h.dequeued_cases, h.started_cases⟩
    change s.dequeued ++ (s.pool.tasksToDo ++ [s.accepted]) = List.range (s.accepted + 1)
    rw [← List.append_assoc, h.order, List.range_succ]
  | reject hrun => exact h
  | stop caller wait hrun =>
    exact ⟨h.order, h.holding_mem, h.holding_inj, h.started_nodup, h.started_mem, h.dequeued_cases, h.started_cases⟩
  | stopAgain caller wait hrun =>
    exact ⟨h.order, h.holding_mem, h.holding_inj, h.started_nodup, h.started_mem, h.dequeued_cases, h.started_cases⟩
  | wait w hw => exact h.setWorker hw (.inl rfl)
  | exit w hw hstatus =>
    have h' : TaskInv (s.setWorker w .exited) := h.setWorker hw (.inr rfl)
    exact ⟨h'.order, h'.holding_mem, h'.holding_inj, h'.started_nodup, h'.started_mem, h'.dequeued_cases,
      h'.started_cases⟩
  | dequeue w task rest hw hstatus hq => exact h.dequeue hw hq
  | run w task hw => exact h.run hw
  | finish w task hw => exact h.finish hw
  | join call stops next hasException phase hs hp hj =>
    exact ⟨h.order, h.holding_mem, h.holding_inj, h.started_nodup, h.started_mem, h.dequeued_cases, h.started_cases⟩

end

/-! ### Stopping -/

/-- The threads that a call of `Stop` has joined without an exception have exited. -/
def Joined (s : PoolSystem n) (call : StopCall n) : Prop :=
  match call.phase with
  | .joining next hasException => hasException = false → ∀ w : Fin n, w.val < next → s.workers w = .exited
  | .returned => ∀ w, s.workers w = .exited
  | .threw => True

/-- Workers exit only when the pool is cancelled, and a pool whose first call of `Stop` waits is
cancelled only with an empty queue. -/
structure StopInv (s : PoolSystem n) : Prop where
  exited : ∀ w, s.workers w = .exited → s.pool.status = .cancelPending
  stopped : s.pool.status = .running ↔ s.stops = []
  drained : ∀ call ∈ s.stops.head?, call.wait = true → s.pool.status = .cancelPending → s.pool.tasksToDo = []
  joined : ∀ call ∈ s.stops.head?, Joined s call

section
variable {s s' : PoolSystem n} {w : Fin n} {a : PoolAction n}

lemma Joined.mono {call : StopCall n} (h : Joined s call)
    (hexited : ∀ w, s.workers w = .exited → s'.workers w = .exited) : Joined s' call := by
  unfold Joined at h ⊢
  split at h
  · exact fun hnone w hw => hexited w (h hnone w hw)
  · exact fun w => hexited w (h w)
  · trivial

lemma exited_setWorker {phase : WorkerPhase Nat} (hw : s.workers w ≠ .exited) :
    ∀ w', s.workers w' = .exited → (s.setWorker w phase).workers w' = .exited := by
  intro w' hw'
  rw [workers_setWorker, if_neg]
  · exact hw'
  · intro heq
    exact hw (heq ▸ hw')

lemma Joined.joinNext {call : StopCall n} {next : Nat} {hasException : Bool} {phase : StopPhase} (h : Joined s call)
    (hp : call.phase = .joining next hasException) (hj : s.joinNext call next hasException = some phase) :
    Joined s { call with phase := phase } := by
  unfold Joined at h
  rw [hp] at h
  unfold PoolSystem.joinNext at hj
  split_ifs at hj with hnext hcaller hexited hex
  · cases hj
    intro hnone
    cases hnone
  · cases hj
    intro hnone w hw
    by_cases hlast : w.val = next
    · have hw' : w = ⟨next, hnext⟩ := Fin.ext hlast
      rw [hw', hexited]
    · exact h hnone w (by omega)
  · cases hj
    trivial
  · cases hj
    intro w
    exact h (by simpa using hex) w (by omega)

/-- A step of a worker that has not exited and does not exit. -/
lemma StopInv.setWorker {phase : WorkerPhase Nat} (h : StopInv s) (hw : s.workers w ≠ .exited)
    (hphase : phase ≠ .exited) : StopInv (s.setWorker w phase) where
  exited := by
    intro w' hw'
    rw [workers_setWorker] at hw'
    split_ifs at hw' with hww
    · exact absurd hw' hphase
    · exact h.exited w' hw'
  stopped := h.stopped
  drained := h.drained
  joined call hcall := (h.joined call hcall).mono (exited_setWorker hw)

lemma StopInv.exit (h : StopInv s) (hw : s.workers w ≠ .exited)
    (hstatus : s.pool.status = .waitPending ∧ s.pool.tasksToDo = [] ∨ s.pool.status = .cancelPending) :
    StopInv ({ s with pool := { s.pool with status := .cancelPending } }.setWorker w .exited) where
  exited _ _ := rfl
  stopped := by
    have hne : s.pool.status ≠ .running := by
      rcases hstatus with ⟨hs, -⟩ | hs <;> simp [hs]
    have hstops : s.stops ≠ [] := fun hnil => hne (h.stopped.mpr hnil)
    change PoolStatus.cancelPending = .running ↔ s.stops = []
    simp [hstops]
  drained := by
    intro call hcall hwait _
    rcases hstatus with ⟨-, hq⟩ | hs
    · exact hq
    · exact h.drained call hcall hwait hs
  joined call hcall := (h.joined call hcall).mono (exited_setWorker hw)

lemma head?_append_of_ne_nil {α : Type} {l l' : List α} (h : l ≠ []) : (l ++ l').head? = l.head? := by
  cases l with
  | nil => exact absurd rfl h
  | cons x l => rfl

lemma StopInv.move (h : StopInv s) (hm : PoolMove s a s') : StopInv s' := by
  cases hm with
  | accept hrun =>
    have hstops := h.stopped.mp hrun
    refine ⟨h.exited, h.stopped, fun call hcall => ?_, h.joined⟩
    rw [hstops] at hcall
    cases hcall
  | reject hrun => exact h
  | stop caller wait hrun =>
    have hstops := h.stopped.mp hrun
    refine ⟨fun w hw => ?_, ?_, fun call hcall hwait hcancel => ?_, fun call hcall => ?_⟩
    · have hcancel := h.exited w hw
      rw [hrun] at hcancel
      cases hcancel
    · cases wait <;> simp
    · rw [hstops] at hcall
      cases hcall
      cases hwait
      cases hcancel
    · rw [hstops] at hcall
      cases hcall
      intro _ w hw
      exact absurd hw (Nat.not_lt_zero _)
  | stopAgain caller wait hrun =>
    have hstops : s.stops ≠ [] := fun hnil => hrun (h.stopped.mpr hnil)
    refine ⟨h.exited, ?_, fun call hcall => ?_, fun call hcall => ?_⟩
    · simp [hrun]
    · rw [head?_append_of_ne_nil hstops] at hcall
      exact h.drained call hcall
    · rw [head?_append_of_ne_nil hstops] at hcall
      exact h.joined call hcall
  | wait w hw => exact h.setWorker (by rcases hw with hw | hw <;> simp [hw]) (by simp)
  | exit w hw hstatus => exact h.exit (by rcases hw with hw | hw <;> simp [hw]) hstatus
  | dequeue w task rest hw hstatus hq =>
    have h' : StopInv (s.setWorker w (.holding task)) :=
      h.setWorker (by rcases hw with hw | hw <;> simp [hw]) (by simp)
    exact ⟨h'.exited, h'.stopped, fun call hcall hwait hcancel => absurd hcancel hstatus,
      fun call hcall => (h'.joined call hcall).mono (fun _ hw' => hw')⟩
  | run w task hw =>
    have h' : StopInv (s.setWorker w (.running task)) := h.setWorker (by simp [hw]) (by simp)
    exact ⟨h'.exited, h'.stopped, h'.drained, fun call hcall => (h'.joined call hcall).mono (fun _ hw' => hw')⟩
  | finish w task hw =>
    have h' : StopInv (s.setWorker w .ready) := h.setWorker (by simp [hw]) (by simp)
    exact ⟨h'.exited, h'.stopped, h'.drained, fun call hcall => (h'.joined call hcall).mono (fun _ hw' => hw')⟩
  | join call stops next hasException phase hs hp hj =>
    refine ⟨h.exited, ?_, fun call' hcall hwait hcancel => ?_, fun call' hcall => ?_⟩
    · rw [h.stopped, hs]
      simp
    · cases hcall
      exact h.drained call (by rw [hs]; rfl) hwait hcancel
    · cases hcall
      exact ((h.joined call (by rw [hs]; rfl)).joinNext hp hj).mono (fun _ hw' => hw')

end

/-! ### The law -/

section
variable {s s' : PoolSystem n} {a : PoolAction n} {actions : List (PoolAction n)}

/-- What every move keeps holds after a run. -/
lemma run_induction {P : PoolSystem n → Prop} (h : P s)
    (hmove : ∀ s a s', P s → PoolMove s a s' → P s') (hrun : s.run actions = some s') : P s' :=
  foldlM_invariant h (fun s a s' hs hstep => hmove s a s' hs (step_move hstep)) hrun

lemma taskInv_initial : TaskInv ({} : PoolSystem n) :=
  ⟨rfl, by simp, by simp, List.nodup_nil, by simp, by simp, by simp⟩

lemma stopInv_initial : StopInv ({} : PoolSystem n) :=
  ⟨by simp, by simp, by simp, by simp⟩

lemma stops_ne_nil_move (h : s.stops ≠ []) (hm : PoolMove s a s') : s'.stops ≠ [] := by
  cases hm with
  | stop caller wait hrun => simp
  | stopAgain caller wait hrun => simp
  | join call stops next hasException phase hs hp hj => simp
  | _ => exact h

/-- After a call of `Stop` there is one, whatever follows. -/
lemma stops_ne_nil_run {caller : Option (Fin n)} {wait : Bool} (hmem : .stop caller wait ∈ actions)
    (hrun : s.run actions = some s') : s'.stops ≠ [] := by
  induction actions generalizing s with
  | nil => cases hmem
  | cons a actions ih =>
    rw [PoolSystem.run, List.foldlM_cons] at hrun
    obtain ⟨s₁, hs₁, hrest⟩ := Option.bind_eq_some_iff.mp hrun
    rcases List.mem_cons.mp hmem with rfl | hmem
    · have hstops : s₁.stops ≠ [] := by
        cases step_move hs₁ <;> simp
      exact run_induction hstops (fun _ _ _ h hm => stops_ne_nil_move h hm) hrest
    · exact ih hmem hrest

lemma dequeued_of_cancelPending (h : s.pool.status = .cancelPending) (hm : PoolMove s a s') :
    s'.dequeued = s.dequeued := by
  cases hm with
  | dequeue w task rest hw hstatus hq => exact absurd h hstatus
  | _ => rfl

/-- The moves of the status. -/
def StatusMove (status status' : PoolStatus) : Prop :=
  status' = status ∨ status = .running ∧ status' = .waitPending ∨ status = .waitPending ∧ status' = .cancelPending ∨
    status = .running ∧ status' = .cancelPending

lemma statusMove_of_move (hm : PoolMove s a s') : StatusMove s.pool.status s'.pool.status := by
  cases hm with
  | stop caller wait hrun =>
    cases wait with
    | true => exact .inr (.inl ⟨hrun, rfl⟩)
    | false => exact .inr (.inr (.inr ⟨hrun, rfl⟩))
  | exit w hw hstatus =>
    rcases hstatus with ⟨hs, -⟩ | hs
    · exact .inr (.inr (.inl ⟨hs, rfl⟩))
    · exact .inl hs.symm
  | _ => exact .inl rfl

/-- When the first call of `Stop` waits and has returned, every accepted task has run. -/
lemma finished_of_returned (hn : 0 < n) (ht : TaskInv s) (hs : StopInv s) {call : StopCall n}
    (hcall : call ∈ s.stops.head?) (hwait : call.wait = true) (hreturned : call.phase = .returned) :
    ∀ t < s.accepted, t ∈ s.finished := by
  have hexited : ∀ w, s.workers w = .exited := by
    have hjoined := hs.joined call hcall
    unfold Joined at hjoined
    rw [hreturned] at hjoined
    exact hjoined
  have hempty : s.pool.tasksToDo = [] := hs.drained call hcall hwait (hs.exited ⟨0, hn⟩ (hexited _))
  have horder := ht.order
  rw [hempty, List.append_nil] at horder
  intro t hlt
  have hdequeued : t ∈ s.dequeued := by
    rw [horder]
    exact List.mem_range.mpr hlt
  have hstarted : t ∈ s.started := by
    rcases ht.dequeued_cases t hdequeued with hstarted | ⟨w, hw⟩
    · exact hstarted
    · rw [hexited w] at hw
      cases hw
  rcases ht.started_cases t hstarted with hfinished | ⟨w, hw⟩
  · exact hfinished
  · rw [hexited w] at hw
    cases hw

/-- The discipline of the pool in a state reached by some steps, and of the step that comes next. -/
structure PoolDiscipline (actions : List (PoolAction n)) (s : PoolSystem n) : Prop where
  atMostOnce : s.started.Nodup ∧ ∀ t ∈ s.started, t < s.accepted
  submissionOrder : s.dequeued = List.range s.dequeued.length ∧ s.dequeued.length ≤ s.accepted
  allRun : ∀ call ∈ s.stops.head?, call.wait = true → call.phase = .returned → ∀ t < s.accepted, t ∈ s.finished
  noDequeue : s.pool.status = .cancelPending → ∀ a s', s.step a = some s' → s'.dequeued = s.dequeued
  rejected : (∃ caller wait, PoolAction.stop caller wait ∈ actions) →
    (∃ e, s.pool.submit s.accepted = .error e) ∧ s.step .submit = some s
  statusMoves : ∀ a s', s.step a = some s' → StatusMove s.pool.status s'.pool.status

/-- The tasks dequeued so far are the first ones. -/
lemma TaskInv.dequeued_eq (h : TaskInv s) :
    s.dequeued = List.range s.dequeued.length ∧ s.dequeued.length ≤ s.accepted := by
  have hlen : s.dequeued.length ≤ s.accepted := by
    have := congrArg List.length h.order
    rw [List.length_append, List.length_range] at this
    omega
  refine ⟨?_, hlen⟩
  have htake := congrArg (List.take s.dequeued.length) h.order
  rw [List.take_left, List.take_range, min_eq_left hlen] at htake
  exact htake

theorem threadPool_discipline (hn : 0 < n) (hrun : ({} : PoolSystem n).run actions = some s) :
    PoolDiscipline actions s := by
  have ht : TaskInv s := run_induction taskInv_initial (fun _ _ _ h hm => h.move hm) hrun
  have hs : StopInv s := run_induction stopInv_initial (fun _ _ _ h hm => h.move hm) hrun
  refine ⟨⟨ht.started_nodup, fun t hmem => ?_⟩, ht.dequeued_eq, fun call hcall hwait hreturned => ?_,
    fun hcancel a s' hstep => dequeued_of_cancelPending hcancel (step_move hstep), ?_,
    fun a s' hstep => statusMove_of_move (step_move hstep)⟩
  · obtain ⟨heq, hlen⟩ := ht.dequeued_eq
    have hdequeued := ht.started_mem t hmem
    rw [heq, List.mem_range] at hdequeued
    omega
  · exact finished_of_returned hn ht hs hcall hwait hreturned
  · rintro ⟨caller, wait, hmem⟩
    have hne : s.pool.status ≠ .running := fun hrunning => stops_ne_nil_run hmem hrun (hs.stopped.mp hrunning)
    have hsubmit : s.pool.submit s.accepted = .error "Submit is impossible, thread pool is stopped" := by
      simp only [ThreadPool.submit, decide_eq_false hne]
      rfl
    refine ⟨⟨_, hsubmit⟩, ?_⟩
    rw [step, PoolSystem.submit, hsubmit]

/-- A task is accepted, the pool is stopped, and its worker runs the task before it exits. -/
theorem stoppedPool_discipline :
    ∃ s : PoolSystem 1,
      ({} : PoolSystem 1).run
        [.submit, .stop none true, .getTask 0, .run 0, .finish 0, .getTask 0, .join, .join] = some s ∧
      s.stops.head? = some ⟨none, true, .returned⟩ ∧ s.accepted = 1 ∧
      PoolDiscipline [.submit, .stop none true, .getTask 0, .run 0, .finish 0, .getTask 0, .join, .join] s :=
  ⟨_, rfl, rfl, rfl, threadPool_discipline (by decide) rfl⟩

/-- A call that waits returns at once when the pool was cancelled before, and an accepted task has
not run. -/
theorem cancelledPool_task_not_run :
    ∃ s : PoolSystem 1,
      ({} : PoolSystem 1).run [.submit, .stop none false, .stop none true] = some s ∧
      s.stops.find? (fun call => call.wait) = some ⟨none, true, .returned⟩ ∧
      ¬∀ t < s.accepted, t ∈ s.finished :=
  ⟨_, rfl, rfl, fun h => absurd (h 0 Nat.zero_lt_one) List.not_mem_nil⟩

end

end IcebergCxx.Proofs

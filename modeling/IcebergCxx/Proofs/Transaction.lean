import IcebergCxx.Transaction

/-!
# What transactions commit

`Commit` marks the transaction before the catalog has taken its files, and `AppendTable` writes files of a transaction
that is committed. Every file is committed exactly once in the runs where neither comes up and no file is left behind by
a writer that throws.
-/

namespace IcebergCxx.Proofs

open Lib

variable {session session' : Session} {files left : List DataFile} {writer : Writer} {committer : Committer}

/-! ### Writers -/

/-- What a caller sees of a writer. -/
def writingResult : Writing → Except String (List DataFile)
  | .wrote files => .ok files
  | .threw _ error => .error error

section
open ParquetWrite

variable (env : ParquetWrite.Environment) (writeUuid : Bytes)

lemma writeToFiles_cons (location : Bytes) (task : WriteTask) (tasks : List WriteTask) :
    writeToFiles env location writeUuid (task :: tasks) = (do
      let first ← writeToFiles env location writeUuid [task]
      let rest ← writeToFiles env location writeUuid tasks
      return first ++ rest) := by
  simp only [writeToFiles, List.mapM_cons, List.mapM_nil, bind_assoc, pure_bind, List.singleton_append]

lemma writingTasks_result (location : Bytes) (tasks : List WriteTask) (files : List DataFile) :
    writingResult (writingTasks env location writeUuid tasks files) =
      (writeToFiles env location writeUuid tasks).map (fun written => files ++ written.map WrittenFile.dataFile) := by
  induction tasks generalizing files with
  | nil => simp [writingTasks, writingResult, writeToFiles, Except.map, pure, Except.pure]
  | cons task tasks ih =>
    rw [writingTasks, writeToFiles_cons env writeUuid location task tasks]
    generalize writeToFiles env location writeUuid [task] = written
    cases written with
    | error e => rfl
    | ok first =>
      simp only [ih, ok_bind]
      cases writeToFiles env location writeUuid tasks with
      | error e => rfl
      | ok rest => simp [Except.map, pure, Except.pure]

/-- The writer of a transaction returns and throws what `ArrowTableToDataFiles` does. -/
lemma parquetWriter_result (table : Table) (location : Bytes) (counter : Int) (spec : Option PartitionSpec) :
    writingResult (parquetWriter env table writeUuid location counter spec) =
      (arrowTableToDataFiles env table location writeUuid counter spec).map
        (fun written => written.map WrittenFile.dataFile) := by
  cases spec with
  | none => exact writingTasks_result env writeUuid location _ []
  | some spec =>
    rw [parquetWriter, arrowTableToDataFiles]
    cases hpartitions : determinePartitions env spec table with
    | error e => rfl
    | ok partitions =>
      simp only [ok_bind]
      cases partitionTasks table counter (env.visit (partitionToRowIndices partitions)) with
      | error e => rfl
      | ok tasks => exact writingTasks_result env writeUuid location tasks []

end

/-! ### Runs -/

/-- What a user has seen of a session: the files of the calls of `AppendTable` that returned. -/
structure History where
  session : Session
  appended : List DataFile := []

/-- A call; the files that it has written are appended when it returns. -/
def History.step (history : History) (call : TransactionCall) : History :=
  match call.run history.session with
  | .ok _ session' =>
    { session := session', appended := history.appended ++ session'.written.drop history.session.written.length }
  | .error _ session' => { history with session := session' }

/-- The history of a new transaction after some calls. -/
def historyOf (location : Bytes) (tableMetadata : Option TableMetadataV2) (autoCommit : Bool)
    (calls : List TransactionCall) : History :=
  calls.foldl History.step
    { session := { transaction := { location := location, tableMetadata := tableMetadata, autoCommit := autoCommit } } }

/-- Some call of `DoCommit` returned. -/
def SomeCommitted (session : Session) : Prop := ∃ files, (files, none) ∈ session.doCommits

/-- Appended files are in exactly one commit once there is one, an attempt that failed can be repeated, and every file
that was written is in a commit or can still be committed. -/
structure ExactlyOnce (history : History) : Prop where
  once : SomeCommitted history.session → ∀ file ∈ history.appended,
    ∃! i : Nat, ∃ files : List DataFile, history.session.doCommits[i]? = some (files, none) ∧ file ∈ files
  retriable : ¬SomeCommitted history.session → history.session.transaction.commited = false ∧
    ∀ committer : Committer, committer history.session.transaction.dataFiles = none →
      ∃ session', Transaction.commit committer history.session = .ok () session' ∧
        session'.doCommits = history.session.doCommits ++ [(history.session.transaction.dataFiles, none)]
  committable : ∀ file ∈ history.session.written,
    (∃ files, (files, none) ∈ history.session.doCommits ∧ file ∈ files) ∨
      (history.session.transaction.commited = false ∧ file ∈ history.session.transaction.dataFiles)

/-- The call does not reach a `DoCommit` that throws, does not leave files behind in a writer that throws and does not
write files after the commit, other than those the transaction has. -/
def Unhindered (session : Session) : TransactionCall → Prop
  | .appendTable writer committer =>
    match writer session.transaction.location session.transaction.cntFiles session.transaction.partitionSpec with
    | .threw left _ => left ⊆ session.transaction.dataFiles
    | .wrote files =>
      (session.transaction.commited = true → files ⊆ session.transaction.dataFiles) ∧
      (session.transaction.commited = false → session.transaction.autoCommit = true →
        committer (session.transaction.dataFiles ++ files) = none)
  | .commit committer => session.transaction.commited = false → committer session.transaction.dataFiles = none

/-! ### Calls -/

/-- The session in which `DoCommit` was called. -/
def afterDoCommit (session : Session) (committer : Committer) : Session :=
  { session with
    transaction := { session.transaction with commited := true }
    doCommits := session.doCommits ++ [(session.transaction.dataFiles, committer session.transaction.dataFiles)] }

lemma commit_of_commited (committer : Committer) (session : Session)
    (h : session.transaction.commited = true) :
    Transaction.commit committer session = .error "Transaction can not be commited twice." session := by
  change (if session.transaction.commited = true then _ else _ : EStateM String Session Unit) session = _
  rw [if_pos h]
  rfl

lemma commit_of_open (committer : Committer) (session : Session)
    (h : session.transaction.commited = false) :
    Transaction.commit committer session = match committer session.transaction.dataFiles with
      | some e => .error e (afterDoCommit session committer)
      | none => .ok () (afterDoCommit session committer) := by
  have hopen : ¬session.transaction.commited = true := by
    rw [h]
    exact Bool.false_ne_true
  change (if session.transaction.commited = true then _ else _ : EStateM String Session Unit) session = _
  rw [if_neg hopen]
  change (match committer session.transaction.dataFiles with
    | some e => throw e
    | none => return () : EStateM String Session Unit) (afterDoCommit session committer) = _
  cases committer session.transaction.dataFiles <;> rfl

/-- The session in which files were written and taken into the transaction. -/
def afterWriting (session : Session) (files : List DataFile) : Session :=
  { session with
    transaction := session.transaction.insertFiles files
    written := session.written ++ files }

lemma appendTable_threw {e : String}
    (h : writer session.transaction.location session.transaction.cntFiles session.transaction.partitionSpec =
      .threw left e) :
    Transaction.appendTable writer committer session =
      .error e { session with written := session.written ++ left } := by
  change (match writer session.transaction.location session.transaction.cntFiles session.transaction.partitionSpec with
    | .threw left e => _
    | .wrote files => _ : EStateM String Session Unit) session = _
  rw [h]
  rfl

lemma appendTable_wrote
    (h : writer session.transaction.location session.transaction.cntFiles session.transaction.partitionSpec =
      .wrote files) :
    Transaction.appendTable writer committer session =
      if session.transaction.autoCommit then Transaction.commit committer (afterWriting session files)
      else .ok () (afterWriting session files) := by
  change (match writer session.transaction.location session.transaction.cntFiles session.transaction.partitionSpec with
    | .threw left e => _
    | .wrote files => _ : EStateM String Session Unit) session = _
  rw [h]
  change (if session.transaction.autoCommit then Transaction.commit committer else return () :
    EStateM String Session Unit) (afterWriting session files) = _
  cases session.transaction.autoCommit <;> rfl

/-! ### The invariant -/

/-- Nothing that was written is lost: it is pending, or it is in the only commit. -/
structure Tracked (session : Session) (appended : List DataFile) : Prop where
  appended : appended ⊆ session.written
  written : session.written ⊆ session.transaction.dataFiles
  pending : session.transaction.commited = false → session.doCommits = []
  committed : session.transaction.commited = true →
    ∃ files, session.doCommits = [(files, none)] ∧ ∀ file, file ∈ files ↔ file ∈ session.transaction.dataFiles

variable {appended : List DataFile} {history : History}

lemma tracked_afterDoCommit (h : Tracked session appended) (hopen : session.transaction.commited = false)
    (hcommitter : committer session.transaction.dataFiles = none) :
    Tracked (afterDoCommit session committer) appended where
  appended := h.appended
  written := h.written
  pending := nofun
  committed _ := by
    refine ⟨session.transaction.dataFiles, ?_, fun _ => Iff.rfl⟩
    rw [afterDoCommit, h.pending hopen, hcommitter, List.nil_append]

lemma tracked_afterWriting (h : Tracked session appended)
    (hfiles : session.transaction.commited = true → files ⊆ session.transaction.dataFiles) :
    Tracked (afterWriting session files) (appended ++ files) where
  appended := List.append_subset.mpr
    ⟨fun file hfile => List.mem_append_left _ (h.appended hfile), List.subset_append_right _ _⟩
  written := List.append_subset.mpr
    ⟨fun file hfile => List.mem_append_left _ (h.written hfile), List.subset_append_right _ _⟩
  pending := h.pending
  committed hcommited := by
    obtain ⟨committed, hcommits, hmem⟩ := h.committed hcommited
    refine ⟨committed, hcommits, fun file => ?_⟩
    rw [hmem]
    refine ⟨List.mem_append_left _, fun hfile => ?_⟩
    obtain hfile | hfile := List.mem_append.mp hfile
    · exact hfile
    · exact hfiles hcommited hfile

lemma Tracked.mono {appended' : List DataFile} (h : Tracked session appended) (happended : appended' ⊆ appended) :
    Tracked session appended' :=
  ⟨List.Subset.trans happended h.appended, h.written, h.pending, h.committed⟩

/-- What is tracked is committed exactly once. -/
lemma Tracked.exactlyOnce (h : Tracked history.session history.appended) : ExactlyOnce history := by
  have hall {file : DataFile} (hfile : file ∈ history.session.written) : file ∈ history.session.transaction.dataFiles :=
    h.written hfile
  cases hcommited : history.session.transaction.commited with
  | false =>
    have hcommits := h.pending hcommited
    have hnone : ¬SomeCommitted history.session := by
      rintro ⟨files, hmem⟩
      rw [hcommits] at hmem
      cases hmem
    refine ⟨fun hsome => absurd hsome hnone, fun _ => ⟨hcommited, ?_⟩, fun file hfile => .inr ⟨hcommited, hall hfile⟩⟩
    intro committer hcommitter
    refine ⟨afterDoCommit history.session committer, ?_, ?_⟩
    · rw [commit_of_open _ _ hcommited, hcommitter]
    · rw [afterDoCommit, hcommitter]
  | true =>
    obtain ⟨files, hcommits, hmem⟩ := h.committed hcommited
    have hsome : (files, none) ∈ history.session.doCommits := by
      rw [hcommits]
      exact List.mem_singleton_self _
    refine ⟨fun _ file hfile => ⟨0, ⟨files, ?_, (hmem file).mpr (hall (h.appended hfile))⟩, ?_⟩,
      fun hnone => absurd ⟨files, hsome⟩ hnone, fun file hfile => .inl ⟨files, hsome, (hmem file).mpr (hall hfile)⟩⟩
    · rw [hcommits]
      rfl
    · rintro i ⟨files', hi, -⟩
      rw [hcommits] at hi
      exact Nat.lt_one_iff.mp (List.getElem?_eq_some_iff.mp hi).1

/-! ### One call -/

lemma step_commit_of_commited (h : history.session.transaction.commited = true) :
    history.step (.commit committer) = history := by
  rw [History.step, TransactionCall.run, commit_of_commited _ _ h]

lemma step_commit_of_open (h : history.session.transaction.commited = false) :
    history.step (.commit committer) = { history with session := afterDoCommit history.session committer } := by
  rw [History.step, TransactionCall.run, commit_of_open _ _ h]
  cases committer history.session.transaction.dataFiles with
  | some e => rfl
  | none =>
    have hnew : (afterDoCommit history.session committer).written.drop history.session.written.length = [] :=
      List.drop_length
    simp only [hnew, List.append_nil]

section
variable (hwriter : writer history.session.transaction.location history.session.transaction.cntFiles
  history.session.transaction.partitionSpec = .wrote files)
include hwriter

lemma step_appendTable_of_kept (hauto : history.session.transaction.autoCommit = false) :
    history.step (.appendTable writer committer) =
      { session := afterWriting history.session files, appended := history.appended ++ files } := by
  have hnew : (afterWriting history.session files).written.drop history.session.written.length = files :=
    List.drop_left
  rw [History.step, TransactionCall.run, appendTable_wrote hwriter, hauto, if_neg Bool.false_ne_true]
  simp only [hnew]

lemma step_appendTable_of_commited (hauto : history.session.transaction.autoCommit = true)
    (hcommited : history.session.transaction.commited = true) :
    history.step (.appendTable writer committer) =
      { history with session := afterWriting history.session files } := by
  have hcommit := commit_of_commited committer (afterWriting history.session files) hcommited
  rw [History.step, TransactionCall.run, appendTable_wrote hwriter, hauto, if_pos rfl, hcommit]

lemma step_appendTable_of_open (hauto : history.session.transaction.autoCommit = true)
    (hcommited : history.session.transaction.commited = false) :
    history.step (.appendTable writer committer) =
      { session := afterDoCommit (afterWriting history.session files) committer
        appended := history.appended ++
          if committer (history.session.transaction.dataFiles ++ files) = none then files else [] } := by
  have hnew : (afterDoCommit (afterWriting history.session files) committer).written.drop
      history.session.written.length = files :=
    List.drop_left
  have hcommit := commit_of_open committer (afterWriting history.session files) hcommited
  change _ = match committer (history.session.transaction.dataFiles ++ files) with
    | some e => _
    | none => _ at hcommit
  rw [History.step, TransactionCall.run, appendTable_wrote hwriter, hauto, if_pos rfl, hcommit]
  cases committer (history.session.transaction.dataFiles ++ files) with
  | some e => simp
  | none => simp [hnew]

end

lemma step_appendTable_of_threw {e : String}
    (h : writer history.session.transaction.location history.session.transaction.cntFiles
      history.session.transaction.partitionSpec = .threw left e) :
    history.step (.appendTable writer committer) =
      { history with session := { history.session with written := history.session.written ++ left } } := by
  rw [History.step, TransactionCall.run, appendTable_threw h]

/-- An unhindered call loses nothing. -/
lemma tracked_step {call : TransactionCall} (h : Tracked history.session history.appended)
    (hcall : Unhindered history.session call) : Tracked (history.step call).session (history.step call).appended := by
  cases call with
  | commit committer =>
    cases hcommited : history.session.transaction.commited with
    | true =>
      rw [step_commit_of_commited hcommited]
      exact h
    | false =>
      rw [step_commit_of_open hcommited]
      exact tracked_afterDoCommit h hcommited (hcall hcommited)
  | appendTable writer committer =>
    cases hwriter : writer history.session.transaction.location history.session.transaction.cntFiles
        history.session.transaction.partitionSpec with
    | threw left e =>
      rw [Unhindered, hwriter] at hcall
      rw [step_appendTable_of_threw hwriter]
      exact ⟨List.Subset.trans h.appended (List.subset_append_left _ _), List.append_subset.mpr ⟨h.written, hcall⟩,
        h.pending, h.committed⟩
    | wrote files =>
      rw [Unhindered, hwriter] at hcall
      obtain ⟨hfiles, hcommitter⟩ := hcall
      have hwritten := tracked_afterWriting h hfiles
      cases hauto : history.session.transaction.autoCommit with
      | false =>
        rw [step_appendTable_of_kept hwriter hauto]
        exact hwritten
      | true =>
        cases hcommited : history.session.transaction.commited with
        | true =>
          rw [step_appendTable_of_commited hwriter hauto hcommited]
          exact hwritten.mono (List.subset_append_left _ _)
        | false =>
          have hnone := hcommitter hcommited hauto
          rw [step_appendTable_of_open hwriter hauto hcommited, if_pos hnone]
          exact tracked_afterDoCommit hwritten hcommited hnone

/-- A file that was written can only be committed if it is one of the transaction. -/
lemma mem_dataFiles_of_committable (files : List DataFile) {file : DataFile} (h : Tracked session appended)
    (hfile : (∃ files, (files, none) ∈ session.doCommits ∧ file ∈ files) ∨
      (session.transaction.commited = false ∧ (file ∈ session.transaction.dataFiles ∨ file ∈ files))) :
    file ∈ session.transaction.dataFiles ∨ (session.transaction.commited = false ∧ file ∈ files) := by
  obtain ⟨committed, hmem, hfile⟩ | ⟨hcommited, hfile | hfile⟩ := hfile
  · cases hcommited : session.transaction.commited with
    | false =>
      rw [h.pending hcommited] at hmem
      cases hmem
    | true =>
      obtain ⟨files', hcommits, hiff⟩ := h.committed hcommited
      rw [hcommits, List.mem_singleton] at hmem
      cases hmem
      exact .inl ((hiff file).mp hfile)
  · exact .inl hfile
  · exact .inr ⟨hcommited, hfile⟩

/-- A first `DoCommit` that throws leaves the transaction committed. -/
lemma committer_of_retriable (h : Tracked session appended) (hopen : session.transaction.commited = false)
    (hretriable : ¬SomeCommitted (afterDoCommit session committer) →
      (afterDoCommit session committer).transaction.commited = false) :
    committer session.transaction.dataFiles = none := by
  cases hcommitter : committer session.transaction.dataFiles with
  | none => rfl
  | some e =>
    refine absurd (hretriable ?_) (by simp [afterDoCommit])
    rintro ⟨files, hmem⟩
    rw [afterDoCommit, h.pending hopen, hcommitter, List.nil_append, List.mem_singleton] at hmem
    cases hmem

/-- A call after which everything is committed exactly once was unhindered. -/
lemma unhindered_of_exactlyOnce {call : TransactionCall} (h : Tracked history.session history.appended)
    (hstep : ExactlyOnce (history.step call)) : Unhindered history.session call := by
  cases call with
  | commit committer =>
    intro hcommited
    rw [step_commit_of_open hcommited] at hstep
    exact committer_of_retriable h hcommited (fun hnone => (hstep.retriable hnone).1)
  | appendTable writer committer =>
    cases hwriter : writer history.session.transaction.location history.session.transaction.cntFiles
        history.session.transaction.partitionSpec with
    | threw left e =>
      rw [Unhindered, hwriter]
      rw [step_appendTable_of_threw hwriter] at hstep
      intro file hfile
      obtain hcommitted | ⟨hcommited, hpending⟩ := hstep.committable file (List.mem_append_right _ hfile)
      · simpa using mem_dataFiles_of_committable [] h (.inl hcommitted)
      · exact hpending
    | wrote files =>
      rw [Unhindered, hwriter]
      constructor
      · intro hcommited
        have hstate : (history.step (.appendTable writer committer)).session = afterWriting history.session files := by
          cases hauto : history.session.transaction.autoCommit with
          | false => rw [step_appendTable_of_kept hwriter hauto]
          | true => rw [step_appendTable_of_commited hwriter hauto hcommited]
        intro file hfile
        have hcommittable := hstep.committable file
        rw [hstate] at hcommittable
        obtain hcommitted | ⟨hopen, -⟩ := hcommittable (List.mem_append_right _ hfile)
        · simpa using mem_dataFiles_of_committable [] h (.inl hcommitted)
        · change history.session.transaction.commited = false at hopen
          rw [hcommited] at hopen
          cases hopen
      · intro hcommited hauto
        rw [step_appendTable_of_open hwriter hauto hcommited] at hstep
        have hwritten : Tracked (afterWriting history.session files) (history.appended ++ files) := by
          refine tracked_afterWriting h fun htrue => ?_
          rw [hcommited] at htrue
          cases htrue
        exact committer_of_retriable hwritten hcommited (fun hnone => (hstep.retriable hnone).1)

/-! ### All calls -/

lemma run_exactlyOnce_iff {calls : List TransactionCall} (h : Tracked history.session history.appended) :
    (∀ pre, pre <+: calls → ExactlyOnce (pre.foldl History.step history)) ↔
      ∀ pre call, pre ++ [call] <+: calls → Unhindered (pre.foldl History.step history).session call := by
  induction calls generalizing history with
  | nil => simp [h.exactlyOnce]
  | cons call calls ih =>
    constructor
    · intro hall
      have hcall : Unhindered history.session call :=
        unhindered_of_exactlyOnce h (hall [call] (by simp))
      have htail := (ih (tracked_step h hcall)).mp (fun pre hpre => hall (call :: pre) (by simpa using hpre))
      intro pre call' hpre
      cases pre with
      | nil =>
        obtain rfl : call' = call := by simpa using hpre
        exact hcall
      | cons first pre =>
        obtain ⟨rfl, hrest⟩ : first = call ∧ pre ++ [call'] <+: calls := by simpa using hpre
        exact htail pre call' hrest
    · intro hall
      have hcall : Unhindered history.session call := hall [] call (by simp)
      have htail := (ih (tracked_step h hcall)).mpr
        (fun pre call' hpre => hall (call :: pre) call' (by simpa using hpre))
      intro pre hpre
      cases pre with
      | nil => exact h.exactlyOnce
      | cons first pre =>
        obtain ⟨rfl, hrest⟩ : first = call ∧ pre <+: calls := by simpa using hpre
        exact htail pre hrest

/-- In every state of a run files are committed exactly once, if and only if every call of it is unhindered. -/
theorem transactions_exactlyOnce_iff (location : Bytes) (tableMetadata : Option TableMetadataV2) (autoCommit : Bool)
    (calls : List TransactionCall) :
    (∀ pre, pre <+: calls → ExactlyOnce (historyOf location tableMetadata autoCommit pre)) ↔
      ∀ pre call, pre ++ [call] <+: calls →
        Unhindered (historyOf location tableMetadata autoCommit pre).session call :=
  run_exactlyOnce_iff ⟨List.Subset.refl _, List.Subset.refl _, fun _ => rfl, nofun⟩

/-- The commit of a written file throws: the second attempt is refused, and the file can not be committed. -/
theorem failedCommit_final :
    let history := historyOf (bytes "loc") none false
      [.appendTable (fun _ _ _ => .wrote [{ filePath := bytes "loc/a" }]) (fun _ => none), .commit (fun _ => some "busy")]
    ¬ExactlyOnce history ∧
      Transaction.commit (fun _ => none) history.session =
        .error "Transaction can not be commited twice." history.session := by
  refine ⟨fun h => ?_, rfl⟩
  have hnone : ¬SomeCommitted (historyOf (bytes "loc") none false
      [.appendTable (fun _ _ _ => .wrote [{ filePath := bytes "loc/a" }]) (fun _ => none),
        .commit (fun _ => some "busy")]).session := by
    rintro ⟨files, hmem⟩
    change (files, none) ∈ [(_, some "busy")] at hmem
    simp at hmem
  obtain ⟨hopen, -⟩ := h.retriable hnone
  cases hopen

end IcebergCxx.Proofs

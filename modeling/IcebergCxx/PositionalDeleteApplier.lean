import IcebergCxx.IcebergStream
import IcebergCxx.PositionalDelete

/-!
# The positional delete applier

`PositionalDeleteApplier` keeps a `PositionalDeleteStream` as long as the batches of a partition
come in order. Opening a delete file and reading from it can fail at any point; the exception leaves
the applier with what was changed before. Delete files do not change while they are read.
-/

namespace IcebergCxx

open Lib PositionalDeleteStream

/-! ### Selection vectors -/

/-- `SelectionVector::DeleteIfEqual`, on the indices from the one to check on and the rows from the
current one on. -/
def deleteIfEqual : List Nat → List Int → List Nat
  | [], _ => []
  | row :: rows, deleted =>
    match deleted.dropWhile (fun d => d < (row : Int)) with
    | [] => row :: rows
    | d :: rest => if d = row then deleteIfEqual rows (d :: rest) else row :: deleteIfEqual rows (d :: rest)

lemma deleteIfEqual_sublist (rows : List Nat) (deleted : List Int) : (deleteIfEqual rows deleted).Sublist rows := by
  induction rows generalizing deleted with
  | nil => exact List.Sublist.refl _
  | cons row rows ih =>
    rw [deleteIfEqual]
    split
    · exact List.Sublist.refl _
    · split_ifs
      · exact (ih _).cons row
      · exact (ih _).cons_cons row

/-- A batch with the number of its rows; the selected rows are in ascending order. -/
structure RowBatch extends IcebergBatch where
  numRows : Nat
  increasing : selectionVector.Pairwise (· < ·)
  inRange : ∀ row ∈ selectionVector, row < numRows

/-- The batch with some of its selected rows. -/
def RowBatch.select (batch : RowBatch) (rows : List Nat) (h : rows.Sublist batch.selectionVector) : RowBatch where
  toIcebergBatch := { batch.toIcebergBatch with selectionVector := rows }
  numRows := batch.numRows
  increasing := batch.increasing.sublist h
  inRange row hrow := batch.inRange row (h.subset hrow)

/-! ### Queries that can fail -/

namespace PositionalDeleteStream

variable (Q : MinQueue Reader.getPosition)

/-- What an exception leaves in the loop of `GetDeleted`. -/
structure Thrown where
  message : String
  queue : List Reader

/-- One round of the loop of `GetDeleted`. A round that does not end the loop steps the popped
reader; when the step fails the reader is not back in the queue. -/
def tryGetDeletedStep (fault : Option String) (query : Query) (dataLayer : Int) (s : LoopState) :
    Except Thrown (LoopState ⊕ LoopState) :=
  match Q.pop s.2 with
  | none => .ok (.inr s)
  | some (_, queue) =>
    match getDeletedStep Q query dataLayer s, fault with
    | .ok (.inr t), _ => .ok (.inr t)
    | .ok (.inl t), none => .ok (.inl t)
    | .ok (.inl _), some message => .error ⟨message, queue⟩
    | .error message, _ => .error ⟨message, queue⟩

/-- The loop of `GetDeleted`; `faults` says in which rounds the step of the reader fails. -/
def tryGetDeletedLoop (faults : Nat → Option String) (query : Query) (dataLayer : Int) :
    Nat → Nat → LoopState → Except Thrown LoopState
  | 0, _, s => .error ⟨"round limit", s.2⟩
  | n + 1, round, s =>
    match tryGetDeletedStep Q (faults round) query dataLayer s with
    | .error thrown => .error thrown
    | .ok (.inl s') => tryGetDeletedLoop faults query dataLayer n (round + 1) s'
    | .ok (.inr t) => .ok t

/-- `GetDeleted` with the stream it leaves, also when it throws. -/
def tryGetDeleted (faults : Nat → Option String) (stream : PositionalDeleteStream) (query : Query) (dataLayer : Int) :
    Except (String × PositionalDeleteStream) (List Int × PositionalDeleteStream) :=
  if inOrder stream.lastQuery query = true then
    match tryGetDeletedLoop Q faults query dataLayer (loopWork ([], stream.queue) + 1) 0 ([], stream.queue) with
    | .ok (rows, queue) => .ok (rows, { queue, lastQuery := some query })
    | .error thrown => .error (thrown.message, { queue := thrown.queue, lastQuery := some query })
  else .error (orderingMessage, stream)

/-- Opens one delete file, unless that fails. -/
def tryOpenFile (openFaults : Bytes → Option String) (cb : Bytes → DeleteFile) (queue : List Reader)
    (file : Int × Bytes) : Except String (List Reader) :=
  match openFaults file.2 with
  | some message => .error message
  | none => openFile Q cb queue file

/-- The constructor of `PositionalDeleteStream` when opening a file can fail. -/
def tryMake (openFaults : Bytes → Option String) (urls : OrdMap Int (List Bytes)) (cb : Bytes → DeleteFile) :
    Except String PositionalDeleteStream := do
  let queue ← (filesOf urls).foldlM (tryOpenFile Q openFaults cb) []
  .ok { queue }

end PositionalDeleteStream

/-! ### The applier -/

structure PositionalDeletes where
  deleteEntries : OrdMap Int (OrdMap Int (List PositionalDeleteInfo))

/-- The inner loop of `GetDeleteUrls`, over the delete entries of one layer. -/
def addDeleteUrls (urls : OrdMap Int (List Bytes)) (layer : Int × List PositionalDeleteInfo) :
    OrdMap Int (List Bytes) :=
  layer.2.foldl (fun urls delEntry => urls.alter layer.1 (fun paths => paths.getD [] ++ [delEntry.path])) urls

/-- `PositionalDeletes::GetDeleteUrls`. -/
def PositionalDeletes.getDeleteUrls (deletes : PositionalDeletes) (partition : Int) : OrdMap Int (List Bytes) :=
  ((deletes.deleteEntries.find? partition).getD ∅).entries.foldl addDeleteUrls ∅

/-- `PartitionLayerFilePosition`. -/
structure PartitionLayerFilePosition extends PartitionLayerFile where
  rowPosition : Int
  deriving DecidableEq

/-- The state of `PositionalDeleteApplier`. -/
structure PositionalDeleteApplier where
  positionalDelete : Option PositionalDeleteStream := none
  currentState : Option PartitionLayerFilePosition := none

/-- What a call of `ReadNext` meets: the next batch of the input, the delete files that cannot be
opened and the rounds in which a delete file cannot be read. -/
structure ReadAttempt where
  batch : RowBatch
  openFaults : Bytes → Option String := fun _ => none
  readFaults : Nat → Option String := fun _ => none

namespace PositionalDeleteApplier

/-- `can_reuse_state`. -/
def canReuseState (applier : PositionalDeleteApplier) (batch : RowBatch) : Bool :=
  match applier.currentState with
  | none => false
  | some state => decide (state.partition = batch.partition ∧
      (state.path < batch.path ∨ batch.path = state.path ∧ state.rowPosition ≤ batch.rowPosition))

variable (Q : MinQueue Reader.getPosition) (deletes : PositionalDeletes) (cb : Bytes → DeleteFile)

/-- The query for the rows of a batch. -/
def queryOf (batch : RowBatch) : Query where
  url := batch.path
  begin := batch.rowPosition
  finish := batch.rowPosition + batch.numRows

/-- The part of `ReadNext` with a stream of deletes. -/
def applyDeletes (readFaults : Nat → Option String) (applier : PositionalDeleteApplier) (stream : PositionalDeleteStream)
    (batch : RowBatch) : Except String RowBatch × PositionalDeleteApplier :=
  match tryGetDeleted Q readFaults stream (queryOf batch) batch.layer with
  | .error (message, stream) => (.error message, { applier with positionalDelete := some stream })
  | .ok (deleteRows, stream) =>
    let rows := deleteRows.map (fun row => row - batch.rowPosition)
    (.ok (batch.select (deleteIfEqual batch.selectionVector rows) (deleteIfEqual_sublist _ _)), {
      positionalDelete := some stream
      currentState := some ⟨batch.toPartitionLayerFile, batch.rowPosition + batch.numRows⟩ })

/-- `ReadNext` with a batch from the input: what it returns or throws, and the applier after it. -/
def readNext (applier : PositionalDeleteApplier) (attempt : ReadAttempt) :
    Except String RowBatch × PositionalDeleteApplier :=
  if applier.canReuseState attempt.batch then
    match applier.positionalDelete with
    | some stream => applyDeletes Q attempt.readFaults applier stream attempt.batch
    | none => (.ok attempt.batch, applier)
  else if deletes.deleteEntries.contains attempt.batch.partition then
    match tryMake Q attempt.openFaults (deletes.getDeleteUrls attempt.batch.partition) cb with
    | .error message => (.error message, {})
    | .ok stream => applyDeletes Q attempt.readFaults { positionalDelete := some stream } stream attempt.batch
  else (.ok attempt.batch, {})

/-- One call of `ReadNext` after the other, whatever the earlier ones gave. -/
def readAll (applier : PositionalDeleteApplier) : List ReadAttempt → List (Except String RowBatch)
  | [] => []
  | attempt :: attempts =>
    (applier.readNext Q deletes cb attempt).1 :: readAll (applier.readNext Q deletes cb attempt).2 attempts

end PositionalDeleteApplier

end IcebergCxx

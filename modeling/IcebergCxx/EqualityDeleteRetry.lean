import IcebergCxx.EqualityDeleteApplier

/-!
# Equality deletes when loading them fails

`AppendDelete` can fail when a delete file is opened or read, when there are too many rows or when a
file does not fit its key columns. `ReadNext` then throws, and the next call goes on with what was
loaded before: `SetDeletes` has already recorded the partition.
-/

namespace IcebergCxx

open Lib

/-- A failure of the storage during one `AppendDelete`: the file cannot be opened, or it cannot be
read after some record batches. -/
inductive LoadFault
  | opening (message : String)
  | reading (batches : Nat) (message : String)

/-- Whether the next record batch can be read, and the fault for the ones after it. -/
def LoadFault.next : LoadFault → Except String LoadFault
  | .opening message => .ok (.opening message)
  | .reading 0 message => .error message
  | .reading (batches + 1) message => .ok (.reading batches message)

/-- `ParseEqualityDeleteFile`: the failure, if there is one, and the delete with what was added. -/
def parseEqualityDeleteFile (fault : Option LoadFault) (del : EqualityDelete) :
    List AddCall → Option String × EqualityDelete
  | [] =>
    match fault.map LoadFault.next with
    | some (.error message) => (some message, del)
    | _ => (none, del)
  | call :: calls =>
    match fault.map LoadFault.next with
    | some (.error message) => (some message, del)
    | next =>
      match del.add call.arrays call.rowsCount call.deleteLayer with
      | .error message => (some message, del)
      | .ok del => parseEqualityDeleteFile (next.bind Except.toOption) del calls

namespace EqualityDeleteHandler

/-- The part of `AppendDelete` before the file is read: the key columns, the reader and the delete
that takes the rows. -/
def openDelete (ctx : EqualityDeleteContext) (handler : EqualityDeleteHandler) (url : Bytes) (fieldIdsVec : List Int) :
    Except String (List Int × RecordBatchReader × EqualityDelete) := do
  let file ← ctx.openParquet url
  ensure (handler.currentRows + file.numRows ≤ ctx.config.maxRows) "Equality delete rows limit exceeded"
  let fieldIds := sortUnique fieldIdsVec
  let reader ← prepareRecordBatchReader file fieldIds
  let del ← (match handler.materializedDeletes.find? fieldIds with
    | some del => .ok del
    | none => makeEqualityDelete ctx.sortBy reader.schema ctx.config.useSpecializedDeletes)
  return (fieldIds, reader, del)

/-- The calls of `Add` for the record batches of a reader. -/
def addCalls (reader : RecordBatchReader) (deleteLayer : Int) : List AddCall :=
  reader.batches.map (fun batch => ⟨batch.2, batch.1, deleteLayer⟩)

/-- `AppendDelete`: the failure, if there is one, and the handler after it. -/
def tryAppendDelete (ctx : EqualityDeleteContext) (fault : Option LoadFault) (handler : EqualityDeleteHandler)
    (url : Bytes) (fieldIdsVec : List Int) (deleteLayer : Int) : Option String × EqualityDeleteHandler :=
  match fault with
  | some (.opening message) => (some message, handler)
  | fault =>
    match handler.openDelete ctx url fieldIdsVec with
    | .error message => (some message, handler)
    | .ok (fieldIds, reader, del) =>
      match parseEqualityDeleteFile fault del (addCalls reader deleteLayer) with
      | (some message, del) =>
        (some message, { handler with materializedDeletes := handler.materializedDeletes.insert fieldIds del })
      | (none, del) =>
        let materializedDeletes := handler.materializedDeletes.insert fieldIds del
        (none, { handler with
          materializedDeletes
          currentRows := (materializedDeletes.values.map EqualityDelete.size).sum })

end EqualityDeleteHandler

/-- What a call of `ReadNext` meets: the next batch of the input and the failures while the delete
files of a partition are loaded, by their number. -/
structure BatchAttempt where
  batch : IcebergBatch
  faults : Nat → Option LoadFault := fun _ => none

namespace EqualityDeleteApplier

variable (ctx : EqualityDeleteContext) (builder : FileReaderBuilder)

/-- The loops of `SetDeletes`, which end at the first failure. -/
def trySetDeletes (faults : Nat → Option LoadFault) :
    Nat → List (Int × EqualityDeleteInfo) → EqualityDeleteHandler → Option String × EqualityDeleteHandler
  | _, [], handler => (none, handler)
  | n, del :: dels, handler =>
    match handler.tryAppendDelete ctx (faults n) del.2.path del.2.fieldIds del.1 with
    | (some message, handler) => (some message, handler)
    | (none, handler) => trySetDeletes faults (n + 1) dels handler

/-- `ApplyDeletes` with the applier it leaves, also when it throws. -/
def tryApplyDeletes (applier : EqualityDeleteApplier) (batch : IcebergBatch) :
    Except String IcebergBatch × EqualityDeleteApplier :=
  match applier.applyDeletes builder batch with
  | .ok (applier, batch) => (.ok batch, applier)
  | .error message => (.error message,
      { applier with equalityDeleteHandler := (applier.equalityDeleteHandler.prepareDeletesForFile batch.layer).2 })

/-- `ReadNext` for a batch that the input returned: what it returns or throws, and the applier
after it. -/
def tryReadNext (applier : EqualityDeleteApplier) (attempt : BatchAttempt) :
    Except String IcebergBatch × EqualityDeleteApplier :=
  if applier.currentState = some attempt.batch.partition then applier.tryApplyDeletes builder attempt.batch
  else
    match trySetDeletes ctx attempt.faults 0 (builder.equalityDeletes.deletesOf attempt.batch.partition) {} with
    | (some message, handler) => (.error message, ⟨handler, some attempt.batch.partition⟩)
    | (none, handler) => tryApplyDeletes builder ⟨handler, some attempt.batch.partition⟩ attempt.batch

/-- One call of `ReadNext` after the other, whatever the earlier ones gave. -/
def tryReadAll (applier : EqualityDeleteApplier) : List BatchAttempt → List (Except String IcebergBatch)
  | [] => []
  | attempt :: attempts =>
    (applier.tryReadNext ctx builder attempt).1 :: tryReadAll (applier.tryReadNext ctx builder attempt).2 attempts

end EqualityDeleteApplier

end IcebergCxx

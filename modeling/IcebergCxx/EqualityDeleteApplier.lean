import IcebergCxx.IcebergStream

/-!
# Applying equality deletes to batches

`EqualityDeleteHandler` materializes the equality delete files of a partition, one
`EqualityDelete` for each set of key columns, and `EqualityDeleteApplier` runs the batches of a
scan through the handler of their partition. Opening a file and the order that `std::sort` gives
equal elements are parameters; the memory accounting is left out.
-/

namespace IcebergCxx

open Lib

/-- `EqualityDelete::Size`. -/
def EqualityDelete.size : EqualityDelete → Nat
  | .generic del => del.values.entries.length
  | .oneColumn del => del.values.entries.length + (if del.containsNull then 1 else 0)
  | .multipleColumn del =>
    del.values.entries.length + (del.valuesWithNulls.values.map (fun values => values.entries.length)).sum

/-- An equality delete file: the field ids and types of its columns and its rows, in batches of all
columns. -/
structure EqualityDeleteFile where
  columns : List (Int × KeyType)
  batches : List (Nat × List KeyArray)

def EqualityDeleteFile.numRows (file : EqualityDeleteFile) : Nat := (file.batches.map Prod.fst).sum

/-- `arrow::RecordBatchReader` over some of the columns. -/
structure RecordBatchReader where
  schema : List KeyType
  batches : List (Nat × List KeyArray)

/-- `PrepareRecordBatchReader`: the columns in the order of their field ids. -/
def prepareRecordBatchReader (file : EqualityDeleteFile) (fieldIds : List Int) : Except String RecordBatchReader := do
  let positions ← fieldIds.mapM (fun id =>
    match (file.columns.map Prod.fst).idxOf? id with
    | some position => .ok position
    | none => .error ("Column with field id " ++ toString id ++ " is not found in equality delete file"))
  return {
    schema := positions.filterMap (fun position => (file.columns[position]?).map Prod.snd)
    batches := file.batches.map (fun (rows, arrays) => (rows, positions.filterMap (fun position => arrays[position]?))) }

/-- `EqualityDeleteHandler::Config`, without the limits of memory. -/
structure EqualityDeleteConfig where
  maxRows : Nat
  useSpecializedDeletes : Bool

/-- What an applier is given. -/
structure EqualityDeleteContext where
  sortBy : ∀ width : Nat → Nat, DescendingSort width
  config : EqualityDeleteConfig
  openParquet : Bytes → Except String EqualityDeleteFile

structure EqualityDeleteHandler where
  currentRows : Nat := 0
  materializedDeletes : OrdMap (List Int) EqualityDelete := ∅
  deletesForCurrentRowGroup : List (EqualityDelete × List Int) := []
  currentDataLayer : Option Int := none

namespace EqualityDeleteHandler

/-- `AppendDelete`. -/
def appendDelete (ctx : EqualityDeleteContext) (handler : EqualityDeleteHandler) (url : Bytes)
    (fieldIdsVec : List Int) (deleteLayer : Int) : Except String EqualityDeleteHandler := do
  let file ← ctx.openParquet url
  ensure (handler.currentRows + file.numRows ≤ ctx.config.maxRows) "Equality delete rows limit exceeded"
  let fieldIds := sortUnique fieldIdsVec
  let reader ← prepareRecordBatchReader file fieldIds
  let del ← (match handler.materializedDeletes.find? fieldIds with
    | some del => .ok del
    | none => makeEqualityDelete ctx.sortBy reader.schema ctx.config.useSpecializedDeletes)
  -- `ParseEqualityDeleteFile`
  let del ← del.addAll (reader.batches.map (fun (rows, arrays) => ⟨arrays, rows, deleteLayer⟩))
  let materializedDeletes := handler.materializedDeletes.insert fieldIds del
  return { handler with
    materializedDeletes
    currentRows := (materializedDeletes.values.map EqualityDelete.size).sum }

/-- `PrepareDeletesForFile`. -/
def prepareDeletesForFile (handler : EqualityDeleteHandler) (dataLayer : Int) : Bool × EqualityDeleteHandler :=
  let deletes := (handler.materializedDeletes.entries.filter (fun entry => 0 < entry.2.size)).map
    (fun entry => (entry.2, entry.1))
  (!deletes.isEmpty,
    { handler with
      currentDataLayer := some dataLayer
      deletesForCurrentRowGroup := deletes })

/-- `GetEqualityDeleteFieldIds`. -/
def getEqualityDeleteFieldIds (handler : EqualityDeleteHandler) : List Int :=
  handler.materializedDeletes.keys.flatten.dedup

/-- `PrepareDeletesForBatch` and `IsDeleted`. -/
def isDeleted (handler : EqualityDeleteHandler) (fieldIdToArray : OrdMap Int KeyArray) (dataLayer : Int) (row : Nat) :
    Bool :=
  handler.deletesForCurrentRowGroup.any (fun (del, fieldIds) =>
    del.isDeleted (fieldIds.filterMap fieldIdToArray.find?) row dataLayer)

end EqualityDeleteHandler

/-- The state of an `EqualityDeleteApplier`. -/
structure EqualityDeleteApplier where
  equalityDeleteHandler : EqualityDeleteHandler := {}
  currentState : Option Int := none

namespace EqualityDeleteApplier

variable (ctx : EqualityDeleteContext) (builder : FileReaderBuilder)

/-- `SetDeletes`, with a new handler. -/
def setDeletes (partition : Int) : Except String EqualityDeleteHandler :=
  (builder.equalityDeletes.deletesOf partition).foldlM
    (fun handler (layerId, del) => handler.appendDelete ctx del.path del.fieldIds layerId) {}

/-- The first half of `ReadNext`: the deletes of the batch's partition, unless they are there. -/
def changePartition (applier : EqualityDeleteApplier) (partition : Int) : Except String EqualityDeleteApplier :=
  if applier.currentState = some partition then .ok applier
  else do
    let handler ← setDeletes ctx builder partition
    return { equalityDeleteHandler := handler, currentState := some partition }

/-- `MakeFieldIdToArray`. -/
def makeFieldIdToArray (mapper : FieldIdMapper) (handler : EqualityDeleteHandler) (batch : IcebergBatch) :
    Except String (OrdMap Int KeyArray) :=
  handler.getEqualityDeleteFieldIds.foldlM (fun arrays id =>
    match batch.getColumnByName (mapper.fieldIdToColumnName id) with
    | some array => .ok (arrays.emplace id array)
    | none => .error ("EqualityDeleteApplier: column " ++ text (mapper.fieldIdToColumnName id) ++
        " for field id " ++ toString id ++ " is not found")) ∅

/-- `ApplyDeletes`, once the partition is that of the batch. -/
def applyDeletes (applier : EqualityDeleteApplier) (batch : IcebergBatch) :
    Except String (EqualityDeleteApplier × IcebergBatch) :=
  let (prepared, handler) := applier.equalityDeleteHandler.prepareDeletesForFile batch.layer
  let applier := { applier with equalityDeleteHandler := handler }
  if prepared then do
    let fieldIdToArray ← makeFieldIdToArray builder.mapper handler batch
    return (applier,
      { batch with
        selectionVector :=
          batch.selectionVector.filter (fun row => !handler.isDeleted fieldIdToArray batch.layer row) })
  else .ok (applier, batch)

/-- `ReadNext`, for the batch that the input returned. -/
def readNext (applier : EqualityDeleteApplier) (batch : IcebergBatch) :
    Except String (EqualityDeleteApplier × IcebergBatch) := do
  let applier ← applier.changePartition ctx builder batch.partition
  applier.applyDeletes builder batch

/-- The applier after it has read some batches. -/
def readAll (applier : EqualityDeleteApplier) (batches : List IcebergBatch) : Except String EqualityDeleteApplier :=
  batches.foldlM (fun applier batch => do
    let (applier, _) ← applier.readNext ctx builder batch
    return applier) applier

end EqualityDeleteApplier

end IcebergCxx

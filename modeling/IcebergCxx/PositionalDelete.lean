import IcebergCxx.Basic
import IcebergCxx.Lib.WorkQueue

/-!
# The positional delete stream

`PositionalDeleteStream` merges delete files, each sorted by path and position, with a
priority queue of lazily read files. `GetDeleted` answers the deleted positions of a range
of a data file; row groups are skipped by their statistics.
-/

namespace IcebergCxx

open Lib

/-- `parquet::Type` of a column, as far as the constructor tells the types apart. -/
inductive ParquetType
  | byteArray
  | int64
  | other
deriving DecidableEq, Repr

/-- What a column chunk says about its values: `none` when no statistics are set, `some none`
when they are set without a minimum and maximum. -/
abbrev ChunkStatistics (α : Type) := Option (Option (α × α))

/-- A row group of a delete file: its rows and the statistics of its two columns. A value of a
nullable column may be absent. -/
structure DeleteRowGroup where
  rows : List (Option Bytes × Option Int) := []
  filePathStatistics : ChunkStatistics Bytes := none
  posStatistics : ChunkStatistics Int := none
deriving DecidableEq, Repr

structure DeleteFile where
  columnTypes : List ParquetType := [.byteArray, .int64]
  rowGroups : List DeleteRowGroup := []
deriving DecidableEq, Repr

namespace PositionalDeleteStream

/-- `PositionalDeleteStream::Reader`. The row groups behind the current one are `rowGroups`; the
unread rows of the current one are `columnReaders` once its columns are open. -/
structure Reader where
  layer : Int
  rowGroups : List DeleteRowGroup
  currentRowGroup : DeleteRowGroup := {}
  columnReaders : Option (List (Option Bytes × Option Int)) := none
  currentFilePathValue : Bytes := []
  currentFilePath : Option Bytes := none
  currentPos : Option Int := none
deriving DecidableEq, Repr

/-- The constructor of `Reader`. -/
def Reader.make (file : DeleteFile) (layer : Int) : Except String Reader := do
  ensure (file.columnTypes.length == 2 || file.columnTypes.length == 3)
    ("Unexpected number of columns in delete files: " ++ toString file.columnTypes.length)
  ensure (file.columnTypes[0]? == some .byteArray) "Unexpected column 0 type"
  ensure (file.columnTypes[1]? == some .int64) "Unexpected column 1 type"
  .ok { layer, rowGroups := file.rowGroups }

/-- `Reader::NextRowGroup`. -/
def Reader.nextRowGroup (r : Reader) : Bool × Reader :=
  let r := { r with
    currentFilePathValue := []
    columnReaders := none }
  match r.rowGroups with
  | [] => (false, r)
  | group :: rowGroups => (true, { r with
      rowGroups
      currentRowGroup := group
      currentPos := none
      currentFilePath := none })

/-- `Reader::ReadValueNotNull`. -/
def readValueNotNull {α : Type} : Option α → Except String α
  | some value => .ok value
  | none => .error "Delete file: unexpected number of rows read 1 values read 0"

/-- `Reader::Next`. The value the path is compared with is the empty one that `NextRowGroup`
leaves, so that every non-empty path is taken over. -/
def Reader.next (r : Reader) : Except String (Bool × Reader) :=
  match r.columnReaders.getD r.currentRowGroup.rows with
  | (filePathCell, posCell) :: rows => do
    let filePathValue ← readValueNotNull filePathCell
    let pos ← readValueNotNull posCell
    .ok (true, { r with
      columnReaders := some rows
      currentFilePath := if r.currentFilePathValue = filePathValue then r.currentFilePath else some filePathValue
      currentPos := some pos })
  | [] => .ok { r with columnReaders := some [] }.nextRowGroup

/-- The order of `std::pair<std::optional<std::string>, std::optional<int64_t>>`: an absent
value is less than every value. -/
abbrev Position := WithBot Bytes ×ₗ WithBot Int

def position (path : WithBot Bytes) (pos : WithBot Int) : Position := toLex (path, pos)

/-- `ReaderHolder::IsStarted`. -/
def Reader.isStarted (r : Reader) : Bool := r.currentPos.isSome

/-- The least record the statistics of a row group admit. -/
def DeleteRowGroup.position (group : DeleteRowGroup) : Position :=
  match group.filePathStatistics, group.posStatistics with
  | some (some (minPath, _)), some (some (minPos, _)) => PositionalDeleteStream.position minPath minPos
  | some (some (minPath, _)), some none => PositionalDeleteStream.position minPath ⊥
  | _, _ => PositionalDeleteStream.position ⊥ ⊥

/-- `ReaderHolder::GetPosition`. -/
def Reader.getPosition (r : Reader) : Position :=
  if r.isStarted then position r.currentFilePath r.currentPos else DeleteRowGroup.position r.currentRowGroup

structure Query where
  url : Bytes
  begin : Int
  finish : Int
deriving DecidableEq, Repr

/-- `RowGroupFilter::Result`. -/
inductive RowGroupState
  | less
  | inter
  | greater
deriving DecidableEq, Repr

/-- `RowGroupFilter::State`. -/
def rowGroupState (group : DeleteRowGroup) (query : Query) : RowGroupState :=
  match group.filePathStatistics, group.posStatistics with
  | some (some (minValue, maxValue)), some posMinMax =>
    if maxValue < query.url then .less
    else if query.url < minValue then .greater
    else if minValue ≠ maxValue then .inter
    else
      match posMinMax with
      | none => .inter
      | some (minPos, maxPos) =>
        if maxPos < query.begin then .less
        else if query.finish ≤ minPos then .greater
        else .inter
  | _, _ => .inter

end PositionalDeleteStream

open PositionalDeleteStream

/-- `PositionalDeleteStream`: the queue holds its readers in the order of the queue's own. -/
structure PositionalDeleteStream where
  queue : List Reader
  lastQuery : Option Query := none
deriving DecidableEq, Repr

namespace PositionalDeleteStream

variable (Q : MinQueue Reader.getPosition)

/-- `EnqueueIf`, after a step of the reader. -/
def enqueueIf (queue : List Reader) : Bool × Reader → List Reader
  | (true, r) => Q.push queue r
  | (false, _) => queue

/-- Opens one delete file for the stream. -/
def openFile (cb : Bytes → DeleteFile) (queue : List Reader) (file : Int × Bytes) : Except String (List Reader) := do
  let r ← Reader.make (cb file.2) file.1
  .ok (enqueueIf Q queue r.nextRowGroup)

/-- The delete files by layer, in the order in which the constructor opens them. -/
def filesOf (urls : OrdMap Int (List Bytes)) : List (Int × Bytes) :=
  urls.entries.flatMap (fun (layer, urlsForLayer) => urlsForLayer.map (fun url => (layer, url)))

/-- The constructor of `PositionalDeleteStream`. -/
def make (urls : OrdMap Int (List Bytes)) (cb : Bytes → DeleteFile) : Except String PositionalDeleteStream := do
  let queue ← (filesOf urls).foldlM (openFile Q cb) []
  .ok { queue }

/-- The state of the loop of `GetDeleted`. -/
abbrev LoopState := List Int × List Reader

/-- The reader steps to its next record and goes back to the queue. -/
def advance (rows : List Int) (queue : List Reader) (r : Reader) : Except String (LoopState ⊕ LoopState) := do
  let stepped ← r.next
  .ok (.inl (rows, enqueueIf Q queue stepped))

/-- One round of the loop of `GetDeleted`: the state for the next round, or the one the loop
ends with. -/
def getDeletedStep (query : Query) (dataLayer : Int) (s : LoopState) : Except String (LoopState ⊕ LoopState) :=
  match Q.pop s.2 with
  | none => .ok (.inr s)
  | some (r, queue) =>
    if r.isStarted = false then
      match rowGroupState r.currentRowGroup query with
      | .less => .ok (.inl (s.1, enqueueIf Q queue r.nextRowGroup))
      | .greater => .ok (.inr (s.1, Q.push queue r))
      | .inter => advance Q s.1 queue r
    else
      let path := r.currentFilePath.getD []
      let pos := r.currentPos.getD 0
      if query.url < path then .ok (.inr (s.1, Q.push queue r))
      else if query.url = path ∧ query.begin ≤ pos then
        if pos < query.finish then
          advance Q (if s.1.getLast? ≠ some pos ∧ dataLayer ≤ r.layer then s.1 ++ [pos] else s.1) queue r
        else .ok (.inr (s.1, Q.push queue r))
      else advance Q s.1 queue r

/-- The rounds a reader can still take part in. -/
def Reader.work (r : Reader) : Nat :=
  (r.columnReaders.getD r.currentRowGroup.rows).length + 1 + (r.rowGroups.map (fun group => group.rows.length + 1)).sum

def loopWork (s : LoopState) : Nat := (s.2.map Reader.work).sum

def orderingMessage : String := "Internal error: queries must be disjoint and in ascending order"

/-- The check that opens `GetDeleted`. -/
def inOrder (lastQuery : Option Query) (query : Query) : Bool :=
  match lastQuery with
  | none => true
  | some last => decide (last.url < query.url ∨ last.url = query.url ∧ last.finish ≤ query.begin)

/-- `GetDeleted`. -/
def getDeleted (stream : PositionalDeleteStream) (query : Query) (dataLayer : Int) :
    Except String (List Int × PositionalDeleteStream) := do
  ensure (inOrder stream.lastQuery query) orderingMessage
  let (rows, queue) ← boundedWhile (getDeletedStep Q query dataLayer) (loopWork ([], stream.queue) + 1)
    ([], stream.queue)
  .ok (rows, { queue, lastQuery := some query })

/-- Calls of `GetDeleted`, one after the other. -/
def getDeletedAll (stream : PositionalDeleteStream) :
    List (Query × Int) → Except String (List (List Int) × PositionalDeleteStream)
  | [] => .ok ([], stream)
  | (query, dataLayer) :: queries => do
    let (rows, stream) ← getDeleted Q stream query dataLayer
    let (answers, stream) ← getDeletedAll stream queries
    .ok (rows :: answers, stream)

end PositionalDeleteStream

end IcebergCxx

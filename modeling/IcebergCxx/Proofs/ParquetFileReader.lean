import IcebergCxx.ParquetFileReader
import IcebergCxx.Proofs.IcebergScan

/-!
# Absolute row positions

What a reader of some row groups emits are the rows of these groups with their positions in the file, however the
groups are split into batches.
-/

namespace IcebergCxx.Proofs

open Lib

variable {Row : Type} {inputFile : ParquetInput Row} {reader reader' : ParquetFileReader Row}
  {batches : List (PositionedBatch Row)} {rowGroups : List Nat}

/-- The calls of `ReadNext` until the first one that returns null emit these batches; all later ones return null. -/
inductive Drains (inputFile : ParquetInput Row) : ParquetFileReader Row → List (PositionedBatch Row) → Prop
  | ended (reader reader' : ParquetFileReader Row)
    (hend : ParquetFileReader.readNext inputFile reader = .ok (none, reader'))
    (hagain : ParquetFileReader.readNext inputFile reader' = .ok (none, reader')) : Drains inputFile reader []
  | batch (reader reader' : ParquetFileReader Row) (batch : PositionedBatch Row) (batches : List (PositionedBatch Row))
    (hnext : ParquetFileReader.readNext inputFile reader = .ok (some batch, reader'))
    (hrest : Drains inputFile reader' batches) : Drains inputFile reader (batch :: batches)

/-- The rows of the file with their positions. -/
def fileRows (inputFile : ParquetInput Row) : List (Row × Int) :=
  inputFile.rowGroups.flatten.zipIdx.map (fun p => (p.1, (p.2 : Int)))

/-- The number of rows before a row group. -/
def rowsBefore (inputFile : ParquetInput Row) (rowGroup : Nat) : Nat :=
  ((inputFile.rowGroups.take rowGroup).map List.length).sum

/-- The rows of a row group with their positions in the file. -/
def rowGroupRows (inputFile : ParquetInput Row) (rowGroup : Nat) : List (Row × Int) :=
  ((fileRows inputFile).drop (rowsBefore inputFile rowGroup)).take
    ((inputFile.rowGroups[rowGroup]?.map List.length).getD 0)

/-- Row `i` of a batch has the position `row_position + i`. -/
def batchRowPositions (batch : PositionedBatch Row) : List (Row × Int) :=
  batch.batch.zipIdx.map (fun p => (p.1, batch.rowPosition + p.2))

/-! ### Draining -/

/-- The batches of a row group, numbered from a position on. -/
def numberBatches : Int → List (List Row) → List (PositionedBatch Row)
  | _, [] => []
  | currentRow, batch :: rest => ⟨batch, currentRow⟩ :: numberBatches (wrapInt64 (currentRow + batch.length)) rest

lemma drains_congr (h : ParquetFileReader.readNext inputFile reader = ParquetFileReader.readNext inputFile reader')
    (hdrains : Drains inputFile reader' batches) : Drains inputFile reader batches := by
  cases hdrains with
  | ended _ reader'' hend hagain => exact .ended reader reader'' (h.trans hend) hagain
  | batch _ reader'' batch batches hnext hrest => exact .batch reader reader'' batch batches (h.trans hnext) hrest

/-- A stream is drained before the next row group is opened. -/
lemma drains_stream (batchesLeft : List (List Row)) (currentRow : Int)
    (h : Drains inputFile { rowGroups := rowGroups } batches) :
    Drains inputFile { rowGroups := rowGroups, currentStream := some ⟨batchesLeft, currentRow⟩ }
      (numberBatches currentRow batchesLeft ++ batches) := by
  induction batchesLeft generalizing currentRow with
  | nil =>
    refine drains_congr ?_ h
    rfl
  | cons batch rest ih => exact .batch _ _ _ _ rfl (ih _)

/-- `current_row_` of a new reader. -/
def startRow (inputFile : ParquetInput Row) (rowGroup : Nat) : Int :=
  (inputFile.rowGroups.take rowGroup).foldl (fun currentRow rows => wrapInt64 (currentRow + rows.length)) 0

lemma drains_rowGroups (hrange : ∀ i ∈ rowGroups, i < inputFile.rowGroups.length) :
    Drains inputFile { rowGroups := rowGroups }
      (rowGroups.flatMap (fun i => numberBatches (startRow inputFile i) (inputFile.recordBatches i))) := by
  induction rowGroups with
  | nil => exact .ended _ _ rfl rfl
  | cons i rowGroups ih =>
    have htail := ih (fun j hj => hrange j (List.mem_cons_of_mem _ hj))
    have hmake : RowGroupReaderWithRowNumber.make inputFile i =
        .ok ⟨inputFile.recordBatches i, startRow inputFile i⟩ := by
      rw [RowGroupReaderWithRowNumber.make, decide_eq_true (hrange i List.mem_cons_self)]
      rfl
    refine drains_congr ?_ (drains_stream (inputFile.recordBatches i) (startRow inputFile i) htail)
    change ParquetFileReader.openNext inputFile (i :: rowGroups) = _
    rw [ParquetFileReader.openNext, hmake, ok_bind, ParquetFileReader.readNext]
    simp only
    cases inputFile.recordBatches i <;> rfl

/-! ### Positions -/

lemma zipIdx_shift (l : List Row) (n : Nat) (start : Int) :
    (l.zipIdx n).map (fun p => (p.1, start + p.2)) = l.zipIdx.map (fun p => (p.1, start + n + p.2)) := by
  rw [List.zipIdx_eq_map_add, List.map_map]
  refine List.map_congr_left (fun p _ => ?_)
  simp only [Function.comp_apply, Nat.cast_add, add_assoc]

lemma numberBatches_rows (batchesLeft : List (List Row)) {currentRow : Int} (hstart : 0 ≤ currentRow)
    (hfit : currentRow + batchesLeft.flatten.length ≤ int64Max) :
    (numberBatches currentRow batchesLeft).flatMap batchRowPositions =
      batchesLeft.flatten.zipIdx.map (fun p => (p.1, currentRow + p.2)) := by
  induction batchesLeft generalizing currentRow with
  | nil => rfl
  | cons batch rest ih =>
    rw [List.flatten_cons, List.length_append, Nat.cast_add] at hfit
    have hwrap : wrapInt64 (currentRow + batch.length) = currentRow + batch.length := by
      refine wrapInt64_of_inInt64 ⟨?_, ?_⟩
      · simp only [int64Min]
        omega
      · omega
    rw [numberBatches, List.flatMap_cons, hwrap, ih (by omega) (by omega), List.flatten_cons, List.zipIdx_append,
      List.map_append, batchRowPositions]
    rw [Nat.zero_add, zipIdx_shift rest.flatten batch.length currentRow]

lemma foldl_rows (groups : List (List Row)) {start : Int} (hstart : 0 ≤ start)
    (hfit : start + ((groups.map List.length).sum : Nat) ≤ int64Max) :
    groups.foldl (fun currentRow rows => wrapInt64 (currentRow + rows.length)) start =
      start + ((groups.map List.length).sum : Nat) := by
  induction groups generalizing start with
  | nil => simp
  | cons rows groups ih =>
    rw [List.map_cons, List.sum_cons, Nat.cast_add] at hfit ⊢
    have hwrap : wrapInt64 (start + rows.length) = start + rows.length := by
      refine wrapInt64_of_inInt64 ⟨?_, ?_⟩
      · simp only [int64Min]
        omega
      · omega
    rw [List.foldl_cons, hwrap, ih (by omega) (by omega), add_assoc]

/-- A row group lies between the groups before it and those after it. -/
lemma rowsBefore_add_le {i j : Nat} (h : i < j) {rows : List Row} (hrows : inputFile.rowGroups[i]? = some rows) :
    rowsBefore inputFile i + rows.length ≤ rowsBefore inputFile j := by
  have htake : inputFile.rowGroups.take (i + 1) = inputFile.rowGroups.take i ++ [rows] := by
    rw [List.take_add_one, hrows]
    rfl
  have hsplit : (inputFile.rowGroups.take j).take (i + 1) = inputFile.rowGroups.take (i + 1) := by
    rw [List.take_take, Nat.min_eq_left h]
  have hle := (List.take_sublist (i + 1) (inputFile.rowGroups.take j)).map List.length
  have hsum := hle.sum_le_sum (fun _ _ => Nat.zero_le _)
  rw [hsplit, htake, List.map_append, List.sum_append] at hsum
  simpa [rowsBefore] using hsum

lemma rowsBefore_fit {i : Nat} {rows : List Row} (hrows : inputFile.rowGroups[i]? = some rows) :
    ((rowsBefore inputFile i + rows.length : Nat) : Int) ≤ int64Max := by
  have hlt := (List.getElem?_eq_some_iff.mp hrows).1
  have hle := rowsBefore_add_le hlt hrows
  have hall : rowsBefore inputFile inputFile.rowGroups.length = (inputFile.rowGroups.map List.length).sum := by
    rw [rowsBefore, List.take_length]
  have hfit := inputFile.numRows_fit
  omega

lemma startRow_eq {i : Nat} {rows : List Row} (hrows : inputFile.rowGroups[i]? = some rows) :
    startRow inputFile i = rowsBefore inputFile i := by
  have hfit := rowsBefore_fit hrows
  have hfold := foldl_rows (inputFile.rowGroups.take i) le_rfl (by rw [← rowsBefore]; omega)
  rw [startRow, hfold, ← rowsBefore, zero_add]

lemma rowGroupRows_eq {i : Nat} {rows : List Row} (hrows : inputFile.rowGroups[i]? = some rows) :
    rowGroupRows inputFile i = rows.zipIdx.map (fun p => (p.1, (rowsBefore inputFile i : Int) + p.2)) := by
  obtain ⟨hi, hget⟩ := List.getElem?_eq_some_iff.mp hrows
  have hsplit : inputFile.rowGroups.flatten =
      (inputFile.rowGroups.take i).flatten ++ (rows ++ (inputFile.rowGroups.drop (i + 1)).flatten) := by
    rw [← List.flatten_cons, ← hget, ← List.drop_eq_getElem_cons hi, ← List.flatten_append, List.take_append_drop]
  have hbefore : (inputFile.rowGroups.take i).flatten.length = rowsBefore inputFile i := List.length_flatten
  rw [rowGroupRows, hrows, Option.map_some, Option.getD_some, fileRows, hsplit, List.zipIdx_append, List.zipIdx_append,
    hbefore, List.map_append, List.map_append, List.drop_left' (by simp [hbefore]), List.take_left' (by simp)]
  have hshift := zipIdx_shift rows (0 + rowsBefore inputFile i) 0
  simpa using hshift

/-- What is emitted for a row group are its rows with their positions. -/
lemma rowGroup_emitted {i : Nat} (hi : i < inputFile.rowGroups.length) :
    (numberBatches (startRow inputFile i) (inputFile.recordBatches i)).flatMap batchRowPositions =
      rowGroupRows inputFile i := by
  have hrows := List.getElem?_eq_getElem hi
  have hfit := rowsBefore_fit hrows
  have hbatches := inputFile.recordBatches_rows i _ hrows
  rw [startRow_eq hrows, numberBatches_rows _ (Int.natCast_nonneg _) (by rw [hbatches]; exact_mod_cast hfit), hbatches,
    rowGroupRows_eq hrows]

lemma mem_rowGroupRows_position {i : Nat} {p : Row × Int} (hp : p ∈ rowGroupRows inputFile i)
    {rows : List Row} (hrows : inputFile.rowGroups[i]? = some rows) :
    (rowsBefore inputFile i : Int) ≤ p.2 ∧ p.2 < rowsBefore inputFile i + rows.length := by
  rw [rowGroupRows_eq hrows] at hp
  obtain ⟨⟨row, n⟩, hmem, rfl⟩ := List.mem_map.mp hp
  have hn := (List.mem_zipIdx hmem).2.1
  simp only
  omega

lemma zipIdx_increasing (rows : List Row) : rows.zipIdx.Pairwise (fun p q => p.2 < q.2) := by
  rw [← List.pairwise_map (f := Prod.snd) (R := (· < ·)), List.zipIdx_map_snd]
  exact List.pairwise_lt_range'

/-- Every row of the given row groups is emitted once, in the order of the file and at its position. -/
theorem parquetFileReader_absolute (inputFile : ParquetInput Row) {rowGroups : List Nat}
    (hincreasing : rowGroups.Pairwise (· < ·)) (hrange : ∀ i ∈ rowGroups, i < inputFile.rowGroups.length) :
    ∃ batches, Drains inputFile { rowGroups := rowGroups } batches ∧
      batches.flatMap batchRowPositions = rowGroups.flatMap (rowGroupRows inputFile) ∧
      ((batches.flatMap batchRowPositions).map Prod.snd).Pairwise (· < ·) := by
  refine ⟨_, drains_rowGroups hrange, ?_⟩
  have hemitted : (rowGroups.flatMap (fun i => numberBatches (startRow inputFile i) (inputFile.recordBatches i))).flatMap
      batchRowPositions = rowGroups.flatMap (rowGroupRows inputFile) := by
    rw [List.flatMap_assoc]
    exact List.flatMap_congr (fun i hi => rowGroup_emitted (hrange i hi))
  refine ⟨hemitted, ?_⟩
  rw [hemitted, List.pairwise_map, List.pairwise_flatMap]
  constructor
  · intro i hi
    rw [rowGroupRows_eq (List.getElem?_eq_getElem (hrange i hi)), List.pairwise_map]
    refine (zipIdx_increasing _).imp (fun {p q} hpq => ?_)
    simp only
    omega
  · refine hincreasing.imp_of_mem (fun {i j} hi hj hij p hp q hq => ?_)
    have hrows := List.getElem?_eq_getElem (hrange i hi)
    have hp := mem_rowGroupRows_position hp hrows
    have hq := mem_rowGroupRows_position hq (List.getElem?_eq_getElem (hrange j hj))
    have hle := rowsBefore_add_le hij hrows
    omega

/-- Three row groups, the second one without rows; the third one is split into two batches after an empty one. -/
def splitInput : ParquetInput Nat where
  rowGroups := [[10, 11], [], [12, 13, 14]]
  recordBatches i := if i = 0 then [[10, 11]] else if i = 2 then [[], [12], [13, 14]] else []
  numRows_fit := by decide
  recordBatches_rows i rows h := by
    match i with
    | 0 => cases h; rfl
    | 1 => cases h; rfl
    | 2 => cases h; rfl
    | _ + 3 => cases h

theorem splitInput_absolute :
    ∃ batches, Drains splitInput { rowGroups := [0, 2] } batches ∧
      batches.flatMap batchRowPositions = [0, 2].flatMap (rowGroupRows splitInput) ∧
      ((batches.flatMap batchRowPositions).map Prod.snd).Pairwise (· < ·) :=
  parquetFileReader_absolute splitInput (by decide) (by decide)

example : [0, 2].flatMap (rowGroupRows splitInput) = [(10, 0), (11, 1), (12, 2), (13, 3), (14, 4)] := by decide

/-! ### The reader of a scan -/

/-- A file of a scan, whose row groups are split into batches of one size. -/
def scanInput (batchSize : Nat) (file : ParquetFile)
    (hfit : ((file.rowGroups.map ParquetRowGroup.numRows).sum : Int) ≤ int64Max) : ParquetInput Unit where
  rowGroups := file.rowGroups.map (fun rowGroup => List.replicate rowGroup.numRows ())
  recordBatches i := (file.rowGroups[i]?).elim [] (fun rowGroup =>
    (batchRows batchSize rowGroup.numRows).map (fun rows => List.replicate rows ()))
  numRows_fit := by simpa [List.map_map, Function.comp_def] using hfit
  recordBatches_rows i rows h := by
    rw [List.getElem?_map] at h
    obtain ⟨rowGroup, hrowGroup, rfl⟩ := Option.map_eq_some_iff.mp h
    rw [hrowGroup, Option.elim_some, List.eq_replicate_iff]
    refine ⟨?_, fun _ _ => rfl⟩
    simp [List.length_flatten, List.map_map, Function.comp_def, batchRows_sum]

def positionedShape {Row : Type} (batch : PositionedBatch Row) : Int × Nat := (batch.rowPosition, batch.batch.length)

lemma numberBatches_shapes (sizes : List Nat) (firstRow start : Nat)
    (hfit : ((firstRow + start + sizes.sum : Nat) : Int) ≤ int64Max) :
    (numberBatches ((firstRow + start : Nat) : Int) (sizes.map (fun rows => List.replicate rows ()))).map
      positionedShape = batchShapes firstRow start sizes := by
  induction sizes generalizing start with
  | nil => rfl
  | cons rows sizes ih =>
    rw [List.sum_cons] at hfit
    have hwrap : wrapInt64 (((firstRow + start : Nat) : Int) + (List.replicate rows ()).length) =
        ((firstRow + (start + rows) : Nat) : Int) := by
      rw [List.length_replicate, wrapInt64_of_inInt64 ⟨by simp only [int64Min]; omega, by omega⟩]
      omega
    rw [List.map_cons, numberBatches, hwrap, List.map_cons, ih _ (by omega), batchShapes, positionedShape,
      List.length_replicate]

/-- The batches that a scan reads have the positions and lengths of those that the reader emits. -/
lemma scan_drains (batchSize : Nat) (file : ParquetFile) {columns : List Nat}
    (hfit : ((file.rowGroups.map ParquetRowGroup.numRows).sum : Int) ≤ int64Max)
    (hrange : ∀ i ∈ rowGroups, i < file.rowGroups.length) :
    ∃ batches, Drains (scanInput batchSize file hfit) { rowGroups := rowGroups } batches ∧
      batches.map positionedShape = (parquetFileReader batchSize file rowGroups columns).map shapeOf := by
  have hlength : (scanInput batchSize file hfit).rowGroups.length = file.rowGroups.length := List.length_map _
  refine ⟨_, drains_rowGroups (fun i hi => by rw [hlength]; exact hrange i hi), ?_⟩
  rw [parquetFileReader_shapes, fileShapes, List.map_flatMap]
  refine List.flatMap_congr (fun i hi => ?_)
  obtain ⟨rowGroup, hrowGroup⟩ : ∃ rowGroup, file.rowGroups[i]? = some rowGroup :=
    ⟨_, List.getElem?_eq_getElem (hrange i hi)⟩
  have hrows : (scanInput batchSize file hfit).rowGroups[i]? = some (List.replicate rowGroup.numRows ()) := by
    simp [scanInput, hrowGroup]
  have hbefore : rowsBefore (scanInput batchSize file hfit) i = file.currentRow i := by
    simp [rowsBefore, scanInput, ParquetFile.currentRow, ← List.map_take, List.map_map, Function.comp_def]
  have hend := rowsBefore_fit hrows
  rw [startRow_eq hrows, hbefore]
  rw [hbefore, List.length_replicate] at hend
  simp only [scanInput, hrowGroup, Option.elim_some]
  exact numberBatches_shapes _ (file.currentRow i) 0 (by rw [batchRows_sum, Nat.add_zero]; exact hend)

end IcebergCxx.Proofs

import IcebergCxx.IcebergScan
import IcebergCxx.Lib.Rearrange
import IcebergCxx.Proofs.DeletionVectorApplier
import IcebergCxx.Proofs.PositionalDeleteApplier
import IcebergCxx.Proofs.RowGroups

/-!
# Rows of a plan

Every layer of the stream hands on the batches of the layer below: the readers of the row groups, the pairs of
the filtering stream, the deletion vector of the file and the positional deletes of the partition. Together they
give every row of the plan once, and select those that are not deleted.
-/

namespace IcebergCxx.Proofs

open Lib

/-- Calls of `ReadNext` return these, and then null. -/
def Emits {S α : Type} (readNext : S → ReadResult α × S) : S → List α → Prop
  | s, [] => (readNext s).1 = .ended
  | s, a :: l => (readNext s).1 = .batch a ∧ Emits readNext (readNext s).2 l

lemma emits_congr {S α : Type} {readNext : S → ReadResult α × S} {s s' : S} {l : List α}
    (hsame : readNext s = readNext s') (h : Emits readNext s' l) : Emits readNext s l := by
  cases l with
  | nil => exact (congrArg Prod.fst hsame).trans h
  | cons a l =>
    rw [Emits, hsame]
    exact h

lemma emits_unique {S α : Type} {readNext : S → ReadResult α × S} {s : S} {l l' : List α} (h : Emits readNext s l)
    (h' : Emits readNext s l') : l = l' := by
  induction l generalizing s l' with
  | nil =>
    cases l' with
    | nil => rfl
    | cons a l' => cases (Eq.symm h).trans h'.1
  | cons a l ih =>
    cases l' with
    | nil => cases h.1.symm.trans h'
    | cons b l' =>
      have hhead : ReadResult.batch a = .batch b := h.1.symm.trans h'.1
      rw [ReadResult.batch.inj hhead, ih h.2 h'.2]

/-! ### Readers of row groups -/

lemma batchRows_sum {batchSize : Nat} (numRows : Nat) : (batchRows batchSize numRows).sum = numRows := by
  have hdiv := Nat.div_add_mod numRows batchSize
  unfold batchRows
  rw [List.sum_append, List.sum_replicate, smul_eq_mul, Nat.mul_comm]
  split_ifs with hmod
  · simp only [List.sum_nil]
    omega
  · simp only [List.sum_singleton]
    exact hdiv

lemma batchRows_mem {batchSize numRows rows : Nat} (hsize : 0 < batchSize) (h : rows ∈ batchRows batchSize numRows) :
    0 < rows ∧ rows ≤ batchSize := by
  unfold batchRows at h
  rcases List.mem_append.mp h with h | h
  · rw [List.eq_of_mem_replicate h]
    exact ⟨hsize, le_rfl⟩
  · split_ifs at h with hmod
    · cases h
    · rw [List.mem_singleton.mp h]
      exact ⟨Nat.pos_of_ne_zero hmod, (Nat.mod_lt _ hsize).le⟩

/-- Where the batches of some sizes start, and their sizes. -/
def batchShapes (firstRow : Nat) : Nat → List Nat → List (Int × Nat)
  | _, [] => []
  | start, rows :: rest => (((firstRow + start : Nat) : Int), rows) :: batchShapes firstRow (start + rows) rest

def shapeOf (batch : ArrowBatchWithRowPosition) : Int × Nat := (batch.rowPosition, batch.numRows)

lemma readBatches_shapes (rowGroup : ParquetRowGroup) (columns : List Nat) (firstRow start : Nat) (sizes : List Nat) :
    (readBatches rowGroup columns firstRow start sizes).map shapeOf = batchShapes firstRow start sizes := by
  induction sizes generalizing start with
  | nil => rfl
  | cons rows sizes ih =>
    rw [readBatches, batchShapes, List.map_cons, ih]
    rfl

/-- The batches of some row groups of a file. -/
def fileShapes (batchSize : Nat) (file : ParquetFile) (rowGroups : List Nat) : List (Int × Nat) :=
  rowGroups.flatMap (fun i => (file.rowGroups[i]?).elim [] (fun rowGroup =>
    batchShapes (file.currentRow i) 0 (batchRows batchSize rowGroup.numRows)))

lemma parquetFileReader_shapes (batchSize : Nat) (file : ParquetFile) (rowGroups columns : List Nat) :
    (parquetFileReader batchSize file rowGroups columns).map shapeOf = fileShapes batchSize file rowGroups := by
  unfold parquetFileReader fileShapes
  rw [List.map_flatMap]
  congr 1
  funext i
  cases file.rowGroups[i]? with
  | none => rfl
  | some rowGroup => exact readBatches_shapes _ _ _ _ _

/-- The positions of a batch. -/
def shapePositions (shape : Int × Nat) : List Int := (List.range shape.2).map (fun row : Nat => shape.1 + row)

lemma mem_shapePositions {shape : Int × Nat} {pos : Int} :
    pos ∈ shapePositions shape ↔ shape.1 ≤ pos ∧ pos < shape.1 + shape.2 := by
  unfold shapePositions
  rw [List.mem_map]
  constructor
  · rintro ⟨row, hrow, rfl⟩
    rw [List.mem_range] at hrow
    omega
  · rintro ⟨hle, hlt⟩
    refine ⟨(pos - shape.1).toNat, ?_, ?_⟩
    · rw [List.mem_range]
      omega
    · omega

lemma shapePositions_pairwise (shape : Int × Nat) : (shapePositions shape).Pairwise (· < ·) := by
  unfold shapePositions
  rw [List.pairwise_map]
  apply List.pairwise_lt_range.imp
  intro a b hab
  omega

lemma batchShapes_positions (firstRow start : Nat) (sizes : List Nat) :
    ((batchShapes firstRow start sizes).flatMap shapePositions).Pairwise (· < ·) ∧
      ∀ pos : Int, pos ∈ (batchShapes firstRow start sizes).flatMap shapePositions ↔
        (firstRow + start : Nat) ≤ pos ∧ pos < (firstRow + start + sizes.sum : Nat) := by
  induction sizes generalizing start with
  | nil =>
    refine ⟨.nil, ?_⟩
    intro pos
    simp only [batchShapes, List.flatMap_nil, List.not_mem_nil, List.sum_nil, false_iff]
    omega
  | cons rows sizes ih =>
    obtain ⟨hincreasing, hmem⟩ := ih (start + rows)
    rw [batchShapes, List.flatMap_cons, List.sum_cons]
    generalize sizes.sum = total at hmem
    constructor
    · apply List.pairwise_append.mpr
      refine ⟨shapePositions_pairwise _, hincreasing, ?_⟩
      intro a ha b hb
      rw [mem_shapePositions] at ha
      rw [hmem] at hb
      push_cast at ha hb
      omega
    · intro pos
      rw [List.mem_append, mem_shapePositions, hmem]
      push_cast
      omega

section
variable {file : ParquetFile}

lemma currentRow_succ {i : Nat} {rowGroup : ParquetRowGroup} (h : file.rowGroups[i]? = some rowGroup) :
    file.currentRow (i + 1) = file.currentRow i + rowGroup.numRows := by
  unfold ParquetFile.currentRow
  rw [List.take_add_one, h, List.map_append, List.sum_append]
  simp

lemma currentRow_mono (file : ParquetFile) : Monotone file.currentRow := by
  apply monotone_nat_of_le_succ
  intro i
  cases h : file.rowGroups[i]? with
  | none =>
    unfold ParquetFile.currentRow
    rw [List.take_add_one, h]
    simp
  | some rowGroup =>
    rw [currentRow_succ h]
    omega

/-- The row is one of a row group. -/
def RowGroupHolds (file : ParquetFile) (i : Nat) (pos : Int) : Prop :=
  ∃ rowGroup, file.rowGroups[i]? = some rowGroup ∧
    (file.currentRow i : Int) ≤ pos ∧ pos < (file.currentRow i + rowGroup.numRows : Nat)

lemma RowGroupHolds.lt_of_lt {i j : Nat} {a b : Int} (hij : i < j) (ha : RowGroupHolds file i a)
    (hb : RowGroupHolds file j b) : a < b := by
  obtain ⟨rowGroup, hget, -, hlt⟩ := ha
  obtain ⟨-, -, hle, -⟩ := hb
  have hmono := currentRow_mono file (Nat.succ_le_of_lt hij)
  rw [Nat.succ_eq_add_one, currentRow_succ hget] at hmono
  omega

lemma rowGroupShapes_positions (file : ParquetFile) (batchSize i : Nat) :
    (((file.rowGroups[i]?).elim [] (fun rowGroup =>
        batchShapes (file.currentRow i) 0 (batchRows batchSize rowGroup.numRows))).flatMap
          shapePositions).Pairwise (· < ·) ∧
      ∀ pos, pos ∈ ((file.rowGroups[i]?).elim [] (fun rowGroup =>
        batchShapes (file.currentRow i) 0 (batchRows batchSize rowGroup.numRows))).flatMap shapePositions ↔
          RowGroupHolds file i pos := by
  unfold RowGroupHolds
  cases file.rowGroups[i]? with
  | none => simp
  | some rowGroup =>
    obtain ⟨hincreasing, hmem⟩ := batchShapes_positions (file.currentRow i) 0 (batchRows batchSize rowGroup.numRows)
    rw [batchRows_sum] at hmem
    refine ⟨hincreasing, ?_⟩
    intro pos
    rw [Option.elim_some, hmem]
    simp

/-- The readers of ascending row groups give every row of them once, in order. -/
lemma fileShapes_positions (file : ParquetFile) (batchSize : Nat) {rowGroups : List Nat}
    (h : rowGroups.Pairwise (· < ·)) :
    ((fileShapes batchSize file rowGroups).flatMap shapePositions).Pairwise (· < ·) ∧
      ∀ pos, pos ∈ (fileShapes batchSize file rowGroups).flatMap shapePositions ↔
        ∃ i ∈ rowGroups, RowGroupHolds file i pos := by
  induction rowGroups with
  | nil => simp [fileShapes]
  | cons i rowGroups ih =>
    obtain ⟨hfirst, hrest⟩ := List.pairwise_cons.mp h
    obtain ⟨hincreasing, hmem⟩ := ih hrest
    obtain ⟨hgroup, hgroupMem⟩ := rowGroupShapes_positions file batchSize i
    have hcons : fileShapes batchSize file (i :: rowGroups) =
        ((file.rowGroups[i]?).elim [] (fun rowGroup =>
          batchShapes (file.currentRow i) 0 (batchRows batchSize rowGroup.numRows))) ++
          fileShapes batchSize file rowGroups := List.flatMap_cons
    rw [hcons, List.flatMap_append]
    constructor
    · apply List.pairwise_append.mpr
      refine ⟨hgroup, hincreasing, ?_⟩
      intro a ha b hb
      obtain ⟨j, hj, hholds⟩ := (hmem b).mp hb
      exact ((hgroupMem a).mp ha).lt_of_lt (hfirst j hj) hholds
    · intro pos
      rw [List.mem_append, hgroupMem, hmem]
      simp

end

/-! ### The stream of a file -/

/-- The batch that a filter batch and a data batch make when every row is selected. -/
def pairedBatch (file : PartitionLayerFile) (batchFilter batchData : ArrowBatchWithRowPosition) : FilteredBatch where
  toPartitionLayerFile := file
  rowPosition := batchData.rowPosition
  columns := batchData.columns ++ batchFilter.columns
  selectionVector := List.range batchFilter.numRows
  numRows := batchData.numRows

/-- The two batches cover the same rows, and there are some. -/
def Aligned (batchFilter batchData : ArrowBatchWithRowPosition) : Prop :=
  shapeOf batchFilter = shapeOf batchData ∧ 0 < batchFilter.numRows

/-- The filter selects every row. -/
def SelectsAll (rowFilter : ApplyRowFilter) : Prop := ∀ batch, rowFilter batch = .ok (List.range batch.numRows)

lemma filteringStream_readNext (stream : FilteringStream) (hfilter : SelectsAll stream.rowFilter)
    (hskipped : stream.rowsSkipped = 0) {batchFilter batchData : ArrowBatchWithRowPosition}
    {filterRest dataRest : List ArrowBatchWithRowPosition} (haligned : Aligned batchFilter batchData)
    (hfilterStream : stream.filterStream = batchFilter :: filterRest)
    (hdataStream : stream.dataStream = batchData :: dataRest) :
    stream.readNext = (.batch (pairedBatch stream.partitionLayerFile batchFilter batchData),
      { stream with
        filterStream := filterRest
        dataStream := dataRest }) := by
  obtain ⟨hshape, hpos⟩ := haligned
  obtain ⟨hposition, hrows⟩ := Prod.mk.inj hshape
  obtain ⟨row, rows, hselected⟩ : ∃ row rows, List.range batchFilter.numRows = row :: rows :=
    List.exists_cons_of_ne_nil (by simpa using hpos.ne')
  have hconcatenate : concatenate batchData batchFilter = .ok {
      columns := batchData.columns ++ batchFilter.columns
      numRows := batchData.numRows
      rowPosition := batchData.rowPosition } := by
    unfold concatenate
    rw [decide_eq_true hposition.symm, decide_eq_true hrows.symm]
    rfl
  unfold FilteringStream.readNext
  rw [hfilterStream, FilteringStream.readFrom, hfilter batchFilter, hselected]
  simp only [FilteringStream.pairWith, FilteringStream.skipped, hskipped, hdataStream, FilteringStream.skipRows,
    gt_iff_lt, lt_irrefl, if_false, ne_eq, not_true_eq_false, hconcatenate, pairedBatch, hselected]

lemma filteringStream_ended {stream : FilteringStream} (h : stream.filterStream = []) :
    stream.readNext.1 = .ended := by
  unfold FilteringStream.readNext
  rw [h]
  rfl

section
variable {roaring : RoaringLibrary}

/-- The rows that the vector of the file leaves selected. -/
def withoutVector (dv : Option (DeletionVector roaring)) (batch : FilteredBatch) : FilteredBatch :=
  dv.elim batch (fun dv => withoutPositions dv batch)

lemma pairedBatch_selects {file : PartitionLayerFile} {batchFilter batchData : ArrowBatchWithRowPosition}
    (h : Aligned batchFilter batchData) : SelectsRows (pairedBatch file batchFilter batchData) where
  increasing := List.pairwise_lt_range
  nonempty := by simpa [pairedBatch] using h.2.ne'
  inRange := by
    intro row hrow
    have hrows : batchFilter.numRows = batchData.numRows := congrArg Prod.snd h.1
    have hlt := List.mem_range.mp hrow
    change row < batchData.numRows
    omega

/-- The stream of a file gives the pairs of its batches without the rows of the vector. -/
lemma dataFileStream_emits {stream : DataFileStream roaring} (hfilter : SelectsAll stream.input.rowFilter)
    (hskipped : stream.input.rowsSkipped = 0)
    (haligned : List.Forall₂ Aligned stream.input.filterStream stream.input.dataStream)
    (hfits : ∀ batch ∈ List.zipWith (pairedBatch stream.input.partitionLayerFile) stream.input.filterStream
      stream.input.dataStream, BatchFits batch) :
    Emits DataFileStream.readNext stream
      ((List.zipWith (pairedBatch stream.input.partitionLayerFile) stream.input.filterStream
        stream.input.dataStream).map (withoutVector stream.dv)) := by
  obtain ⟨⟨filterStream, dataStream, rowFilter, file, rowsSkipped⟩, dv⟩ := stream
  dsimp only at hfilter hskipped haligned hfits ⊢
  subst hskipped
  induction haligned with
  | nil =>
    have hended : (FilteringStream.mk [] [] rowFilter file 0).readNext.1 = .ended := filteringStream_ended rfl
    cases dv with
    | none => exact hended
    | some dv =>
      simp only [List.zipWith_nil_left, List.map_nil, Emits, DataFileStream.readNext, DeletionVectorApplier.readNext]
      rfl
  | @cons batchFilter batchData filterRest dataRest hfirst _ ih =>
    have hread := filteringStream_readNext ⟨batchFilter :: filterRest, batchData :: dataRest, rowFilter, file, 0⟩
      hfilter rfl hfirst rfl rfl
    have hrest := ih (fun batch hbatch => hfits batch (List.mem_cons_of_mem _ hbatch))
    have hbatch := hfits _ List.mem_cons_self
    cases dv with
    | none =>
      simp only [List.zipWith_cons_cons, List.map_cons, Emits, DataFileStream.readNext, hread]
      exact ⟨rfl, hrest⟩
    | some dv =>
      have happlied : DeletionVectorApplier.applyDeletionVector (pairedBatch file batchFilter batchData) dv =
          .ok (withoutPositions dv (pairedBatch file batchFilter batchData)) :=
        applyDeletionVector_eq hbatch (pairedBatch_selects hfirst)
      simp only [List.zipWith_cons_cons, List.map_cons, Emits, DataFileStream.readNext,
        DeletionVectorApplier.readNext, hread, happlied]
      exact ⟨rfl, hrest⟩

variable (builder : ScanFileReaderBuilder roaring)

lemma makeFinalStream_ok {file : ParquetFile} {fieldIdToIndex : OrdMap Int Nat}
    (h : makeFieldIdToIndexMap builder.schemaNameMapper file.fields = .ok fieldIdToIndex) (rowGroups : List Nat)
    (fieldIds : List Int) : ∃ batches, builder.makeFinalStream file rowGroups fieldIds = .ok batches ∧
      batches.map shapeOf = fileShapes builder.batchSize file rowGroups := by
  unfold ScanFileReaderBuilder.makeFinalStream ScanFileReaderBuilder.getParquetColumnInfos
  rw [h]
  simp only [ok_bind, pure_bind]
  refine ⟨_, rfl, ?_⟩
  rw [List.map_map, ← parquetFileReader_shapes]
  rfl

/-- The rows that the plan asks for: those of the row groups that start in a segment. -/
def PlannedRow (file : ParquetFile) (segments : List Segment) (pos : Int) : Prop :=
  ∃ i rowGroup offset, file.rowGroups[i]? = some rowGroup ∧
    rowGroupMetaToFileOffset rowGroup.metadata = .ok offset ∧ offset ∈ cover segments ∧ RowGroupHolds file i pos

/-- What `Build` needs of a data file: it can be opened, the field ids of its root are unique, its row groups have
offsets and are in the order of them, the segments are sorted and apart, and rows are numbered by `int64_t`. -/
structure ReadableFile (path : AnnotatedDataPath) (file : ParquetFile) : Prop where
  opened : builder.openParquet path.path = .ok file
  fieldIds : ∃ fieldIdToIndex, makeFieldIdToIndexMap builder.schemaNameMapper file.fields = .ok fieldIdToIndex
  offsets : ∃ offsets : List Int, List.Forall₂ (fun rowGroup offset =>
    rowGroupMetaToFileOffset (ParquetRowGroup.metadata rowGroup) = .ok offset) file.rowGroups offsets ∧
      offsets.Pairwise (· ≤ ·)
  segments : Ranges path.segments
  rows : file.currentRow file.rowGroups.length ≤ 2 ^ 63

/-- The deletion vector of the file holds the row. -/
def VectorHolds (path : AnnotatedDataPath) (pos : Int) : Prop :=
  ∃ dvInfo ∈ path.dvInfo, ∃ x ∈ vectorPositions (builder.openDeletionVector dvInfo), pos = (x : Nat)

def batchPositions (batch : FilteredBatch) : List Int := shapePositions (batch.rowPosition, batch.numRows)

/-- The batches have every planned row of the file once, with its place and its position, and the rows that are not
deleted are selected. -/
structure EmitsRows (path : AnnotatedDataPath) (Deleted : Int → Prop) (batches : List FilteredBatch) : Prop where
  tagged : ∀ batch ∈ batches, batch.toPartitionLayerFile = path.toPartitionLayerFile
  once : (batches.flatMap batchPositions).Pairwise (· < ·)
  planned : ∃ file, builder.openParquet path.path = .ok file ∧
    ∀ pos, pos ∈ batches.flatMap batchPositions ↔ PlannedRow file path.segments pos
  increasing : ∀ batch ∈ batches, batch.selectionVector.Pairwise (· < ·)
  selected : ∀ batch ∈ batches, ∀ row : Nat,
    row ∈ batch.selectionVector ↔ row < batch.numRows ∧ ¬Deleted (batch.rowPosition + row)

variable {builder}

lemma ReadableFile.rowGroups {path : AnnotatedDataPath} {file : ParquetFile} (h : ReadableFile builder path file) :
    ∃ rowGroups, getRowGroupsToRetrieve (file.rowGroups.map ParquetRowGroup.metadata) path.segments = .ok rowGroups ∧
      rowGroups.Pairwise (· < ·) ∧
      ∀ pos, (∃ i ∈ rowGroups, RowGroupHolds file i pos) ↔ PlannedRow file path.segments pos := by
  obtain ⟨offsets, hoffsets, hsorted⟩ := h.offsets
  obtain ⟨rowGroups, hget, hincreasing, hmem⟩ :=
    rowGroupsFrom_spec (List.forall₂_map_left_iff.mpr hoffsets) hsorted h.segments 0
  refine ⟨rowGroups, hget, hincreasing, ?_⟩
  intro pos
  constructor
  · rintro ⟨i, hi, hholds⟩
    obtain ⟨k, offset, hk, hoffset, hcover⟩ := (hmem i).mp hi
    obtain ⟨rowGroup, hrowGroup, -⟩ := id hholds
    obtain rfl : i = k := by omega
    obtain ⟨offset', hoffset', hrowGroupOffset⟩ := forall₂_getElem? hoffsets hrowGroup
    obtain rfl : offset' = offset := Option.some.inj (hoffset'.symm.trans hoffset)
    exact ⟨i, rowGroup, offset', hrowGroup, hrowGroupOffset, hcover, hholds⟩
  · rintro ⟨i, rowGroup, offset, hrowGroup, hoffset, hcover, hholds⟩
    obtain ⟨offset', hoffset', hrowGroupOffset⟩ := forall₂_getElem? hoffsets hrowGroup
    obtain rfl : offset' = offset := Except.ok.inj (hrowGroupOffset.symm.trans hoffset)
    exact ⟨i, (hmem i).mpr ⟨i, offset', (Nat.zero_add i).symm, hoffset', hcover⟩, hholds⟩

lemma batchShapes_mem {firstRow start : Nat} {sizes : List Nat} {shape : Int × Nat}
    (h : shape ∈ batchShapes firstRow start sizes) : 0 ≤ shape.1 ∧ shape.2 ∈ sizes := by
  induction sizes generalizing start with
  | nil => cases h
  | cons rows sizes ih =>
    rcases List.mem_cons.mp h with rfl | h
    · exact ⟨Int.natCast_nonneg _, List.mem_cons_self⟩
    · exact ⟨(ih h).1, List.mem_cons_of_mem _ (ih h).2⟩

lemma fileShapes_mem {batchSize : Nat} (hsize : 0 < batchSize) {file : ParquetFile} {rowGroups : List Nat}
    {shape : Int × Nat} (h : shape ∈ fileShapes batchSize file rowGroups) :
    0 ≤ shape.1 ∧ 0 < shape.2 ∧ shape.2 ≤ batchSize := by
  obtain ⟨i, -, hshape⟩ := List.mem_flatMap.mp h
  cases hget : file.rowGroups[i]? with
  | none =>
    rw [hget] at hshape
    cases hshape
  | some rowGroup =>
    rw [hget] at hshape
    obtain ⟨hposition, hrows⟩ := batchShapes_mem hshape
    exact ⟨hposition, batchRows_mem hsize hrows⟩

/-- The last row of a batch is one of the file. -/
lemma fileShapes_end {batchSize : Nat} (hsize : 0 < batchSize) {file : ParquetFile} {rowGroups : List Nat}
    (hincreasing : rowGroups.Pairwise (· < ·)) {shape : Int × Nat} (h : shape ∈ fileShapes batchSize file rowGroups) :
    shape.1 + shape.2 ≤ (file.currentRow file.rowGroups.length : Nat) := by
  obtain ⟨-, hpos, -⟩ := fileShapes_mem hsize h
  have hlast : shape.1 + shape.2 - 1 ∈ (fileShapes batchSize file rowGroups).flatMap shapePositions := by
    apply List.mem_flatMap.mpr
    refine ⟨shape, h, mem_shapePositions.mpr ?_⟩
    omega
  obtain ⟨i, -, rowGroup, hrowGroup, -, hlt⟩ := ((fileShapes_positions file batchSize hincreasing).2 _).mp hlast
  have hmono := currentRow_mono file (Nat.succ_le_of_lt (List.getElem?_eq_some_iff.mp hrowGroup).1)
  rw [Nat.succ_eq_add_one, currentRow_succ hrowGroup] at hmono
  omega

lemma aligned_of_shapes {filterStream dataStream : List ArrowBatchWithRowPosition} {shapes : List (Int × Nat)}
    (hfilter : filterStream.map shapeOf = shapes) (hdata : dataStream.map shapeOf = shapes)
    (hpos : ∀ shape ∈ shapes, 0 < shape.2) : List.Forall₂ Aligned filterStream dataStream := by
  induction shapes generalizing filterStream dataStream with
  | nil =>
    rw [List.map_eq_nil_iff.mp hfilter, List.map_eq_nil_iff.mp hdata]
    exact .nil
  | cons shape shapes ih =>
    obtain ⟨batchFilter, filterRest, rfl, hshape, hfilterRest⟩ := List.map_eq_cons_iff.mp hfilter
    obtain ⟨batchData, dataRest, rfl, hshape', hdataRest⟩ := List.map_eq_cons_iff.mp hdata
    have hrows : batchFilter.numRows = shape.2 := congrArg Prod.snd hshape
    refine .cons ⟨hshape.trans hshape'.symm, ?_⟩ (ih hfilterRest hdataRest ?_)
    · rw [hrows]
      exact hpos shape List.mem_cons_self
    · intro shape' hshape''
      exact hpos shape' (List.mem_cons_of_mem _ hshape'')

/-- What the pairs of aligned batches are. -/
structure AlignedBatch (file : PartitionLayerFile) (shapes : List (Int × Nat)) (batch : FilteredBatch) : Prop where
  tagged : batch.toPartitionLayerFile = file
  shape : (batch.rowPosition, batch.numRows) ∈ shapes
  selected : batch.selectionVector = List.range batch.numRows

lemma pairedBatches_spec (file : PartitionLayerFile) {filterStream dataStream : List ArrowBatchWithRowPosition}
    (h : List.Forall₂ Aligned filterStream dataStream) :
    (List.zipWith (pairedBatch file) filterStream dataStream).map (fun batch => (batch.rowPosition, batch.numRows)) =
        dataStream.map shapeOf ∧
      ∀ batch ∈ List.zipWith (pairedBatch file) filterStream dataStream,
        AlignedBatch file (dataStream.map shapeOf) batch := by
  induction h with
  | nil => exact ⟨rfl, fun _ hbatch => absurd hbatch List.not_mem_nil⟩
  | @cons batchFilter batchData _ _ haligned _ ih =>
    obtain ⟨hshapes, hbatches⟩ := ih
    constructor
    · rw [List.zipWith_cons_cons, List.map_cons, List.map_cons, hshapes]
      rfl
    · intro batch hbatch
      rw [List.map_cons]
      rcases List.mem_cons.mp hbatch with rfl | hbatch
      · have hrows : batchFilter.numRows = batchData.numRows := congrArg Prod.snd haligned.1
        exact ⟨rfl, List.mem_cons_self, congrArg List.range hrows⟩
      · obtain ⟨htagged, hshape, hselected⟩ := hbatches batch hbatch
        exact ⟨htagged, List.mem_cons_of_mem _ hshape, hselected⟩

lemma buildDv_own {V : Type} {content : DeletionVectorInfo → V} {path : Bytes} {dvInfo : Option DeletionVectorInfo}
    {cache : DvCache V} (h : path = cache.lastDataFilePath → cache.lastDv = dvInfo.map content) :
    buildDv content { path := path, deletionVector := dvInfo } cache =
      (.ok (dvInfo.map content), { lastDataFilePath := path, lastDv := dvInfo.map content }) := by
  obtain ⟨lastPath, lastDv⟩ := cache
  unfold buildDv
  by_cases hpath : path = lastPath
  · have hlast : lastDv = dvInfo.map content := h hpath
    subst hpath hlast
    simp
  · simp only [Bool.not_true, Bool.false_eq_true, if_false, ne_eq, hpath, not_false_eq_true, if_true]
    cases dvInfo <;> rfl

lemma withoutVector_selected {path : AnnotatedDataPath} {batch : FilteredBatch}
    (hselected : batch.selectionVector = List.range batch.numRows) (hposition : 0 ≤ batch.rowPosition) (row : Nat) :
    row ∈ (withoutVector (path.dvInfo.map builder.openDeletionVector) batch).selectionVector ↔
      row < batch.numRows ∧ ¬VectorHolds builder path (batch.rowPosition + row) := by
  unfold VectorHolds withoutVector
  cases path.dvInfo with
  | none => simp [hselected]
  | some dvInfo =>
    have hpos : ∀ x : Nat, batch.rowPosition + row = x ↔ batch.rowPosition.toNat + row = x := by
      intro x
      omega
    simp [withoutPositions, hselected, hpos]

/-- The deletion vector changes only the selection. -/
lemma withoutVector_same (dv : Option (DeletionVector roaring)) (batch : FilteredBatch) :
    (withoutVector dv batch).toPartitionLayerFile = batch.toPartitionLayerFile ∧
      (withoutVector dv batch).rowPosition = batch.rowPosition ∧ (withoutVector dv batch).numRows = batch.numRows ∧
      (withoutVector dv batch).selectionVector.Sublist batch.selectionVector := by
  cases dv with
  | none => exact ⟨rfl, rfl, rfl, .refl _⟩
  | some dv => exact ⟨rfl, rfl, rfl, List.filter_sublist⟩

/-- Paired batches without the rows of the vector are the planned rows of the file. -/
lemma emitsRows_of_shapes {path : AnnotatedDataPath} {file : ParquetFile} (h : ReadableFile builder path file)
    (hsize : 0 < builder.batchSize) {rowGroups : List Nat} (hincreasing : rowGroups.Pairwise (· < ·))
    (hplanned : ∀ pos, (∃ i ∈ rowGroups, RowGroupHolds file i pos) ↔ PlannedRow file path.segments pos)
    {filterStream dataStream : List ArrowBatchWithRowPosition} (haligned : List.Forall₂ Aligned filterStream dataStream)
    (hdata : dataStream.map shapeOf = fileShapes builder.batchSize file rowGroups) :
    EmitsRows builder path (VectorHolds builder path)
      ((List.zipWith (pairedBatch path.toPartitionLayerFile) filterStream dataStream).map
        (withoutVector (path.dvInfo.map builder.openDeletionVector))) := by
  obtain ⟨hshapes, hbatches⟩ := pairedBatches_spec path.toPartitionLayerFile haligned
  rw [hdata] at hshapes hbatches
  obtain ⟨hordered, hmem⟩ := fileShapes_positions file builder.batchSize hincreasing
  have hpositions : ((List.zipWith (pairedBatch path.toPartitionLayerFile) filterStream dataStream).map
      (withoutVector (path.dvInfo.map builder.openDeletionVector))).flatMap batchPositions =
        (fileShapes builder.batchSize file rowGroups).flatMap shapePositions := by
    rw [← hshapes, List.flatMap_map, List.flatMap_map]
    congr 1
    funext batch
    obtain ⟨-, hposition, hrows, -⟩ := withoutVector_same (path.dvInfo.map builder.openDeletionVector) batch
    rw [batchPositions, hposition, hrows]
  have hall : ∀ batch ∈ (List.zipWith (pairedBatch path.toPartitionLayerFile) filterStream dataStream).map
      (withoutVector (path.dvInfo.map builder.openDeletionVector)), ∃ paired,
        AlignedBatch path.toPartitionLayerFile (fileShapes builder.batchSize file rowGroups) paired ∧
          withoutVector (path.dvInfo.map builder.openDeletionVector) paired = batch := by
    intro batch hbatch
    obtain ⟨paired, hpaired, hwithout⟩ := List.mem_map.mp hbatch
    exact ⟨paired, hbatches paired hpaired, hwithout⟩
  refine ⟨?_, ?_, ⟨file, h.opened, ?_⟩, ?_, ?_⟩
  · intro batch hbatch
    obtain ⟨paired, hpaired, rfl⟩ := hall batch hbatch
    rw [(withoutVector_same _ paired).1, hpaired.tagged]
  · rw [hpositions]
    exact hordered
  · intro pos
    rw [hpositions, hmem, hplanned]
  · intro batch hbatch
    obtain ⟨paired, hpaired, rfl⟩ := hall batch hbatch
    apply List.Pairwise.sublist (withoutVector_same _ paired).2.2.2
    rw [hpaired.selected]
    exact List.pairwise_lt_range
  · intro batch hbatch row
    obtain ⟨paired, hpaired, rfl⟩ := hall batch hbatch
    obtain ⟨-, hposition, hrows, -⟩ := withoutVector_same (path.dvInfo.map builder.openDeletionVector) paired
    rw [withoutVector_selected hpaired.selected (fileShapes_mem hsize hpaired.shape).1, hposition, hrows]

/-- `Build` with a cache that does not serve another vector. -/
lemma ReadableFile.build {path : AnnotatedDataPath} {file : ParquetFile} (h : ReadableFile builder path file)
    (hfilter : SelectsAll builder.rowFilter) (hgroups : builder.canSkipRowGroup = none)
    (hsize : 0 < builder.batchSize) (hmax : builder.batchSize ≤ 2 ^ 31) {cache : DvCache (DeletionVector roaring)}
    (hcache : path.path = cache.lastDataFilePath → cache.lastDv = path.dvInfo.map builder.openDeletionVector) :
    ∃ stream batches, builder.build cache path = (.ok stream, {
        lastDataFilePath := path.path
        lastDv := path.dvInfo.map builder.openDeletionVector }) ∧
      Emits DataFileStream.readNext stream batches ∧ EmitsRows builder path (VectorHolds builder path) batches := by
  obtain ⟨rowGroups, hrowGroups, hincreasing, hplanned⟩ := h.rowGroups
  obtain ⟨fieldIdToIndex, hids⟩ := h.fieldIds
  obtain ⟨dataStream, hdataStream, hdata⟩ :=
    makeFinalStream_ok builder hids rowGroups (builder.fieldIdsForData path.toPartitionLayerFile)
  obtain ⟨filterStream, hfilterStream, hfilterShapes⟩ :=
    makeFinalStream_ok builder hids rowGroups builder.fieldIdsForFilter
  have haligned : List.Forall₂ Aligned filterStream dataStream :=
    aligned_of_shapes hfilterShapes hdata (fun shape hshape => (fileShapes_mem hsize hshape).2.1)
  have hinput : builder.makeFilteringStream path = .ok {
      filterStream := filterStream
      dataStream := dataStream
      rowFilter := builder.rowFilter
      partitionLayerFile := path.toPartitionLayerFile } := by
    unfold ScanFileReaderBuilder.makeFilteringStream
    rw [h.opened, ok_bind, hrowGroups, ok_bind, hgroups]
    simp only [hdataStream, hfilterStream, ok_bind]
    rfl
  have hfits : ∀ batch ∈ List.zipWith (pairedBatch path.toPartitionLayerFile) filterStream dataStream,
      BatchFits batch := by
    intro batch hbatch
    have hshape := ((pairedBatches_spec path.toPartitionLayerFile haligned).2 batch hbatch).shape
    rw [hdata] at hshape
    obtain ⟨hposition, -, hrows⟩ := fileShapes_mem hsize hshape
    have hend := fileShapes_end hsize hincreasing hshape
    have htotal := h.rows
    dsimp only at hposition hrows hend
    exact ⟨by omega, hposition, by omega⟩
  refine ⟨⟨⟨filterStream, dataStream, builder.rowFilter, path.toPartitionLayerFile, 0⟩,
      path.dvInfo.map builder.openDeletionVector⟩, _, ?_, dataFileStream_emits hfilter rfl haligned hfits,
    emitsRows_of_shapes h hsize hincreasing hplanned haligned hdata⟩
  unfold ScanFileReaderBuilder.build
  rw [hinput]
  simp only [buildDv_own hcache]
  rfl

/-! ### All files -/

/-- Along a run of `Build` calls every path gives a stream of these batches. -/
def BuildsTo (builder : ScanFileReaderBuilder roaring) :
    DvCache (DeletionVector roaring) → List AnnotatedDataPath → List (List FilteredBatch) → Prop
  | _, [], emitted => emitted = []
  | cache, path :: paths, emitted => ∃ stream cache' batches rest,
      builder.build cache path = (.ok stream, cache') ∧ Emits DataFileStream.readNext stream batches ∧
        emitted = batches :: rest ∧ BuildsTo builder cache' paths rest

/-- The batches that are left of a stream are not null and no exception. -/
lemma scanner_current {paths : List AnnotatedDataPath} {cache : DvCache (DeletionVector roaring)}
    {emitted : List (List FilteredBatch)}
    (hended : ∀ stream : Option (DataFileStream roaring), (∀ s ∈ stream, s.readNext.1 = .ended) →
      Emits (DataScanner.readNext builder) ⟨paths, stream, cache⟩ emitted.flatten)
    {stream : DataFileStream roaring} {batches : List FilteredBatch} (h : Emits DataFileStream.readNext stream batches) :
    Emits (DataScanner.readNext builder) ⟨paths, some stream, cache⟩ (batches ++ emitted.flatten) := by
  induction batches generalizing stream with
  | nil =>
    apply hended
    rintro s hs
    obtain rfl := Option.some.inj hs
    exact h
  | cons batch batches ih =>
    obtain ⟨hbatch, hrest⟩ := h
    have hread : stream.readNext = (.batch batch, stream.readNext.2) := Prod.ext hbatch rfl
    have hscanner : DataScanner.readNext builder ⟨paths, some stream, cache⟩ =
        (.batch batch, ⟨paths, some stream.readNext.2, cache⟩) := by
      unfold DataScanner.readNext
      dsimp only
      rw [hread]
    rw [List.cons_append, Emits, hscanner]
    exact ⟨rfl, ih hrest⟩

/-- A scanner whose current stream has ended goes on with the next path. -/
lemma scanner_ended {scanner : DataScanner roaring} (h : ∀ s ∈ scanner.currentDataStream, s.readNext.1 = .ended) :
    scanner.readNext builder = DataScanner.readMeta builder scanner.cache scanner.metaStream := by
  unfold DataScanner.readNext
  cases hcurrent : scanner.currentDataStream with
  | none => rfl
  | some stream =>
    have hread : stream.readNext = (.ended, stream.readNext.2) := Prod.ext (h stream hcurrent) rfl
    simp only
    rw [hread]

/-- The scanner gives the batches of one file after the other. -/
lemma scanner_emits {paths : List AnnotatedDataPath} {cache : DvCache (DeletionVector roaring)}
    {emitted : List (List FilteredBatch)} (h : BuildsTo builder cache paths emitted)
    {current : Option (DataFileStream roaring)} (hcurrent : ∀ s ∈ current, s.readNext.1 = .ended) :
    Emits (DataScanner.readNext builder) ⟨paths, current, cache⟩ emitted.flatten := by
  induction paths generalizing cache emitted current with
  | nil =>
    have hnil : emitted = [] := h
    rw [hnil, List.flatten_nil, Emits, scanner_ended hcurrent]
    rfl
  | cons path paths ih =>
    obtain ⟨stream, cache', batches, rest, hbuild, hstream, rfl, hrest⟩ := h
    have hsame : DataScanner.readNext builder ⟨path :: paths, current, cache⟩ =
        DataScanner.readNext builder ⟨paths, some stream, cache'⟩ := by
      rw [scanner_ended hcurrent, DataScanner.readMeta, hbuild]
      rfl
    rw [List.flatten_cons]
    exact emits_congr hsame (scanner_current (fun _ hended => ih hrest hended) hstream)

/-- Neighbours with the same path have the same vector, and the first path is not empty or has none. -/
structure SameVectors (builder : ScanFileReaderBuilder roaring) (paths : List AnnotatedDataPath) : Prop where
  first : ∀ path ∈ paths.head?, path.path = [] → path.dvInfo = none
  neighbours : paths.IsChain (fun a b => a.path = b.path →
    a.dvInfo.map builder.openDeletionVector = b.dvInfo.map builder.openDeletionVector)

/-- Every file is built with its own vector. -/
lemma buildsTo {paths : List AnnotatedDataPath} (hfilter : SelectsAll builder.rowFilter)
    (hgroups : builder.canSkipRowGroup = none) (hsize : 0 < builder.batchSize) (hmax : builder.batchSize ≤ 2 ^ 31)
    (hfiles : ∀ path ∈ paths, ∃ file, ReadableFile builder path file) {cache : DvCache (DeletionVector roaring)}
    (hfirst : ∀ path ∈ paths.head?, path.path = cache.lastDataFilePath →
      cache.lastDv = path.dvInfo.map builder.openDeletionVector)
    (hneighbours : paths.IsChain (fun a b => a.path = b.path →
      a.dvInfo.map builder.openDeletionVector = b.dvInfo.map builder.openDeletionVector)) :
    ∃ emitted, BuildsTo builder cache paths emitted ∧
      List.Forall₂ (fun path => EmitsRows builder path (VectorHolds builder path)) paths emitted := by
  induction paths generalizing cache with
  | nil => exact ⟨[], rfl, .nil⟩
  | cons path paths ih =>
    obtain ⟨file, hfile⟩ := hfiles path List.mem_cons_self
    obtain ⟨hnext, hrest⟩ := List.isChain_cons.mp hneighbours
    obtain ⟨stream, batches, hbuild, hstream, hrows⟩ := hfile.build hfilter hgroups hsize hmax (hfirst path rfl)
    have hcache : ∀ next ∈ paths.head?,
        next.path = (DvCache.mk path.path (path.dvInfo.map builder.openDeletionVector)).lastDataFilePath →
          (DvCache.mk path.path (path.dvInfo.map builder.openDeletionVector)).lastDv =
            next.dvInfo.map builder.openDeletionVector :=
      fun next hmem hpath => hnext next hmem hpath.symm
    obtain ⟨emitted, hemitted, hall⟩ :=
      ih (fun path hpath => hfiles path (List.mem_cons_of_mem _ hpath)) hcache hrest
    exact ⟨batches :: emitted, ⟨stream, _, batches, emitted, hbuild, hstream, rfl, hemitted⟩, .cons hrows hall⟩

end

/-! ### Positional deletes -/

/-- Some delete file of the partition with a layer from the file's on holds the row. -/
def DeletesRow (deletes : PositionalDeletes) (cb : Bytes → DeleteFile) (file : PartitionLayerFile) (pos : Int) : Prop :=
  ∃ layer url, file.layer ≤ layer ∧ HasDeleteFile deletes file.partition layer url ∧
    (some file.path, some pos) ∈ cellsOf (cb url).rowGroups

/-- The second batch is the first one without the rows that the delete files hold. -/
structure KeepsRows (deletes : PositionalDeletes) (cb : Bytes → DeleteFile) (batch kept : FilteredBatch) : Prop where
  tagged : kept.toPartitionLayerFile = batch.toPartitionLayerFile
  position : kept.rowPosition = batch.rowPosition
  rows : kept.numRows = batch.numRows
  sublist : kept.selectionVector.Sublist batch.selectionVector
  selected : ∀ row, row ∈ kept.selectionVector ↔ row ∈ batch.selectionVector ∧
    ¬DeletesRow deletes cb batch.toPartitionLayerFile (batch.rowPosition + row)

/-- The selected rows are ascending rows of the batch. -/
def Ascending (batch : FilteredBatch) : Prop :=
  batch.selectionVector.Pairwise (· < ·) ∧ ∀ row ∈ batch.selectionVector, row < batch.numRows

section
variable {Q : MinQueue PositionalDeleteStream.Reader.getPosition} {deletes : PositionalDeletes}
  {cb : Bytes → DeleteFile}

lemma applyPositionalDeletes_keeps (hfiles : SoundDeleteFiles deletes cb) {applier : PositionalDeleteApplier}
    (h : Continues deletes cb applier) {batch : FilteredBatch} (hbatch : Ascending batch) :
    ∃ kept applier', IcebergScan.applyPositionalDeletes Q deletes cb applier batch = (.batch kept, applier') ∧
      Continues deletes cb applier' ∧ KeepsRows deletes cb batch kept := by
  unfold IcebergScan.applyPositionalDeletes
  by_cases hempty : deletes.deleteEntries.entries.isEmpty = true
  · rw [if_pos hempty]
    refine ⟨batch, applier, rfl, h, rfl, rfl, rfl, .refl _, ?_⟩
    intro row
    have hnone : ¬DeletesRow deletes cb batch.toPartitionLayerFile (batch.rowPosition + row) := by
      rintro ⟨layer, url, -, ⟨layers, infos, hlayers, -⟩, -⟩
      have hentry := (deletes.deleteEntries.mem_entries _ _).mpr hlayers
      rw [List.isEmpty_iff.mp hempty] at hentry
      cases hentry
    simp [hnone]
  · rw [if_neg hempty]
    have hrows : batch.rowBatch = some ⟨batch.toIcebergBatch, batch.numRows, hbatch.1, hbatch.2⟩ := dif_pos hbatch
    rw [hrows]
    generalize hrowBatch : RowBatch.mk batch.toIcebergBatch batch.numRows hbatch.1 hbatch.2 = rows
    obtain ⟨hresult, hcontinues⟩ := @readNext_faultless Q deletes cb hfiles applier h rows
    have hread : applier.readNext Q deletes cb { batch := rows } =
        (.ok (withoutDeleted deletes cb rows), (applier.readNext Q deletes cb (faultless rows)).2) :=
      Prod.ext hresult rfl
    simp only [hread]
    subst hrowBatch
    refine ⟨_, _, rfl, hcontinues, rfl, rfl, rfl, List.filter_sublist, ?_⟩
    intro row
    exact mem_withoutDeleted

/-- The scan gives the batches of the scanner without the deleted rows. -/
lemma scan_emits {roaring : RoaringLibrary} {builder : ScanFileReaderBuilder roaring}
    (hfiles : SoundDeleteFiles deletes cb) {input : DataScanner roaring} {batches : List FilteredBatch}
    (hbatches : ∀ batch ∈ batches, Ascending batch) (hinput : Emits (DataScanner.readNext builder) input batches)
    {applier : PositionalDeleteApplier} (h : Continues deletes cb applier) :
    ∃ kept, List.Forall₂ (KeepsRows deletes cb) batches kept ∧
      Emits (IcebergScan.readNext Q builder deletes cb) ⟨input, applier⟩ kept := by
  induction batches generalizing input applier with
  | nil =>
    refine ⟨[], .nil, ?_⟩
    have hread : input.readNext builder = (.ended, (input.readNext builder).2) := Prod.ext hinput rfl
    unfold Emits IcebergScan.readNext
    dsimp only
    rw [hread]
  | cons batch batches ih =>
    obtain ⟨hbatch, hrest⟩ := hinput
    obtain ⟨kept, applier', happlied, hcontinues, hkeeps⟩ :=
      @applyPositionalDeletes_keeps Q deletes cb hfiles applier h batch (hbatches batch List.mem_cons_self)
    obtain ⟨rest, hkept, hemits⟩ :=
      ih (fun batch hmem => hbatches batch (List.mem_cons_of_mem _ hmem)) hrest hcontinues
    have hread : input.readNext builder = (.batch batch, (input.readNext builder).2) := Prod.ext hbatch rfl
    have hscan : IcebergScan.readNext Q builder deletes cb ⟨input, applier⟩ =
        (.batch kept, ⟨(input.readNext builder).2, applier'⟩) := by
      unfold IcebergScan.readNext
      dsimp only
      rw [hread]
      simp only [happlied]
    refine ⟨kept :: rest, .cons hkeeps hkept, ?_⟩
    rw [Emits, hscan]
    exact ⟨rfl, hemits⟩

lemma KeepsRows.positions {batches kept : List FilteredBatch} (h : List.Forall₂ (KeepsRows deletes cb) batches kept) :
    kept.flatMap batchPositions = batches.flatMap batchPositions := by
  induction h with
  | nil => rfl
  | cons hkeeps _ ih => rw [List.flatMap_cons, List.flatMap_cons, ih, batchPositions, batchPositions, hkeeps.position,
      hkeeps.rows]

/-- The rows of a file after the positional deletes. -/
lemma EmitsRows.keeps {roaring : RoaringLibrary} {builder : ScanFileReaderBuilder roaring} {path : AnnotatedDataPath}
    {Deleted : Int → Prop} {batches kept : List FilteredBatch} (h : EmitsRows builder path Deleted batches)
    (hkeeps : List.Forall₂ (KeepsRows deletes cb) batches kept) :
    EmitsRows builder path (fun pos => Deleted pos ∨ DeletesRow deletes cb path.toPartitionLayerFile pos) kept := by
  have hpositions := KeepsRows.positions hkeeps
  have hof : ∀ batch ∈ kept, ∃ before ∈ batches, KeepsRows deletes cb before batch := by
    intro batch hbatch
    obtain ⟨i, hi⟩ := List.mem_iff_getElem?.mp hbatch
    obtain ⟨before, hbefore, hkept⟩ := forall₂_getElem? hkeeps.flip hi
    exact ⟨before, List.mem_of_getElem? hbefore, hkept⟩
  obtain ⟨file, hopened, hplanned⟩ := h.planned
  refine ⟨?_, hpositions ▸ h.once, ⟨file, hopened, hpositions ▸ hplanned⟩, ?_, ?_⟩
  · intro batch hbatch
    obtain ⟨before, hbefore, hkept⟩ := hof batch hbatch
    rw [hkept.tagged, h.tagged before hbefore]
  · intro batch hbatch
    obtain ⟨before, hbefore, hkept⟩ := hof batch hbatch
    exact (h.increasing before hbefore).sublist hkept.sublist
  · intro batch hbatch row
    obtain ⟨before, hbefore, hkept⟩ := hof batch hbatch
    rw [hkept.selected, h.selected before hbefore, hkept.position, hkept.rows, h.tagged before hbefore]
    tauto

end

lemma forall₂_keeps {deletes : PositionalDeletes} {cb : Bytes → DeleteFile} {roaring : RoaringLibrary}
    {builder : ScanFileReaderBuilder roaring} {Deleted : AnnotatedDataPath → Int → Prop}
    {paths : List AnnotatedDataPath} {built emitted : List (List FilteredBatch)}
    (h : List.Forall₂ (fun path => EmitsRows builder path (Deleted path)) paths built)
    (hkeeps : List.Forall₂ (List.Forall₂ (KeepsRows deletes cb)) built emitted) :
    List.Forall₂ (fun path => EmitsRows builder path (fun pos =>
      Deleted path pos ∨ DeletesRow deletes cb path.toPartitionLayerFile pos)) paths emitted := by
  induction h generalizing emitted with
  | nil =>
    cases hkeeps
    exact .nil
  | cons hrows _ ih =>
    cases hkeeps with
    | cons hkept hrest => exact .cons (hrows.keeps hkept) (ih hrest)

/-! ### The plan -/

/-- One step of the loops that collect the positional deletes. -/
def putLayer (deleteEntries : OrdMap Int (OrdMap Int (List PositionalDeleteInfo)))
    (layer : (Int × Int) × List PositionalDeleteInfo) : OrdMap Int (OrdMap Int (List PositionalDeleteInfo)) :=
  deleteEntries.alter layer.1.1 (fun layers => (layers.getD ∅).insert layer.1.2 layer.2)

/-- The deletes of a partition and a layer. -/
def deletesUnder (deleteEntries : OrdMap Int (OrdMap Int (List PositionalDeleteInfo))) (key : Int × Int) :
    Option (List PositionalDeleteInfo) := (deleteEntries.find? key.1).bind (fun layers => layers.find? key.2)

lemma deletesUnder_putLayer (deleteEntries : OrdMap Int (OrdMap Int (List PositionalDeleteInfo)))
    (layer : (Int × Int) × List PositionalDeleteInfo) (key : Int × Int) :
    deletesUnder (putLayer deleteEntries layer) key =
      if key = layer.1 then some layer.2 else deletesUnder deleteEntries key := by
  obtain ⟨⟨partition, layerId⟩, infos⟩ := layer
  obtain ⟨keyPartition, keyLayer⟩ := key
  unfold deletesUnder putLayer
  dsimp only
  rw [OrdMap.find?_alter]
  by_cases hpartition : keyPartition = partition
  · subst hpartition
    rw [if_pos rfl, Option.bind_some, OrdMap.find?_insert]
    by_cases hlayer : keyLayer = layerId
    · rw [if_pos hlayer, if_pos (by rw [hlayer])]
    · rw [if_neg hlayer, if_neg (by simpa using hlayer)]
      cases deleteEntries.find? keyPartition with
      | none => exact OrdMap.find?_empty _
      | some layers => rfl
  · rw [if_neg hpartition, if_neg (by simp [hpartition])]

/-- The deletes that are found are those that were put, when no key is put with two values. -/
lemma deletesUnder_putLayers {layers : List ((Int × Int) × List PositionalDeleteInfo)}
    (h : ∀ key infos infos', (key, infos) ∈ layers → (key, infos') ∈ layers → infos = infos') (key : Int × Int)
    (infos : List PositionalDeleteInfo) :
    deletesUnder (layers.foldl putLayer ∅) key = some infos ↔ (key, infos) ∈ layers := by
  induction layers using List.reverseRecOn with
  | nil =>
    rw [List.foldl_nil, deletesUnder, OrdMap.find?_empty]
    simp
  | append_singleton layers layer ih =>
    have hlast : (layer.1, layer.2) ∈ layers ++ [layer] := List.mem_append_right _ (List.mem_singleton_self _)
    have hbefore := ih (fun key infos infos' hmem hmem' =>
      h key infos infos' (List.mem_append_left _ hmem) (List.mem_append_left _ hmem'))
    rw [List.foldl_append, List.foldl_cons, List.foldl_nil, deletesUnder_putLayer]
    by_cases hkey : key = layer.1
    · subst hkey
      rw [if_pos rfl, Option.some.injEq]
      constructor
      · rintro rfl
        exact hlast
      · intro hmem
        exact h _ _ _ hlast hmem
    · rw [if_neg hkey, hbefore, List.mem_append, List.mem_singleton]
      constructor
      · exact Or.inl
      · rintro (hmem | rfl)
        · exact hmem
        · exact absurd rfl hkey

/-- The layers of a plan with their deletes. -/
def planLayers (plan : ScanMetadata) : List ((Int × Int) × List PositionalDeleteInfo) :=
  plan.partitions.zipIdx.flatMap (fun (partition, partitionId) =>
    partition.zipIdx.map (fun (layer, layerId) =>
      (((partitionId : Int), (layerId : Int)), layer.positionalDeleteEntries)))

lemma positionalDeletesOf_eq (plan : ScanMetadata) :
    (positionalDeletesOf plan).deleteEntries = (planLayers plan).foldl putLayer ∅ := by
  unfold positionalDeletesOf planLayers
  rw [List.foldl_flatMap]
  simp only [List.foldl_map]
  rfl

lemma mem_planLayers {plan : ScanMetadata} {key : Int × Int} {infos : List PositionalDeleteInfo} :
    (key, infos) ∈ planLayers plan ↔ ∃ (partitionId layerId : Nat) (partition : Partition) (layer : Layer),
      plan.partitions[partitionId]? = some partition ∧ partition[layerId]? = some layer ∧
        key = (↑partitionId, ↑layerId) ∧ infos = layer.positionalDeleteEntries := by
  unfold planLayers
  simp only [List.mem_flatMap, List.mem_map, Prod.exists, List.mk_mem_zipIdx_iff_getElem?, Prod.mk.injEq]
  constructor
  · rintro ⟨partition, partitionId, hpartition, layer, layerId, hlayer, rfl, rfl⟩
    exact ⟨partitionId, layerId, partition, layer, hpartition, hlayer, rfl, rfl⟩
  · rintro ⟨partitionId, layerId, partition, layer, hpartition, hlayer, rfl, rfl⟩
    exact ⟨partition, partitionId, hpartition, layer, layerId, hlayer, rfl, rfl⟩

/-- A positional delete file of the partition in the plan, in a layer from the file's on, holds the row. -/
def PlanDeletes (plan : ScanMetadata) (cb : Bytes → DeleteFile) (file : PartitionLayerFile) (pos : Int) : Prop :=
  ∃ (partitionId layerId : Nat) (partition : Partition) (layer : Layer),
    plan.partitions[partitionId]? = some partition ∧ partition[layerId]? = some layer ∧
      file.partition = partitionId ∧ file.layer ≤ layerId ∧
      ∃ info ∈ layer.positionalDeleteEntries, (some file.path, some pos) ∈ cellsOf (cb info.path).rowGroups

lemma hasDeleteFile_positionalDeletesOf {plan : ScanMetadata} {partition layer : Int} {url : Bytes} :
    HasDeleteFile (positionalDeletesOf plan) partition layer url ↔
      ∃ infos, ((partition, layer), infos) ∈ planLayers plan ∧ ∃ info ∈ infos, info.path = url := by
  have hfunctional : ∀ key infos infos', (key, infos) ∈ planLayers plan → (key, infos') ∈ planLayers plan →
      infos = infos' := by
    intro key infos infos' h h'
    obtain ⟨i, j, p, l, hp, hl, rfl, rfl⟩ := mem_planLayers.mp h
    obtain ⟨i', j', p', l', hp', hl', hkey, rfl⟩ := mem_planLayers.mp h'
    obtain ⟨rfl, rfl⟩ : i = i' ∧ j = j' := by simpa using hkey
    cases hp.symm.trans hp'
    cases hl.symm.trans hl'
    rfl
  simp only [← deletesUnder_putLayers hfunctional, ← positionalDeletesOf_eq]
  unfold HasDeleteFile deletesUnder
  constructor
  · rintro ⟨layers, infos, hlayers, hinfos, hinfo⟩
    exact ⟨infos, by rw [hlayers]; exact hinfos, hinfo⟩
  · rintro ⟨infos, hinfos, hinfo⟩
    obtain ⟨layers, hlayers, hinfos⟩ := Option.bind_eq_some_iff.mp hinfos
    exact ⟨layers, infos, hlayers, hinfos, hinfo⟩

lemma deletesRow_iff {plan : ScanMetadata} {cb : Bytes → DeleteFile} {file : PartitionLayerFile} {pos : Int} :
    DeletesRow (positionalDeletesOf plan) cb file pos ↔ PlanDeletes plan cb file pos := by
  unfold DeletesRow PlanDeletes
  simp only [hasDeleteFile_positionalDeletesOf, mem_planLayers, Prod.mk.injEq]
  constructor
  · rintro ⟨_, _, hle, ⟨_, ⟨i, j, p, l, hp, hl, ⟨hpartition, rfl⟩, rfl⟩, info, hinfo, rfl⟩, hcell⟩
    exact ⟨i, j, p, l, hp, hl, hpartition, hle, info, hinfo, hcell⟩
  · rintro ⟨i, j, p, l, hp, hl, hpartition, hle, info, hinfo, hcell⟩
    exact ⟨j, info.path, hle, ⟨_, ⟨i, j, p, l, hp, hl, ⟨hpartition, rfl⟩, rfl⟩, info, hinfo, rfl⟩, hcell⟩

/-- The data entries of a plan with their places. -/
def planEntries (plan : ScanMetadata) : List AnnotatedDataPath :=
  plan.partitions.zipIdx.flatMap (fun (partition, partitionId) =>
    partition.zipIdx.flatMap (fun (layer, layerId) => layer.dataEntries.map (annotatedDataPath partitionId layerId)))

/-- The stream of the plan has each of its entries once. -/
lemma initializeAllEntries_perm (sort : DataEntrySort) (plan : ScanMetadata) :
    (initializeAllEntries sort plan).Perm (planEntries plan) := by
  apply List.Perm.flatMap_left
  rintro ⟨partition, partitionId⟩ -
  apply ((List.reverse_perm _).flatMap_right _).trans
  apply List.Perm.flatMap_left
  rintro ⟨layer, layerId⟩ -
  exact (sort.perm _).map _

/-- The vector of the file or a positional delete file of its partition holds the row. -/
def DeletedRow {roaring : RoaringLibrary} (builder : ScanFileReaderBuilder roaring) (cb : Bytes → DeleteFile)
    (plan : ScanMetadata) (path : AnnotatedDataPath) (pos : Int) : Prop :=
  VectorHolds builder path pos ∨ PlanDeletes plan cb path.toPartitionLayerFile pos

/-- What the code needs of a scan: a filter that selects every row, batches that fit `int32_t`, data files that can
be read, neighbours with the same vector where they have the same path, and sound delete files. -/
structure Scannable {roaring : RoaringLibrary} (builder : ScanFileReaderBuilder roaring) (cb : Bytes → DeleteFile)
    (plan : ScanMetadata) (paths : List AnnotatedDataPath) : Prop where
  rowFilter : SelectsAll builder.rowFilter
  rowGroups : builder.canSkipRowGroup = none
  batchSize : 0 < builder.batchSize ∧ builder.batchSize ≤ 2 ^ 31
  files : ∀ path ∈ paths, ∃ file, ReadableFile builder path file
  vectors : SameVectors builder paths
  deletes : SoundDeleteFiles (positionalDeletesOf plan) cb

/-- `std::sort` by insertion. -/
def insertionSortByPath : DataEntrySort where
  sort l := l.insertionSort (fun a b => a.path ≤ b.path)
  perm l := List.perm_insertionSort _ l
  sorted l := by
    have htotal : Std.Total (fun a b : DataEntry => a.path ≤ b.path) := ⟨fun a b => le_total a.path b.path⟩
    have htrans : IsTrans DataEntry (fun a b => a.path ≤ b.path) := ⟨fun _ _ _ => le_trans⟩
    exact List.pairwise_insertionSort _ l

/-- Two row groups of two rows. -/
def twoGroupsFile : ParquetFile where
  fields := []
  rowGroups := [⟨⟨4, 0⟩, 2, fun _ _ _ => []⟩, ⟨⟨100, 0⟩, 2, fun _ _ _ => []⟩]

/-- The vector of the position 0. -/
def vectorOfZero : DeletionVector listRoaring where
  properties := ∅
  fields := []
  bitmap := [0]

/-- Every path is a file of two row groups and every vector is that of the position 0. -/
def twoGroupsBuilder : ScanFileReaderBuilder listRoaring where
  fieldIdsToRetrieve := []
  rowFilterFieldIds := []
  equalityDeletes := ⟨∅⟩
  mapper := ⟨∅⟩
  rowFilter := passThroughFilter
  canSkipRowGroup := none
  schemaNameMapper := none
  defaultValueMap := ∅
  batchSize := 2
  openParquet _ := .ok twoGroupsFile
  openDeletionVector _ := vectorOfZero

/-- A data file, with a vector or without one. -/
def entryOfA (hasVector : Bool) : DataEntry where
  path := bytes "a"
  parts := [⟨4, 0⟩]
  dv := if hasVector then some ⟨bytes "v", 4, 40, bytes "a"⟩ else none

lemma twoGroupsFile_readable {path : AnnotatedDataPath} (h : path.segments = [⟨4, 0⟩]) :
    ReadableFile twoGroupsBuilder path twoGroupsFile where
  opened := rfl
  fieldIds := ⟨∅, rfl⟩
  offsets := ⟨[4, 100], .cons rfl (.cons rfl .nil), by decide⟩
  segments := by
    rw [h]
    exact ⟨by simp [Proper], by simp [SortedByOffset], by simp⟩
  rows := by decide

/-- A layer with a file that has a vector, and a delete file. -/
def planOfA : ScanMetadata where
  schema := ⟨0, []⟩
  partitions := [[{ dataEntries := [entryOfA true], positionalDeleteEntries := [⟨bytes "d"⟩] }]]

/-- The file in two layers; only the entry of the first one has a vector. -/
def planOfTwoLayers : ScanMetadata where
  schema := ⟨0, []⟩
  partitions := [[{ dataEntries := [entryOfA true] }, { dataEntries := [entryOfA false] }]]

/-- Two rows of the file, both selected. -/
def rowsOfA (layer position : Int) : FilteredBatch where
  partition := 0
  layer := layer
  path := bytes "a"
  rowPosition := position
  columns := []
  selectionVector := [0, 1]
  numRows := 2

lemma planOfTwoLayers_paths : initializeAllEntries insertionSortByPath planOfTwoLayers =
    [annotatedDataPath 0 1 (entryOfA false), annotatedDataPath 0 0 (entryOfA true)] := by
  rfl

lemma planOfTwoLayers_rows :
    Emits (IcebergScan.readNext (firstMin PositionalDeleteStream.Reader.getPosition) twoGroupsBuilder
        (positionalDeletesOf planOfTwoLayers) (fun _ => threeDeletes))
      { input := { metaStream := initializeAllEntries insertionSortByPath planOfTwoLayers } }
      [rowsOfA 1 0, rowsOfA 1 2, rowsOfA 0 0, rowsOfA 0 2] :=
  ⟨rfl, rfl, rfl, rfl, rfl⟩

lemma forall₂_pair {α β : Type} {R : α → β → Prop} {a a' : α} {l : List β} (h : List.Forall₂ R [a, a'] l) :
    ∃ b b', l = [b, b'] ∧ R a b ∧ R a' b' := by
  cases h with
  | cons hab hrest =>
    cases hrest with
    | cons hab' hnil =>
      cases hnil
      exact ⟨_, _, rfl, hab, hab'⟩

end IcebergCxx.Proofs

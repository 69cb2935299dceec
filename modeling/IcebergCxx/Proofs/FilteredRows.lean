import IcebergCxx.Proofs.IcebergProjection

/-!
# Filtered rows of a file

With a row filter the stream of a file passes over batches without a selected row, and row groups may be left out of
it. The batches that it does return have the rows that the filter selects, at their positions in the whole file, and
no selected row is lost.
-/

namespace IcebergCxx.Proofs

open Lib

/-! ### Layers of a stream -/

/-- A layer over a stream that makes a batch of every batch, whatever it has read before. -/
lemma emits_layer {S A T α β : Type} {readNext : S → ReadResult α × S} {readNext' : T → ReadResult β × T}
    {layer : S → A → T} {Inv : A → Prop} {R : α → β → Prop} {l : List α}
    (hended : ∀ s a, (readNext s).1 = .ended → (readNext' (layer s a)).1 = .ended)
    (hbatch : ∀ s a x, Inv a → x ∈ l → (readNext s).1 = .batch x →
      ∃ y a', readNext' (layer s a) = (.batch y, layer (readNext s).2 a') ∧ Inv a' ∧ R x y)
    {s : S} (h : Emits readNext s l) {a : A} (ha : Inv a) :
    ∃ kept, List.Forall₂ R l kept ∧ Emits readNext' (layer s a) kept := by
  induction l generalizing s a with
  | nil => exact ⟨[], .nil, hended s a h⟩
  | cons x l ih =>
    obtain ⟨hx, hrest⟩ := h
    obtain ⟨y, a', hread, ha', hxy⟩ := hbatch s a x ha List.mem_cons_self hx
    obtain ⟨kept, hkept, hemits⟩ :=
      ih (fun s a x ha hmem => hbatch s a x ha (List.mem_cons_of_mem _ hmem)) hrest ha'
    refine ⟨y :: kept, .cons hxy hkept, ?_⟩
    rw [Emits, hread]
    exact ⟨rfl, hemits⟩

lemma forall₂_eq_map {α β : Type} {f : α → β} {l : List α} {l' : List β} (h : List.Forall₂ (fun a b => b = f a) l l') :
    l' = l.map f := by
  induction h with
  | nil => rfl
  | cons hab _ ih => rw [List.map_cons, hab, ih]

/-! ### The filtering stream -/

/-- What a filter batch makes with the data batch at its side: nothing when no row is selected. -/
def filteredPair (rowFilter : ApplyRowFilter) (file : PartitionLayerFile)
    (batchFilter batchData : ArrowBatchWithRowPosition) : Option FilteredBatch :=
  match rowFilter batchFilter with
  | .ok (row :: rows) => some { pairedBatch file batchFilter batchData with selectionVector := row :: rows }
  | _ => none

def filteredPairs (rowFilter : ApplyRowFilter) (file : PartitionLayerFile)
    (filterStream dataStream : List ArrowBatchWithRowPosition) : List FilteredBatch :=
  (List.zipWith (filteredPair rowFilter file) filterStream dataStream).reduceOption

/-- The rows of some batches. -/
def rowsOf (batches : List ArrowBatchWithRowPosition) : Nat := (batches.map (fun batch => batch.numRows)).sum

/-- As many rows as the batches that were passed over have are skipped in the data stream. -/
lemma skipRows_passed {passed rest : List ArrowBatchWithRowPosition} (h : ∀ batch ∈ passed, 0 < batch.numRows) :
    FilteringStream.skipRows (rowsOf passed) (passed ++ rest) = (0, rest) := by
  induction passed with
  | nil => cases rest <;> rfl
  | cons batch passed ih =>
    have hpos := h batch List.mem_cons_self
    have hrest : ((rowsOf (batch :: passed) : Nat) : Int) - batch.numRows = rowsOf passed := by
      simp [rowsOf]
    have hlt : ((rowsOf (batch :: passed) : Nat) : Int) > 0 := by
      unfold rowsOf
      rw [List.map_cons, List.sum_cons]
      omega
    rw [List.cons_append, FilteringStream.skipRows, if_pos hlt, hrest]
    exact ih (fun batch hbatch => h batch (List.mem_cons_of_mem _ hbatch))

lemma rowsOf_append (a b : List ArrowBatchWithRowPosition) : rowsOf (a ++ b) = rowsOf a + rowsOf b := by
  unfold rowsOf
  rw [List.map_append, List.sum_append]

/-- A stream that has passed over some data batches, and is about to read a filter batch with a selected row. -/
lemma readNext_selected {rowFilter : ApplyRowFilter} {file : PartitionLayerFile}
    {passed filterRest dataRest : List ArrowBatchWithRowPosition} {batchFilter batchData : ArrowBatchWithRowPosition}
    (hpassed : ∀ batch ∈ passed, 0 < batch.numRows) (haligned : Aligned batchFilter batchData) {row : Nat}
    {rows : List Nat} (hselected : rowFilter batchFilter = .ok (row :: rows)) :
    (FilteringStream.mk (batchFilter :: filterRest) (passed ++ batchData :: dataRest) rowFilter file
        (rowsOf passed)).readNext =
      (.batch { pairedBatch file batchFilter batchData with selectionVector := row :: rows },
        ⟨filterRest, dataRest, rowFilter, file, 0⟩) := by
  obtain ⟨hposition, hrows⟩ := Prod.mk.inj haligned.1
  have hconcatenate : concatenate batchData batchFilter = .ok {
      columns := batchData.columns ++ batchFilter.columns
      numRows := batchData.numRows
      rowPosition := batchData.rowPosition } := by
    unfold concatenate
    rw [decide_eq_true hposition.symm, decide_eq_true hrows.symm]
    rfl
  unfold FilteringStream.readNext
  simp only [FilteringStream.readFrom, hselected, FilteringStream.pairWith, FilteringStream.skipped,
    skipRows_passed hpassed, gt_iff_lt, lt_irrefl, if_false, ne_eq, not_true_eq_false, hconcatenate, pairedBatch]

/-- The stream gives the pairs with a selected row, in order. -/
lemma filteringStream_emits {rowFilter : ApplyRowFilter} {file : PartitionLayerFile}
    {filterStream rest : List ArrowBatchWithRowPosition} (haligned : List.Forall₂ Aligned filterStream rest)
    (hanswers : ∀ batch ∈ filterStream, ∃ rows, rowFilter batch = .ok rows)
    {passed : List ArrowBatchWithRowPosition} (hpassed : ∀ batch ∈ passed, 0 < batch.numRows) :
    Emits FilteringStream.readNext ⟨filterStream, passed ++ rest, rowFilter, file, rowsOf passed⟩
      (filteredPairs rowFilter file filterStream rest) := by
  induction haligned generalizing passed with
  | nil => exact filteringStream_ended rfl
  | @cons batchFilter batchData filterRest dataRest hfirst _ ih =>
    have hrest := fun {passed} => @ih (fun batch hbatch => hanswers batch (List.mem_cons_of_mem _ hbatch)) passed
    obtain ⟨rows, hrows⟩ := hanswers batchFilter List.mem_cons_self
    cases rows with
    | nil =>
      -- the data batch joins those that are passed over
      have hnone : filteredPair rowFilter file batchFilter batchData = none := by
        unfold filteredPair
        rw [hrows]
      have hpairs : filteredPairs rowFilter file (batchFilter :: filterRest) (batchData :: dataRest) =
          filteredPairs rowFilter file filterRest dataRest := by
        unfold filteredPairs
        rw [List.zipWith_cons_cons, hnone, List.reduceOption_cons_of_none]
      have hread : (FilteringStream.mk (batchFilter :: filterRest) (passed ++ batchData :: dataRest) rowFilter file
            (rowsOf passed)).readNext =
          (FilteringStream.mk filterRest ((passed ++ [batchData]) ++ dataRest) rowFilter file
            (rowsOf (passed ++ [batchData]))).readNext := by
        have hcount : ((rowsOf passed : Nat) : Int) + batchFilter.numRows = (rowsOf (passed ++ [batchData]) : Nat) := by
          have hsame : batchFilter.numRows = batchData.numRows := congrArg Prod.snd hfirst.1
          rw [rowsOf_append, hsame]
          simp [rowsOf]
        rw [List.append_assoc, List.singleton_append, ← hcount]
        simp only [FilteringStream.readNext, FilteringStream.readFrom, hrows]
        exact readFrom_eq _ _
      rw [hpairs]
      apply emits_congr hread
      apply hrest
      intro batch hbatch
      rcases List.mem_append.mp hbatch with hbatch | hbatch
      · exact hpassed batch hbatch
      · rw [List.mem_singleton.mp hbatch, ← (Prod.mk.inj hfirst.1).2]
        exact hfirst.2
    | cons row rows =>
      have hsome : filteredPair rowFilter file batchFilter batchData =
          some { pairedBatch file batchFilter batchData with selectionVector := row :: rows } := by
        unfold filteredPair
        rw [hrows]
      have hpairs : filteredPairs rowFilter file (batchFilter :: filterRest) (batchData :: dataRest) =
          { pairedBatch file batchFilter batchData with selectionVector := row :: rows } ::
            filteredPairs rowFilter file filterRest dataRest := by
        unfold filteredPairs
        rw [List.zipWith_cons_cons, hsome, List.reduceOption_cons_of_some]
      have hread := @readNext_selected rowFilter file passed filterRest dataRest batchFilter batchData hpassed hfirst row
        rows hrows
      rw [hpairs, Emits, hread]
      exact ⟨rfl, @hrest [] (fun batch hbatch => absurd hbatch List.not_mem_nil)⟩

/-! ### Row groups -/

section
variable {roaring : RoaringLibrary} (builder : ScanFileReaderBuilder roaring)

/-- The batches of a row group, as `MakeFinalStream` makes them. -/
def rowGroupBatches (file : ParquetFile) (fieldIds : List Int) (rowGroup : Nat) : List ArrowBatchWithRowPosition :=
  (builder.makeFinalStream file [rowGroup] fieldIds).toOption.getD []

/-- The filter selects the row with this position, in the batch that has it. -/
def FilterSelects (file : ParquetFile) (pos : Int) : Prop :=
  ∃ i, ∃ batch ∈ rowGroupBatches builder file builder.fieldIdsForFilter i,
    ∃ rows, builder.rowFilter batch = .ok rows ∧ ∃ row ∈ rows, pos = batch.rowPosition + (row : Nat)

/-- What the code needs of the row filter over a file: it answers every batch with ascending rows of it, and selects no
row of a row group that is left out. -/
structure FiltersFile (file : ParquetFile) : Prop where
  answers : ∀ i, ∀ batch ∈ rowGroupBatches builder file builder.fieldIdsForFilter i, ∃ rows,
    builder.rowFilter batch = .ok rows ∧ rows.Pairwise (· < ·) ∧ ∀ row ∈ rows, row < batch.numRows
  skipped : ∀ canSkip ∈ builder.canSkipRowGroup, ∀ i rowGroup, file.rowGroups[i]? = some rowGroup →
    canSkip rowGroup = true → ∀ pos, RowGroupHolds file i pos → ¬FilterSelects builder file pos

variable {builder} {file : ParquetFile} {fieldIdToIndex : OrdMap Int Nat}

lemma makeFinalStream_eq (h : makeFieldIdToIndexMap builder.schemaNameMapper file.fields = .ok fieldIdToIndex)
    (rowGroups : List Nat) (fieldIds : List Int) : builder.makeFinalStream file rowGroups fieldIds =
      .ok (rowGroups.flatMap (rowGroupBatches builder file fieldIds)) := by
  have hstream : ∃ f : Nat → List ArrowBatchWithRowPosition, ∀ rowGroups,
      builder.makeFinalStream file rowGroups fieldIds = .ok (rowGroups.flatMap f) := by
    unfold ScanFileReaderBuilder.makeFinalStream ScanFileReaderBuilder.getParquetColumnInfos
    simp only [h, ok_bind, pure_bind, parquetFileReader, List.map_flatMap]
    exact ⟨_, fun rowGroups => rfl⟩
  obtain ⟨f, hf⟩ := hstream
  have hbatches : rowGroupBatches builder file fieldIds = f := by
    funext i
    unfold rowGroupBatches
    rw [hf]
    simp [Except.toOption]
  rw [hbatches, hf]

lemma rowGroupBatches_shapes (h : makeFieldIdToIndexMap builder.schemaNameMapper file.fields = .ok fieldIdToIndex)
    (fieldIds : List Int) (i : Nat) :
    (rowGroupBatches builder file fieldIds i).map shapeOf = fileShapes builder.batchSize file [i] := by
  obtain ⟨batches, hbatches, hshapes⟩ := makeFinalStream_ok builder h [i] fieldIds
  unfold rowGroupBatches
  rw [hbatches]
  exact hshapes

/-- The rows of a batch are rows of its row group. -/
lemma rowGroupHolds_of_mem (h : makeFieldIdToIndexMap builder.schemaNameMapper file.fields = .ok fieldIdToIndex)
    {fieldIds : List Int} {i : Nat} {batch : ArrowBatchWithRowPosition}
    (hbatch : batch ∈ rowGroupBatches builder file fieldIds i) {pos : Int} (hpos : pos ∈ shapePositions (shapeOf batch)) :
    RowGroupHolds file i pos := by
  have hmem : pos ∈ (fileShapes builder.batchSize file [i]).flatMap shapePositions := by
    rw [← rowGroupBatches_shapes h fieldIds i]
    exact List.mem_flatMap.mpr ⟨shapeOf batch, List.mem_map_of_mem hbatch, hpos⟩
  obtain ⟨j, hj, hholds⟩ :=
    ((fileShapes_positions file builder.batchSize (List.pairwise_singleton _ i)).2 pos).mp hmem
  rw [List.mem_singleton.mp hj] at hholds
  exact hholds

/-- A row group is determined by a row of it. -/
lemma rowGroupHolds_unique {i j : Nat} {pos : Int} (hi : RowGroupHolds file i pos) (hj : RowGroupHolds file j pos) :
    i = j := by
  rcases lt_trichotomy i j with h | h | h
  · exact absurd (hi.lt_of_lt h hj) (lt_irrefl _)
  · exact h
  · exact absurd (hj.lt_of_lt h hi) (lt_irrefl _)

lemma eq_of_mem_flatMap {α β : Type} {l : List α} {f : α → List β} (h : (l.flatMap f).Nodup) {a b : α} (ha : a ∈ l)
    (hb : b ∈ l) {x : β} (hxa : x ∈ f a) (hxb : x ∈ f b) : a = b := by
  by_contra hne
  have hdisjoint := (List.nodup_flatMap.mp h).2
  have hsymmetric : Std.Symm (fun a b => List.Disjoint (f a) (f b)) := ⟨fun _ _ hd => hd.symm⟩
  exact hdisjoint.forall ha hb hne hxa hxb

/-- A batch is determined by its row group and a row of it. -/
lemma batch_unique (h : makeFieldIdToIndexMap builder.schemaNameMapper file.fields = .ok fieldIdToIndex)
    {fieldIds : List Int} {i : Nat} {a b : ArrowBatchWithRowPosition} (ha : a ∈ rowGroupBatches builder file fieldIds i)
    (hb : b ∈ rowGroupBatches builder file fieldIds i) {pos : Int} (hpos : pos ∈ shapePositions (shapeOf a))
    (hpos' : pos ∈ shapePositions (shapeOf b)) : a = b := by
  have hordered := (fileShapes_positions file builder.batchSize (List.pairwise_singleton (· < ·) i)).1
  rw [← rowGroupBatches_shapes h fieldIds i, List.flatMap_map] at hordered
  exact eq_of_mem_flatMap (hordered.imp ne_of_lt) ha hb hpos hpos'

/-- The filter selects a row exactly when its answer for the batch of the row has it. -/
lemma filterSelects_iff (h : makeFieldIdToIndexMap builder.schemaNameMapper file.fields = .ok fieldIdToIndex)
    (hfilter : FiltersFile builder file) {i : Nat} {batch : ArrowBatchWithRowPosition}
    (hbatch : batch ∈ rowGroupBatches builder file builder.fieldIdsForFilter i) {rows : List Nat}
    (hrows : builder.rowFilter batch = .ok rows) {row : Nat} (hrow : row < batch.numRows) :
    FilterSelects builder file (batch.rowPosition + row) ↔ row ∈ rows := by
  constructor
  · rintro ⟨j, batch', hbatch', rows', hrows', row', hrow', hpos⟩
    have hmem : batch.rowPosition + (row : Int) ∈ shapePositions (shapeOf batch) := by
      rw [mem_shapePositions, shapeOf]
      dsimp only
      omega
    have hmem' : batch.rowPosition + (row : Int) ∈ shapePositions (shapeOf batch') := by
      obtain ⟨answer, hanswer, -, hinRange⟩ := hfilter.answers j batch' hbatch'
      obtain rfl := Except.ok.inj (hrows'.symm.trans hanswer)
      have hlt := hinRange row' hrow'
      rw [mem_shapePositions, shapeOf]
      dsimp only
      omega
    obtain rfl := rowGroupHolds_unique (rowGroupHolds_of_mem h hbatch hmem) (rowGroupHolds_of_mem h hbatch' hmem')
    obtain rfl := batch_unique h hbatch hbatch' hmem hmem'
    obtain rfl := Except.ok.inj (hrows.symm.trans hrows')
    obtain rfl : row = row' := by omega
    exact hrow'
  · intro hmem
    exact ⟨i, batch, hbatch, rows, hrows, row, hmem, rfl⟩

/-! ### The stream of a file -/

variable (builder) in
/-- A filter batch and a data batch of a row group, for the same rows. -/
structure PairOf (place : PartitionLayerFile) (file : ParquetFile) (i : Nat)
    (batchFilter batchData : ArrowBatchWithRowPosition) : Prop where
  aligned : Aligned batchFilter batchData
  filter : batchFilter ∈ rowGroupBatches builder file builder.fieldIdsForFilter i
  data : batchData ∈ rowGroupBatches builder file (builder.fieldIdsForData place) i

variable (builder) in
/-- A batch with the columns of such a pair, at its rows. -/
def ReadOf (place : PartitionLayerFile) (file : ParquetFile) (batch : FilteredBatch) : Prop :=
  ∃ i batchFilter batchData, PairOf builder place file i batchFilter batchData ∧
    shapeOf batchData = (batch.rowPosition, batch.numRows) ∧ batch.columns = batchData.columns ++ batchFilter.columns

variable (builder) in
/-- The batches have every planned row that the filter selects once, with its place, its position and its columns, and
the selected rows are those that the filter selects and that are not deleted. -/
structure EmitsFiltered (path : AnnotatedDataPath) (file : ParquetFile) (Deleted : ArrowBatchWithRowPosition → Nat → Prop)
    (batches : List FilteredBatch) : Prop where
  tagged : ∀ batch ∈ batches, batch.toPartitionLayerFile = path.toPartitionLayerFile
  read : ∀ batch ∈ batches, ReadOf builder path.toPartitionLayerFile file batch
  once : (batches.flatMap batchPositions).Pairwise (· < ·)
  planned : ∀ pos ∈ batches.flatMap batchPositions, PlannedRow file path.segments pos
  covered : ∀ pos, PlannedRow file path.segments pos → FilterSelects builder file pos →
    pos ∈ batches.flatMap batchPositions
  increasing : ∀ batch ∈ batches, batch.selectionVector.Pairwise (· < ·)
  selected : ∀ batch ∈ batches, ∀ row : Nat, row ∈ batch.selectionVector ↔
    row < batch.numRows ∧ FilterSelects builder file (batch.rowPosition + row) ∧ ¬Deleted batch.withRowPosition row

lemma forall₂_append {α β : Type} {R : α → β → Prop} {a b : List α} {a' b' : List β} (h : List.Forall₂ R a a')
    (h' : List.Forall₂ R b b') : List.Forall₂ R (a ++ b) (a' ++ b') := by
  induction h with
  | nil => exact h'
  | cons hab _ ih => exact .cons hab ih

lemma forall₂_and_mem {α β : Type} {R : α → β → Prop} {l : List α} {l' : List β} (h : List.Forall₂ R l l') :
    List.Forall₂ (fun a b => R a b ∧ a ∈ l ∧ b ∈ l') l l' := by
  induction h with
  | nil => exact .nil
  | cons hab _ ih =>
    refine .cons ⟨hab, List.mem_cons_self, List.mem_cons_self⟩ (ih.imp ?_)
    rintro a b ⟨hab, ha, hb⟩
    exact ⟨hab, List.mem_cons_of_mem _ ha, List.mem_cons_of_mem _ hb⟩

lemma pairs_of_rowGroups (h : makeFieldIdToIndexMap builder.schemaNameMapper file.fields = .ok fieldIdToIndex)
    (hsize : 0 < builder.batchSize) (place : PartitionLayerFile) (rowGroups : List Nat) :
    List.Forall₂ (fun batchFilter batchData => ∃ i ∈ rowGroups, PairOf builder place file i batchFilter batchData)
      (rowGroups.flatMap (rowGroupBatches builder file builder.fieldIdsForFilter))
      (rowGroups.flatMap (rowGroupBatches builder file (builder.fieldIdsForData place))) := by
  induction rowGroups with
  | nil => exact .nil
  | cons i rowGroups ih =>
    rw [List.flatMap_cons, List.flatMap_cons]
    apply forall₂_append
    · have haligned : List.Forall₂ Aligned (rowGroupBatches builder file builder.fieldIdsForFilter i)
          (rowGroupBatches builder file (builder.fieldIdsForData place) i) :=
        aligned_of_shapes (rowGroupBatches_shapes h _ i) (rowGroupBatches_shapes h _ i)
          (fun shape hshape => (fileShapes_mem hsize hshape).2.1)
      apply (forall₂_and_mem haligned).imp
      rintro batchFilter batchData ⟨hab, hfilter, hdata⟩
      exact ⟨i, List.mem_cons_self, hab, hfilter, hdata⟩
    · apply ih.imp
      rintro batchFilter batchData ⟨j, hj, hpair⟩
      exact ⟨j, List.mem_cons_of_mem _ hj, hpair⟩

/-- A pair with a selected row is in the stream, and nothing else is. -/
lemma mem_filteredPairs {rowFilter : ApplyRowFilter} {place : PartitionLayerFile}
    {R : ArrowBatchWithRowPosition → ArrowBatchWithRowPosition → Prop}
    {filterStream dataStream : List ArrowBatchWithRowPosition} (h : List.Forall₂ R filterStream dataStream)
    {batch : FilteredBatch} : batch ∈ filteredPairs rowFilter place filterStream dataStream →
      ∃ batchFilter ∈ filterStream, ∃ batchData ∈ dataStream, R batchFilter batchData ∧
        filteredPair rowFilter place batchFilter batchData = some batch := by
  induction h with
  | nil => exact fun hbatch => absurd hbatch List.not_mem_nil
  | @cons batchFilter batchData filterRest dataRest hpair _ ih =>
    unfold filteredPairs at ih ⊢
    rw [List.zipWith_cons_cons]
    cases hfirst : filteredPair rowFilter place batchFilter batchData with
    | none =>
      rw [List.reduceOption_cons_of_none]
      intro hbatch
      obtain ⟨f, hf, d, hd, hrest⟩ := ih hbatch
      exact ⟨f, List.mem_cons_of_mem _ hf, d, List.mem_cons_of_mem _ hd, hrest⟩
    | some first =>
      rw [List.reduceOption_cons_of_some]
      intro hbatch
      rcases List.mem_cons.mp hbatch with rfl | hbatch
      · exact ⟨batchFilter, List.mem_cons_self, batchData, List.mem_cons_self, hpair, hfirst⟩
      · obtain ⟨f, hf, d, hd, hrest⟩ := ih hbatch
        exact ⟨f, List.mem_cons_of_mem _ hf, d, List.mem_cons_of_mem _ hd, hrest⟩

lemma filteredPair_eq_some {rowFilter : ApplyRowFilter} {place : PartitionLayerFile}
    {batchFilter batchData : ArrowBatchWithRowPosition} {batch : FilteredBatch} :
    filteredPair rowFilter place batchFilter batchData = some batch ↔ ∃ rows, rowFilter batchFilter = .ok rows ∧
      rows ≠ [] ∧ batch = { pairedBatch place batchFilter batchData with selectionVector := rows } := by
  unfold filteredPair
  cases rowFilter batchFilter with
  | error message => simp
  | ok rows =>
    cases rows with
    | nil => simp
    | cons row rows => simp [eq_comm]

/-- The positions of the batches of a stream, in order, are some of those of the data stream. -/
lemma filteredPairs_positions {rowFilter : ApplyRowFilter} {place : PartitionLayerFile}
    (filterStream dataStream : List ArrowBatchWithRowPosition) :
    ((filteredPairs rowFilter place filterStream dataStream).flatMap batchPositions).Sublist
      ((dataStream.map shapeOf).flatMap shapePositions) := by
  induction filterStream generalizing dataStream with
  | nil => exact List.nil_sublist _
  | cons batchFilter filterRest ih =>
    cases dataStream with
    | nil => exact List.nil_sublist _
    | cons batchData dataRest =>
      have hrest := ih dataRest
      unfold filteredPairs at hrest ⊢
      rw [List.zipWith_cons_cons, List.map_cons, List.flatMap_cons]
      cases hfirst : filteredPair rowFilter place batchFilter batchData with
      | none =>
        rw [List.reduceOption_cons_of_none]
        exact hrest.trans (List.sublist_append_right _ _)
      | some first =>
        obtain ⟨rows, -, -, rfl⟩ := filteredPair_eq_some.mp hfirst
        rw [List.reduceOption_cons_of_some, List.flatMap_cons]
        exact List.Sublist.append (List.Sublist.refl _) hrest

/-- A row that the filter selects is in the stream. -/
lemma filteredPairs_covered {rowFilter : ApplyRowFilter} {place : PartitionLayerFile}
    {filterStream dataStream : List ArrowBatchWithRowPosition} (h : List.Forall₂ Aligned filterStream dataStream)
    {batchFilter : ArrowBatchWithRowPosition} (hmem : batchFilter ∈ filterStream) {rows : List Nat}
    (hrows : rowFilter batchFilter = .ok rows) (hne : rows ≠ []) :
    ∃ batch ∈ filteredPairs rowFilter place filterStream dataStream,
      (batch.rowPosition, batch.numRows) = shapeOf batchFilter := by
  induction h with
  | nil => cases hmem
  | @cons first batchData filterRest dataRest haligned _ ih =>
    unfold filteredPairs at ih ⊢
    rw [List.zipWith_cons_cons]
    rcases List.mem_cons.mp hmem with rfl | hmem
    · have hpair : filteredPair rowFilter place batchFilter batchData =
          some { pairedBatch place batchFilter batchData with selectionVector := rows } :=
        filteredPair_eq_some.mpr ⟨rows, hrows, hne, rfl⟩
      rw [hpair, List.reduceOption_cons_of_some]
      exact ⟨_, List.mem_cons_self, haligned.1.symm⟩
    · obtain ⟨batch, hbatch, hshape⟩ := ih hmem
      cases filteredPair rowFilter place first batchData with
      | none =>
        rw [List.reduceOption_cons_of_none]
        exact ⟨batch, hbatch, hshape⟩
      | some pair =>
        rw [List.reduceOption_cons_of_some]
        exact ⟨batch, List.mem_cons_of_mem _ hbatch, hshape⟩

/-- The row groups that are read: some of those in the segments, without only such in which the filter selects nothing. -/
lemma makeFilteringStream_ok {path : AnnotatedDataPath} (h : ReadableFile builder path file)
    (hids : makeFieldIdToIndexMap builder.schemaNameMapper file.fields = .ok fieldIdToIndex)
    (hfilter : FiltersFile builder file) : ∃ rowGroups : List Nat,
      builder.makeFilteringStream path = .ok {
        filterStream := rowGroups.flatMap (rowGroupBatches builder file builder.fieldIdsForFilter)
        dataStream := rowGroups.flatMap
          (rowGroupBatches builder file (builder.fieldIdsForData path.toPartitionLayerFile))
        rowFilter := builder.rowFilter
        partitionLayerFile := path.toPartitionLayerFile } ∧
      rowGroups.Pairwise (· < ·) ∧
      (∀ i ∈ rowGroups, ∀ pos, RowGroupHolds file i pos → PlannedRow file path.segments pos) ∧
      ∀ pos, PlannedRow file path.segments pos → FilterSelects builder file pos →
        ∃ i ∈ rowGroups, RowGroupHolds file i pos := by
  obtain ⟨inSegments, hrowGroups, hincreasing, hplanned⟩ := h.rowGroups
  have hmake : ∀ matching : List Nat, builder.canSkipRowGroup.elim inSegments
      (fun canSkip => inSegments.filter (fun i => !(file.rowGroups[i]?.any canSkip))) = matching →
      builder.makeFilteringStream path = .ok {
        filterStream := matching.flatMap (rowGroupBatches builder file builder.fieldIdsForFilter)
        dataStream := matching.flatMap
          (rowGroupBatches builder file (builder.fieldIdsForData path.toPartitionLayerFile))
        rowFilter := builder.rowFilter
        partitionLayerFile := path.toPartitionLayerFile } := by
    rintro matching rfl
    unfold ScanFileReaderBuilder.makeFilteringStream
    rw [h.opened, ok_bind, hrowGroups, ok_bind]
    simp only [makeFinalStream_eq hids, ok_bind]
    cases builder.canSkipRowGroup with
    | none => rfl
    | some canSkip => rfl
  cases hskip : builder.canSkipRowGroup with
  | none =>
    refine ⟨inSegments, hmake _ (by rw [hskip]; rfl), hincreasing, ?_, ?_⟩
    · intro i hi pos hholds
      exact (hplanned pos).mp ⟨i, hi, hholds⟩
    · intro pos hpos _
      exact (hplanned pos).mpr hpos
  | some canSkip =>
    refine ⟨_, hmake _ (by rw [hskip]; rfl), hincreasing.filter _, ?_, ?_⟩
    · intro i hi pos hholds
      exact (hplanned pos).mp ⟨i, (List.mem_filter.mp hi).1, hholds⟩
    · intro pos hpos hselects
      obtain ⟨i, hi, hholds⟩ := (hplanned pos).mpr hpos
      refine ⟨i, List.mem_filter.mpr ⟨hi, ?_⟩, hholds⟩
      obtain ⟨rowGroup, hrowGroup, -⟩ := id hholds
      rw [hrowGroup, Option.any_some, Bool.not_eq_true']
      by_contra hcan
      exact hfilter.skipped canSkip hskip i rowGroup hrowGroup (Bool.not_eq_false _ ▸ hcan) pos hholds hselects

/-- What the pairs of the read row groups are. -/
lemma emitsFiltered_of_rowGroups {path : AnnotatedDataPath}
    (hids : makeFieldIdToIndexMap builder.schemaNameMapper file.fields = .ok fieldIdToIndex)
    (hfilter : FiltersFile builder file) (hsize : 0 < builder.batchSize) {rowGroups : List Nat}
    (hincreasing : rowGroups.Pairwise (· < ·))
    (hplanned : ∀ i ∈ rowGroups, ∀ pos, RowGroupHolds file i pos → PlannedRow file path.segments pos)
    (hcovered : ∀ pos, PlannedRow file path.segments pos → FilterSelects builder file pos →
      ∃ i ∈ rowGroups, RowGroupHolds file i pos) :
    EmitsFiltered builder path file (fun _ _ => False) (filteredPairs builder.rowFilter path.toPartitionLayerFile
      (rowGroups.flatMap (rowGroupBatches builder file builder.fieldIdsForFilter))
      (rowGroups.flatMap (rowGroupBatches builder file (builder.fieldIdsForData path.toPartitionLayerFile)))) := by
  have hpairs := pairs_of_rowGroups hids hsize path.toPartitionLayerFile rowGroups
  have hbatches := fun batch => @mem_filteredPairs builder.rowFilter path.toPartitionLayerFile _ _ _ hpairs batch
  have hshapes : ∀ fieldIds, (rowGroups.flatMap (rowGroupBatches builder file fieldIds)).map shapeOf =
      fileShapes builder.batchSize file rowGroups := by
    intro fieldIds
    unfold fileShapes
    rw [List.map_flatMap]
    congr 1
    funext i
    rw [rowGroupBatches_shapes hids]
    simp [fileShapes]
  obtain ⟨hordered, hmem⟩ := fileShapes_positions file builder.batchSize hincreasing
  have hsublist := @filteredPairs_positions builder.rowFilter path.toPartitionLayerFile
    (rowGroups.flatMap (rowGroupBatches builder file builder.fieldIdsForFilter))
    (rowGroups.flatMap (rowGroupBatches builder file (builder.fieldIdsForData path.toPartitionLayerFile)))
  rw [hshapes] at hsublist
  refine ⟨?_, ?_, hordered.sublist hsublist, ?_, ?_, ?_, ?_⟩
  · intro batch hbatch
    obtain ⟨f, -, d, -, -, hpair⟩ := hbatches batch hbatch
    obtain ⟨rows, -, -, rfl⟩ := filteredPair_eq_some.mp hpair
    rfl
  · intro batch hbatch
    obtain ⟨f, -, d, -, ⟨i, -, hpairOf⟩, hpair⟩ := hbatches batch hbatch
    obtain ⟨rows, -, -, rfl⟩ := filteredPair_eq_some.mp hpair
    exact ⟨i, f, d, hpairOf, rfl, rfl⟩
  · intro pos hpos
    obtain ⟨i, hi, hholds⟩ := (hmem pos).mp (hsublist.subset hpos)
    exact hplanned i hi pos hholds
  · intro pos hpos hselects
    obtain ⟨i, hi, hholds⟩ := hcovered pos hpos hselects
    obtain ⟨j, batchFilter, hbatch, rows, hrows, row, hrow, rfl⟩ := id hselects
    obtain ⟨answer, hanswer, -, hinRange⟩ := hfilter.answers j batchFilter hbatch
    obtain rfl := Except.ok.inj (hrows.symm.trans hanswer)
    have hlt := hinRange row hrow
    have hinBatch : batchFilter.rowPosition + (row : Int) ∈ shapePositions (shapeOf batchFilter) := by
      rw [mem_shapePositions, shapeOf]
      dsimp only
      omega
    obtain rfl := rowGroupHolds_unique hholds (rowGroupHolds_of_mem hids hbatch hinBatch)
    have haligned := hpairs.imp (fun _ _ hpair => hpair.choose_spec.2.aligned)
    obtain ⟨batch, hemitted, hshape⟩ := @filteredPairs_covered builder.rowFilter path.toPartitionLayerFile _ _ haligned
      batchFilter (List.mem_flatMap.mpr ⟨i, hi, hbatch⟩) rows hrows (List.ne_nil_of_mem hrow)
    refine List.mem_flatMap.mpr ⟨batch, hemitted, ?_⟩
    rw [batchPositions, hshape]
    exact hinBatch
  · intro batch hbatch
    obtain ⟨f, -, d, -, ⟨i, -, hpairOf⟩, hpair⟩ := hbatches batch hbatch
    obtain ⟨rows, hrows, -, rfl⟩ := filteredPair_eq_some.mp hpair
    obtain ⟨answer, hanswer, hascending, -⟩ := hfilter.answers i f hpairOf.filter
    obtain rfl := Except.ok.inj (hrows.symm.trans hanswer)
    exact hascending
  · intro batch hbatch row
    obtain ⟨f, -, d, -, ⟨i, -, hpairOf⟩, hpair⟩ := hbatches batch hbatch
    obtain ⟨rows, hrows, -, rfl⟩ := filteredPair_eq_some.mp hpair
    obtain ⟨hposition, hnumRows⟩ := Prod.mk.inj hpairOf.aligned.1
    obtain ⟨answer, hanswer, -, hinRange⟩ := hfilter.answers i f hpairOf.filter
    obtain rfl := Except.ok.inj (hrows.symm.trans hanswer)
    have hiff := fun hlt => @filterSelects_iff _ _ _ _ hids hfilter i f hpairOf.filter rows hrows row hlt
    simp only [pairedBatch, not_false_eq_true, and_true]
    rw [← hposition, ← hnumRows]
    constructor
    · intro hrow
      exact ⟨hinRange row hrow, (hiff (hinRange row hrow)).mpr hrow⟩
    · rintro ⟨hlt, hselects⟩
      exact (hiff hlt).mp hselects

/-! ### Layers that take rows away -/

/-- The second batch is the first one without the rows that are gone. -/
structure KeepsBatch (Gone : PartitionLayerFile → ArrowBatchWithRowPosition → Nat → Prop) (batch kept : FilteredBatch) :
    Prop where
  tagged : kept.toPartitionLayerFile = batch.toPartitionLayerFile
  record : kept.withRowPosition = batch.withRowPosition
  sublist : kept.selectionVector.Sublist batch.selectionVector
  selected : ∀ row, row ∈ kept.selectionVector ↔
    row ∈ batch.selectionVector ∧ ¬Gone batch.toPartitionLayerFile batch.withRowPosition row

lemma batchPositions_record (batch : FilteredBatch) :
    batchPositions batch = shapePositions (shapeOf batch.withRowPosition) := rfl

lemma KeepsBatch.positions {Gone : PartitionLayerFile → ArrowBatchWithRowPosition → Nat → Prop}
    {batches kept : List FilteredBatch} (h : List.Forall₂ (KeepsBatch Gone) batches kept) :
    kept.flatMap batchPositions = batches.flatMap batchPositions := by
  induction h with
  | nil => rfl
  | cons hkeeps _ ih =>
    rw [List.flatMap_cons, List.flatMap_cons, ih, batchPositions_record, batchPositions_record, hkeeps.record]

lemma forall₂_mem_right {α β : Type} {R : α → β → Prop} {l : List α} {l' : List β} (h : List.Forall₂ R l l') {b : β}
    (hb : b ∈ l') : ∃ a ∈ l, R a b := by
  obtain ⟨i, hi⟩ := List.mem_iff_getElem?.mp hb
  obtain ⟨a, ha, hab⟩ := forall₂_getElem? h.flip hi
  exact ⟨a, List.mem_of_getElem? ha, hab⟩

lemma ReadOf.record {place : PartitionLayerFile} {batch kept : FilteredBatch} (h : ReadOf builder place file batch)
    (hrecord : kept.withRowPosition = batch.withRowPosition) : ReadOf builder place file kept := by
  obtain ⟨i, f, d, hpair, hshape, hcolumns⟩ := h
  have hshapes := congrArg shapeOf hrecord
  exact ⟨i, f, d, hpair, hshape.trans hshapes.symm,
    (congrArg ArrowBatchWithRowPosition.columns hrecord).trans hcolumns⟩

/-- The rows of a file after a layer that takes rows away. -/
lemma EmitsFiltered.keeps {path : AnnotatedDataPath} {Deleted : ArrowBatchWithRowPosition → Nat → Prop}
    {Gone : PartitionLayerFile → ArrowBatchWithRowPosition → Nat → Prop} {batches kept : List FilteredBatch}
    (h : EmitsFiltered builder path file Deleted batches) (hkeeps : List.Forall₂ (KeepsBatch Gone) batches kept) :
    EmitsFiltered builder path file
      (fun batch row => Deleted batch row ∨ Gone path.toPartitionLayerFile batch row) kept := by
  have hpositions := KeepsBatch.positions hkeeps
  have hof := fun batch (hbatch : batch ∈ kept) => forall₂_mem_right hkeeps hbatch
  refine ⟨?_, ?_, hpositions ▸ h.once, hpositions ▸ h.planned, hpositions ▸ h.covered, ?_, ?_⟩
  · intro batch hbatch
    obtain ⟨before, hbefore, hkept⟩ := hof batch hbatch
    rw [hkept.tagged, h.tagged before hbefore]
  · intro batch hbatch
    obtain ⟨before, hbefore, hkept⟩ := hof batch hbatch
    exact (h.read before hbefore).record hkept.record
  · intro batch hbatch
    obtain ⟨before, hbefore, hkept⟩ := hof batch hbatch
    exact (h.increasing before hbefore).sublist hkept.sublist
  · intro batch hbatch row
    obtain ⟨before, hbefore, hkept⟩ := hof batch hbatch
    have hrows : batch.numRows = before.numRows := congrArg ArrowBatchWithRowPosition.numRows hkept.record
    have hposition : batch.rowPosition = before.rowPosition :=
      congrArg ArrowBatchWithRowPosition.rowPosition hkept.record
    rw [hkept.selected, h.selected before hbefore, hkept.record, hrows, hposition, h.tagged before hbefore]
    tauto

/-- The stream of a file with its deletion vector. -/
lemma dataFileStream_keeps {stream : DataFileStream roaring} {batches : List FilteredBatch}
    (h : Emits FilteringStream.readNext stream.input batches)
    (hbatches : ∀ batch ∈ batches, BatchFits batch ∧ SelectsRows batch) :
    Emits DataFileStream.readNext stream (batches.map (withoutVector stream.dv)) := by
  have hlayer := @emits_layer FilteringStream Unit (DataFileStream roaring) FilteredBatch FilteredBatch
    FilteringStream.readNext DataFileStream.readNext (fun input _ => { stream with input := input }) (fun _ => True)
    (fun batch kept => kept = withoutVector stream.dv batch) batches ?_ ?_ stream.input h () trivial
  · obtain ⟨kept, hkept, hemits⟩ := hlayer
    rw [← forall₂_eq_map hkept]
    exact hemits
  · intro input _ hended
    have hread : input.readNext = (.ended, input.readNext.2) := Prod.ext hended rfl
    unfold DataFileStream.readNext
    cases stream.dv with
    | none => exact hended
    | some dv =>
      simp only [DeletionVectorApplier.readNext]
      rw [hread]
  · intro input _ batch _ hmem hbatch
    obtain ⟨hfits, hselects⟩ := hbatches batch hmem
    have hread : input.readNext = (.batch batch, input.readNext.2) := Prod.ext hbatch rfl
    refine ⟨withoutVector stream.dv batch, (), ?_, trivial, rfl⟩
    unfold DataFileStream.readNext
    cases stream.dv with
    | none => simp only [hbatch, withoutVector, Option.elim_none]
    | some dv =>
      simp only [DeletionVectorApplier.readNext]
      rw [hread]
      simp only [applyDeletionVector_eq hfits hselects, withoutVector, Option.elim_some]

/-- The vector of the file takes its rows away. -/
lemma keepsBatch_withoutVector {path : AnnotatedDataPath} {batch : FilteredBatch} (hposition : 0 ≤ batch.rowPosition) :
    KeepsBatch (fun _ record row => VectorHolds builder path (record.rowPosition + row)) batch
      (withoutVector (path.dvInfo.map builder.openDeletionVector) batch) := by
  obtain ⟨htagged, hpos, hrows, hsublist⟩ := withoutVector_same (path.dvInfo.map builder.openDeletionVector) batch
  have hcolumns : (withoutVector (path.dvInfo.map builder.openDeletionVector) batch).columns = batch.columns := by
    cases path.dvInfo <;> rfl
  refine ⟨htagged, ?_, hsublist, ?_⟩
  · unfold FilteredBatch.withRowPosition
    rw [hcolumns, hrows, hpos]
  · intro row
    unfold VectorHolds withoutVector
    cases path.dvInfo with
    | none => simp
    | some dvInfo =>
      have hpos : ∀ x : Nat, batch.rowPosition + row = x ↔ batch.rowPosition.toNat + row = x := by
        intro x
        omega
      simp [withoutPositions, FilteredBatch.withRowPosition, hpos]

/-- `Build` with a filter, and a cache that does not serve another vector. -/
lemma ReadableFile.buildFiltered {path : AnnotatedDataPath} (h : ReadableFile builder path file)
    (hfilter : FiltersFile builder file) (hsize : 0 < builder.batchSize) (hmax : builder.batchSize ≤ 2 ^ 31)
    {cache : DvCache (DeletionVector roaring)}
    (hcache : path.path = cache.lastDataFilePath → cache.lastDv = path.dvInfo.map builder.openDeletionVector) :
    ∃ stream batches, builder.build cache path = (.ok stream, {
        lastDataFilePath := path.path
        lastDv := path.dvInfo.map builder.openDeletionVector }) ∧
      Emits DataFileStream.readNext stream batches ∧
      EmitsFiltered builder path file (fun batch row => VectorHolds builder path (batch.rowPosition + row)) batches := by
  obtain ⟨fieldIdToIndex, hids⟩ := h.fieldIds
  obtain ⟨rowGroups, hinput, hincreasing, hplanned, hcovered⟩ := makeFilteringStream_ok h hids hfilter
  have hemitted := emitsFiltered_of_rowGroups hids hfilter hsize hincreasing hplanned hcovered
  have hpairs := pairs_of_rowGroups hids hsize path.toPartitionLayerFile rowGroups
  have hanswers : ∀ batch ∈ rowGroups.flatMap (rowGroupBatches builder file builder.fieldIdsForFilter),
      ∃ rows, builder.rowFilter batch = .ok rows := by
    intro batch hbatch
    obtain ⟨i, -, hbatch⟩ := List.mem_flatMap.mp hbatch
    obtain ⟨rows, hrows, -⟩ := hfilter.answers i batch hbatch
    exact ⟨rows, hrows⟩
  have haligned := hpairs.imp (fun _ _ hpair => hpair.choose_spec.2.aligned)
  have hemits := @filteringStream_emits builder.rowFilter path.toPartitionLayerFile _ _ haligned hanswers []
    (fun batch hbatch => absurd hbatch List.not_mem_nil)
  generalize hpairsOf : filteredPairs builder.rowFilter path.toPartitionLayerFile _ _ = pairs at hemitted hemits
  have hshape : ∀ batch ∈ pairs, 0 ≤ batch.rowPosition ∧ 0 < batch.numRows ∧ batch.numRows ≤ builder.batchSize ∧
      batch.rowPosition + batch.numRows ≤ (file.currentRow file.rowGroups.length : Nat) := by
    intro batch hbatch
    obtain ⟨i, f, d, hpair, hshape, -⟩ := hemitted.read batch hbatch
    have hmem := List.mem_map_of_mem (f := shapeOf) hpair.data
    rw [rowGroupBatches_shapes hids, hshape] at hmem
    obtain ⟨hposition, hpos, hrows⟩ := fileShapes_mem hsize hmem
    exact ⟨hposition, hpos, hrows, fileShapes_end hsize (List.pairwise_singleton _ i) hmem⟩
  have hselects : ∀ batch ∈ pairs, BatchFits batch ∧ SelectsRows batch := by
    intro batch hbatch
    obtain ⟨hposition, hpos, hrows, hend⟩ := hshape batch hbatch
    have htotal := h.rows
    refine ⟨⟨by omega, hposition, by omega⟩, hemitted.increasing batch hbatch, ?_, ?_⟩
    · rw [← hpairsOf] at hbatch
      obtain ⟨f, -, d, -, -, hpair⟩ := mem_filteredPairs hpairs hbatch
      obtain ⟨rows, -, hne, rfl⟩ := filteredPair_eq_some.mp hpair
      exact hne
    · intro row hrow
      exact ((hemitted.selected batch hbatch row).mp hrow).1
  refine ⟨⟨⟨_, _, builder.rowFilter, path.toPartitionLayerFile, 0⟩, path.dvInfo.map builder.openDeletionVector⟩,
    pairs.map (withoutVector (path.dvInfo.map builder.openDeletionVector)), ?_, dataFileStream_keeps hemits hselects, ?_⟩
  · unfold ScanFileReaderBuilder.build
    rw [hinput]
    simp only [buildDv_own hcache]
    rfl
  · have hkeeps : List.Forall₂ (KeepsBatch (fun _ record row => VectorHolds builder path (record.rowPosition + row))) pairs
        (pairs.map (withoutVector (path.dvInfo.map builder.openDeletionVector))) := by
      rw [List.forall₂_map_right_iff, List.forall₂_same]
      intro batch hbatch
      exact keepsBatch_withoutVector (hshape batch hbatch).1
    have hwithout := hemitted.keeps hkeeps
    simpa only [false_or] using hwithout

end

end IcebergCxx.Proofs

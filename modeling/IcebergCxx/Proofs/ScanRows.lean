import IcebergCxx.Lib.NestedMap
import IcebergCxx.Proofs.EqualityRows
import IcebergCxx.Proofs.FilteredRows

/-!
# Rows of a scan

A scan with all its layers: the filter and the row groups it leaves out, the deletion vectors, the equality deletes and
the positional deletes. Each layer takes away the rows that are not to be there, whatever batches came before.
-/

namespace IcebergCxx.Proofs

open Lib EqualityDeleteApplier

variable {roaring : RoaringLibrary} {Q : MinQueue PositionalDeleteStream.Reader.getPosition}
  {ctx : EqualityDeleteContext} {builder : ScanFileReaderBuilder roaring} {deletes : PositionalDeletes}
  {cb : Bytes → DeleteFile} {keyTypes : Int → KeyType}

/-! ### The deletes over one batch -/

/-- Rows that are gone after one layer, and those that are gone after the next. -/
lemma KeepsBatch.trans {Gone Gone' : PartitionLayerFile → ArrowBatchWithRowPosition → Nat → Prop}
    {batch kept out : FilteredBatch} (h : KeepsBatch Gone batch kept) (h' : KeepsBatch Gone' kept out) :
    KeepsBatch (fun place record row => Gone place record row ∨ Gone' place record row) batch out where
  tagged := h'.tagged.trans h.tagged
  record := h'.record.trans h.record
  sublist := h'.sublist.trans h.sublist
  selected row := by
    rw [h'.selected, h.selected, h.tagged, h.record]
    tauto

/-- The rows that the equality deletes of the partition delete. -/
def goneByEquality (ctx : EqualityDeleteContext) (reader : FileReaderBuilder) (place : PartitionLayerFile)
    (record : ArrowBatchWithRowPosition) (row : Nat) : Prop :=
  EqualityDeletesRow ctx reader place record.columns row

/-- The rows that the positional deletes of the partition delete. -/
def goneByPosition (deletes : PositionalDeletes) (cb : Bytes → DeleteFile) (place : PartitionLayerFile)
    (record : ArrowBatchWithRowPosition) (row : Nat) : Prop :=
  DeletesRow deletes cb place (record.rowPosition + row)

lemma deletesOf_empty {reader : FileReaderBuilder} (h : reader.equalityDeletes.partlayerToDeletes.entries.isEmpty = true)
    (partition : Int) : reader.equalityDeletes.deletesOf partition = [] := by
  unfold EqualityDeletes.deletesOf
  cases hfind : reader.equalityDeletes.partlayerToDeletes.find? partition with
  | none => rfl
  | some layers =>
    have hentry := (OrdMap.mem_entries _ _ _).mpr hfind
    rw [List.isEmpty_iff.mp h] at hentry
    cases hentry

/-- The batch has the key columns, and the deletes of its partition can be loaded. -/
structure KeyedBatch (ctx : EqualityDeleteContext) (reader : FileReaderBuilder) (keyTypes : Int → KeyType)
    (batch : FilteredBatch) : Prop where
  sound : SoundEqualityDeletes ctx reader keyTypes batch.partition
  keys : ReadsKeys ctx reader keyTypes batch.toPartitionLayerFile batch.columns batch.numRows

/-- A call without failures, with the deletes of another partition or of this one. -/
lemma tryReadNext_exact {reader : FileReaderBuilder} {applier : EqualityDeleteApplier}
    (hholds : HoldsAll ctx reader applier) {batch : IcebergBatch} {rows : Nat}
    (hsound : SoundEqualityDeletes ctx reader keyTypes batch.partition)
    (hkeys : ReadsKeys ctx reader keyTypes batch.toPartitionLayerFile batch.columns rows)
    (hrows : ∀ row ∈ batch.selectionVector, row < rows) :
    ∃ out, (applier.tryReadNext ctx reader { batch := batch, faults := fun _ => none }).1 = .ok out ∧
      HoldsAll ctx reader (applier.tryReadNext ctx reader { batch := batch, faults := fun _ => none }).2 ∧
      out.toPartitionLayerFile = batch.toPartitionLayerFile ∧ out.rowPosition = batch.rowPosition ∧
      out.columns = batch.columns ∧ out.selectionVector.Sublist batch.selectionVector ∧
      ∀ row, row ∈ out.selectionVector ↔ row ∈ batch.selectionVector ∧
        ¬EqualityDeletesRow ctx reader batch.toPartitionLayerFile batch.columns row := by
  obtain ⟨handler, hset⟩ := hsound.loads
  obtain ⟨applied, out, happly, hout⟩ := applyDeletes_exact hsound hkeys hrows hset
  have hall : AllApplied ctx reader batch out := ⟨handler, applied, hset, happly⟩
  by_cases hstate : applier.currentState = some batch.partition
  · obtain ⟨happlies, hnext⟩ :=
      @tryReadNext_reused ctx reader applier { batch := batch, faults := fun _ => none } hholds hstate
    exact ⟨out, happlies.2 rfl out hall, hnext, hout⟩
  · obtain ⟨happlies, hnext⟩ :=
      @tryReadNext_loading ctx reader applier { batch := batch, faults := fun _ => none } hstate
    refine ⟨out, happlies.2 rfl out hall, hnext.resolve_right ?_, hout⟩
    rintro ⟨-, hfails⟩
    rw [setDeletes_eq] at hset
    exact hfails (congrArg Prod.fst (trySetDeletes_none hset))

/-- The equality deletes over one batch take exactly their rows away. -/
lemma applyEqualityDeletes_keeps {applier : EqualityDeleteApplier}
    (hholds : HoldsAll ctx builder.toFileReaderBuilder applier) {batch : FilteredBatch}
    (hkeyed : KeyedBatch ctx builder.toFileReaderBuilder keyTypes batch) (hascending : Ascending batch) :
    ∃ kept applier', ProjectedScan.applyEqualityDeletes ctx builder (fun _ => none) applier batch =
        (.batch kept, applier') ∧ HoldsAll ctx builder.toFileReaderBuilder applier' ∧
      KeepsBatch (goneByEquality ctx builder.toFileReaderBuilder) batch kept := by
  unfold ProjectedScan.applyEqualityDeletes
  by_cases hempty : builder.equalityDeletes.partlayerToDeletes.entries.isEmpty = true
  · rw [if_pos hempty]
    refine ⟨batch, applier, rfl, hholds, rfl, rfl, .refl _, ?_⟩
    intro row
    have hnone : ¬goneByEquality ctx builder.toFileReaderBuilder batch.toPartitionLayerFile batch.withRowPosition row := by
      rintro ⟨del, hdel, -⟩
      rw [@deletesOf_empty builder.toFileReaderBuilder hempty] at hdel
      cases hdel
    simp [hnone]
  · rw [if_neg hempty]
    obtain ⟨out, hout, hnext, htagged, hposition, hcolumns, hsublist, hselected⟩ :=
      tryReadNext_exact hholds hkeyed.sound hkeyed.keys hascending.2
    have hread : applier.tryReadNext ctx builder.toFileReaderBuilder
        { batch := batch.toIcebergBatch, faults := fun _ => none } =
          (.ok out, (applier.tryReadNext ctx builder.toFileReaderBuilder
            { batch := batch.toIcebergBatch, faults := fun _ => none }).2) := Prod.ext hout rfl
    rw [hread]
    refine ⟨{ toIcebergBatch := out, numRows := batch.numRows }, _, rfl, hnext, htagged, ?_, hsublist, hselected⟩
    unfold FilteredBatch.withRowPosition
    rw [hcolumns, hposition]

lemma applyPositionalDeletes_keepsBatch (hfiles : SoundDeleteFiles deletes cb) {applier : PositionalDeleteApplier}
    (h : Continues deletes cb applier) {batch : FilteredBatch} (hbatch : Ascending batch) :
    ∃ kept applier', IcebergScan.applyPositionalDeletes Q deletes cb applier batch = (.batch kept, applier') ∧
      Continues deletes cb applier' ∧ KeepsBatch (goneByPosition deletes cb) batch kept := by
  obtain ⟨kept, applier', happlied, hcontinues, hkeeps⟩ :=
    @applyPositionalDeletes_keeps Q deletes cb hfiles applier h batch hbatch
  have hsame := applyPositionalDeletes_same (congrArg Prod.fst happlied)
  refine ⟨kept, applier', happlied, hcontinues, hkeeps.tagged, ?_, hkeeps.sublist, hkeeps.selected⟩
  unfold FilteredBatch.withRowPosition
  rw [hsame.2, hkeeps.rows, hkeeps.position]

/-! ### The scan over the scanner -/

/-- The rows that all deletes of the partition delete. -/
def goneByDeletes (ctx : EqualityDeleteContext) (reader : FileReaderBuilder) (deletes : PositionalDeletes)
    (cb : Bytes → DeleteFile) (place : PartitionLayerFile) (record : ArrowBatchWithRowPosition) (row : Nat) : Prop :=
  goneByEquality ctx reader place record row ∨ goneByPosition deletes cb place record row

/-- The scan gives the batches of the scanner without the deleted rows. -/
lemma projectedScan_emits (hfiles : SoundDeleteFiles deletes cb) {input : DataScanner roaring}
    {batches : List FilteredBatch} (hascending : ∀ batch ∈ batches, Ascending batch)
    (hkeyed : ∀ batch ∈ batches, KeyedBatch ctx builder.toFileReaderBuilder keyTypes batch)
    (hinput : Emits (DataScanner.readNext builder) input batches) :
    ∃ kept, List.Forall₂ (KeepsBatch (goneByDeletes ctx builder.toFileReaderBuilder deletes cb)) batches kept ∧
      Emits (ProjectedScan.readNext Q ctx builder deletes cb (fun _ => none)) { input := input } kept := by
  have hlayer := @emits_layer (DataScanner roaring) (EqualityDeleteApplier × PositionalDeleteApplier)
    (ProjectedScan roaring) FilteredBatch FilteredBatch (DataScanner.readNext builder)
    (ProjectedScan.readNext Q ctx builder deletes cb (fun _ => none)) (fun input appliers => ⟨input, appliers.1, appliers.2⟩)
    (fun appliers => HoldsAll ctx builder.toFileReaderBuilder appliers.1 ∧ Continues deletes cb appliers.2)
    (KeepsBatch (goneByDeletes ctx builder.toFileReaderBuilder deletes cb)) batches ?_ ?_ input hinput ({}, {}) ?_
  · exact hlayer
  · intro input appliers hended
    have hread : input.readNext builder = (.ended, (input.readNext builder).2) := Prod.ext hended rfl
    rw [projectedScan_readNext, ProjectedScan.readInput]
    dsimp only
    rw [hread]
  · intro input appliers batch hinv hmem hbatch
    have hread : input.readNext builder = (.batch batch, (input.readNext builder).2) := Prod.ext hbatch rfl
    obtain ⟨middle, applier, hequality, hholds, hmiddle⟩ :=
      applyEqualityDeletes_keeps hinv.1 (hkeyed batch hmem) (hascending batch hmem)
    have hrows : middle.numRows = batch.numRows := congrArg ArrowBatchWithRowPosition.numRows hmiddle.record
    have hmiddleAscending : Ascending middle := by
      refine ⟨(hascending batch hmem).1.sublist hmiddle.sublist, ?_⟩
      intro row hrow
      rw [hrows]
      exact (hascending batch hmem).2 row (hmiddle.sublist.subset hrow)
    obtain ⟨kept, applier', hpositional, hcontinues, hkept⟩ :=
      @applyPositionalDeletes_keepsBatch Q deletes cb hfiles appliers.2 hinv.2 middle hmiddleAscending
    refine ⟨kept, (applier, applier'), ?_, ⟨hholds, hcontinues⟩, hmiddle.trans hkept⟩
    rw [projectedScan_readNext, ProjectedScan.readInput]
    dsimp only
    rw [hread]
    simp only [hequality, hpositional]
  · refine ⟨?_, continues_of_none rfl⟩
    intro partition hpartition
    cases hpartition

/-! ### The files of a plan -/

/-- The batches of an entry of the plan. -/
def EmitsEntry (builder : ScanFileReaderBuilder roaring) (path : AnnotatedDataPath)
    (Deleted : ArrowBatchWithRowPosition → Nat → Prop) (batches : List FilteredBatch) : Prop :=
  ∃ file, builder.openParquet path.path = .ok file ∧ EmitsFiltered builder path file Deleted batches

/-- What the code needs of a data file: that it can be read, that the filter is sound for it, and that its rows have the
key columns of the equality deletes. -/
structure SoundDataFile (ctx : EqualityDeleteContext) (builder : ScanFileReaderBuilder roaring)
    (keyTypes : Int → KeyType) (path : AnnotatedDataPath) (file : ParquetFile) : Prop where
  readable : ReadableFile builder path file
  filters : FiltersFile builder file
  keys : ∀ i batchFilter batchData, PairOf builder path.toPartitionLayerFile file i batchFilter batchData →
    ReadsKeys ctx builder.toFileReaderBuilder keyTypes path.toPartitionLayerFile
      (batchData.columns ++ batchFilter.columns) batchData.numRows

/-- Every file is built with its own vector, and gives the rows that the filter selects. -/
lemma buildsFiltered {paths : List AnnotatedDataPath} (hsize : 0 < builder.batchSize)
    (hmax : builder.batchSize ≤ 2 ^ 31) (hfiles : ∀ path ∈ paths, ∃ file, SoundDataFile ctx builder keyTypes path file)
    {cache : DvCache (DeletionVector roaring)}
    (hfirst : ∀ path ∈ paths.head?, path.path = cache.lastDataFilePath →
      cache.lastDv = path.dvInfo.map builder.openDeletionVector)
    (hneighbours : paths.IsChain (fun a b => a.path = b.path →
      a.dvInfo.map builder.openDeletionVector = b.dvInfo.map builder.openDeletionVector)) :
    ∃ emitted, BuildsTo builder cache paths emitted ∧
      List.Forall₂ (fun path batches =>
        EmitsEntry builder path (fun record row => VectorHolds builder path (record.rowPosition + row)) batches ∧
        ∀ batch ∈ batches, ReadsKeys ctx builder.toFileReaderBuilder keyTypes batch.toPartitionLayerFile batch.columns
          batch.numRows) paths emitted := by
  induction paths generalizing cache with
  | nil => exact ⟨[], rfl, .nil⟩
  | cons path paths ih =>
    obtain ⟨file, hfile⟩ := hfiles path List.mem_cons_self
    obtain ⟨hnext, hrest⟩ := List.isChain_cons.mp hneighbours
    obtain ⟨stream, batches, hbuild, hstream, hrows⟩ :=
      hfile.readable.buildFiltered hfile.filters hsize hmax (hfirst path rfl)
    have hcache : ∀ next ∈ paths.head?,
        next.path = (DvCache.mk path.path (path.dvInfo.map builder.openDeletionVector)).lastDataFilePath →
          (DvCache.mk path.path (path.dvInfo.map builder.openDeletionVector)).lastDv =
            next.dvInfo.map builder.openDeletionVector :=
      fun next hmem hpath => hnext next hmem hpath.symm
    have hkeys : ∀ batch ∈ batches, ReadsKeys ctx builder.toFileReaderBuilder keyTypes batch.toPartitionLayerFile
        batch.columns batch.numRows := by
      intro batch hbatch
      obtain ⟨i, batchFilter, batchData, hpair, hshape, hcolumns⟩ := hrows.read batch hbatch
      have hnumRows : batchData.numRows = batch.numRows := congrArg Prod.snd hshape
      rw [hrows.tagged batch hbatch, hcolumns, ← hnumRows]
      exact hfile.keys i batchFilter batchData hpair
    obtain ⟨emitted, hemitted, hall⟩ :=
      ih (fun path hpath => hfiles path (List.mem_cons_of_mem _ hpath)) hcache hrest
    exact ⟨batches :: emitted, ⟨stream, _, batches, emitted, hbuild, hstream, rfl, hemitted⟩,
      .cons ⟨⟨file, hfile.readable.opened, hrows⟩, hkeys⟩ hall⟩

/-- The rows of the entries after a layer that takes rows away. -/
lemma forall₂_keepsBatch {Deleted : AnnotatedDataPath → ArrowBatchWithRowPosition → Nat → Prop}
    {Gone : PartitionLayerFile → ArrowBatchWithRowPosition → Nat → Prop} {paths : List AnnotatedDataPath}
    {built emitted : List (List FilteredBatch)}
    (h : List.Forall₂ (fun path => EmitsEntry builder path (Deleted path)) paths built)
    (hkeeps : List.Forall₂ (List.Forall₂ (KeepsBatch Gone)) built emitted) :
    List.Forall₂ (fun path => EmitsEntry builder path (fun record row =>
      Deleted path record row ∨ Gone path.toPartitionLayerFile record row)) paths emitted := by
  induction h generalizing emitted with
  | nil =>
    cases hkeeps
    exact .nil
  | cons hrows _ ih =>
    obtain ⟨file, hopened, hrows⟩ := hrows
    cases hkeeps with
    | cons hkept hrest => exact .cons ⟨file, hopened, hrows.keeps hkept⟩ (ih hrest)

lemma EmitsEntry.congr {path : AnnotatedDataPath} {Deleted Deleted' : ArrowBatchWithRowPosition → Nat → Prop}
    {batches : List FilteredBatch} (h : EmitsEntry builder path Deleted batches)
    (hsame : ∀ record row, Deleted record row ↔ Deleted' record row) : EmitsEntry builder path Deleted' batches := by
  obtain rfl : Deleted = Deleted' := by
    funext record row
    exact propext (hsame record row)
  exact h

/-! ### The deletes of a plan -/

/-- The layers of a plan with their equality deletes. -/
def planEqualityLayers (plan : ScanMetadata) : List ((Int × Int) × List EqualityDeleteInfo) :=
  plan.partitions.zipIdx.flatMap (fun (partition, partitionId) =>
    partition.zipIdx.map (fun (layer, layerId) => (((partitionId : Int), (layerId : Int)), layer.equalityDeleteEntries)))

lemma equalityDeletesOf_eq (plan : ScanMetadata) :
    (equalityDeletesOf plan).partlayerToDeletes = (planEqualityLayers plan).foldl OrdMap.insertAt ∅ := by
  unfold equalityDeletesOf planEqualityLayers
  rw [List.foldl_flatMap]
  simp only [List.foldl_map]
  rfl

lemma mem_planEqualityLayers {plan : ScanMetadata} {key : Int × Int} {infos : List EqualityDeleteInfo} :
    (key, infos) ∈ planEqualityLayers plan ↔ ∃ (partitionId layerId : Nat) (partition : Partition) (layer : Layer),
      plan.partitions[partitionId]? = some partition ∧ partition[layerId]? = some layer ∧
        key = (↑partitionId, ↑layerId) ∧ infos = layer.equalityDeleteEntries := by
  unfold planEqualityLayers
  simp only [List.mem_flatMap, List.mem_map, Prod.exists, List.mk_mem_zipIdx_iff_getElem?, Prod.mk.injEq]
  constructor
  · rintro ⟨partition, partitionId, hpartition, layer, layerId, hlayer, rfl, rfl⟩
    exact ⟨partitionId, layerId, partition, layer, hpartition, hlayer, rfl, rfl⟩
  · rintro ⟨partitionId, layerId, partition, layer, hpartition, hlayer, rfl, rfl⟩
    exact ⟨partition, partitionId, hpartition, layer, layerId, hlayer, rfl, rfl⟩

lemma planEqualityLayers_functional {plan : ScanMetadata} (key : Int × Int) (infos infos' : List EqualityDeleteInfo)
    (h : (key, infos) ∈ planEqualityLayers plan) (h' : (key, infos') ∈ planEqualityLayers plan) : infos = infos' := by
  obtain ⟨i, j, p, l, hp, hl, rfl, rfl⟩ := mem_planEqualityLayers.mp h
  obtain ⟨i', j', p', l', hp', hl', hkey, rfl⟩ := mem_planEqualityLayers.mp h'
  obtain ⟨rfl, rfl⟩ : i = i' ∧ j = j' := by simpa using hkey
  cases hp.symm.trans hp'
  cases hl.symm.trans hl'
  rfl

/-- The deletes that are collected for a partition are those of its layers. -/
lemma mem_equalityDeletesOf {plan : ScanMetadata} {partition : Int} {del : Int × EqualityDeleteInfo} :
    del ∈ (equalityDeletesOf plan).deletesOf partition ↔
      ∃ infos, ((partition, del.1), infos) ∈ planEqualityLayers plan ∧ del.2 ∈ infos := by
  have hfind := fun infos =>
    OrdMap.findAt_foldl_insertAt (@planEqualityLayers_functional plan) (partition, del.1) infos
  rw [← equalityDeletesOf_eq] at hfind
  simp only [← hfind]
  unfold EqualityDeletes.deletesOf OrdMap.findAt
  cases (equalityDeletesOf plan).partlayerToDeletes.find? partition with
  | none => simp
  | some layers =>
    simp only [Option.bind_some, List.mem_flatMap, List.mem_map, Prod.exists]
    constructor
    · rintro ⟨layerId, infos, hentry, info, hinfo, rfl⟩
      exact ⟨infos, (OrdMap.mem_entries _ _ _).mp hentry, hinfo⟩
    · rintro ⟨infos, hinfos, hdel⟩
      exact ⟨del.1, infos, (OrdMap.mem_entries _ _ _).mpr hinfos, del.2, hdel, rfl⟩

/-- An equality delete file of the partition in the plan, in a layer from the file's on, has a row that equals the row. -/
def PlanEqualityDeletes (ctx : EqualityDeleteContext) (mapper : FieldIdMapper) (plan : ScanMetadata)
    (file : PartitionLayerFile) (columns : List (Bytes × KeyArray)) (row : Nat) : Prop :=
  ∃ (partitionId layerId : Nat) (partition : Partition) (layer : Layer),
    plan.partitions[partitionId]? = some partition ∧ partition[layerId]? = some layer ∧
      file.partition = partitionId ∧ file.layer ≤ layerId ∧
      ∃ info ∈ layer.equalityDeleteEntries, FileHasRow ctx info (keyColumns mapper columns (sortUnique info.fieldIds)) row

lemma equalityDeletesRow_iff {reader : FileReaderBuilder} {plan : ScanMetadata}
    (h : reader.equalityDeletes = equalityDeletesOf plan) {file : PartitionLayerFile} {columns : List (Bytes × KeyArray)}
    {row : Nat} : EqualityDeletesRow ctx reader file columns row ↔
      PlanEqualityDeletes ctx reader.mapper plan file columns row := by
  unfold EqualityDeletesRow PlanEqualityDeletes
  simp only [h, mem_equalityDeletesOf, mem_planEqualityLayers, Prod.mk.injEq]
  constructor
  · rintro ⟨del, ⟨_, ⟨i, j, p, l, hp, hl, ⟨hpartition, hlayer⟩, rfl⟩, hdel⟩, hle, hrow⟩
    exact ⟨i, j, p, l, hp, hl, hpartition, hlayer ▸ hle, del.2, hdel, hrow⟩
  · rintro ⟨i, j, p, l, hp, hl, hpartition, hle, info, hinfo, hrow⟩
    exact ⟨(j, info), ⟨_, ⟨i, j, p, l, hp, hl, ⟨hpartition, rfl⟩, rfl⟩, hinfo⟩, hle, hrow⟩

/-- The vector of the file, an equality delete or a positional delete of the plan deletes the row. -/
def RowDeleted (ctx : EqualityDeleteContext) (builder : ScanFileReaderBuilder roaring) (cb : Bytes → DeleteFile)
    (plan : ScanMetadata) (path : AnnotatedDataPath) (record : ArrowBatchWithRowPosition) (row : Nat) : Prop :=
  VectorHolds builder path (record.rowPosition + row) ∨
    PlanEqualityDeletes ctx builder.mapper plan path.toPartitionLayerFile record.columns row ∨
    PlanDeletes plan cb path.toPartitionLayerFile (record.rowPosition + row)

/-- What the code needs of a scan of a plan: batches that fit `int32_t`, sound data files, neighbours with the same
vector where they have the same path, the equality deletes of the plan, and sound delete files. -/
structure SoundScan (ctx : EqualityDeleteContext) (builder : ScanFileReaderBuilder roaring) (cb : Bytes → DeleteFile)
    (keyTypes : Int → KeyType) (plan : ScanMetadata) (paths : List AnnotatedDataPath) : Prop where
  batchSize : 0 < builder.batchSize ∧ builder.batchSize ≤ 2 ^ 31
  files : ∀ path ∈ paths, ∃ file, SoundDataFile ctx builder keyTypes path file
  vectors : SameVectors builder paths
  collected : builder.equalityDeletes = equalityDeletesOf plan
  equalityDeletes : ∀ path ∈ paths, SoundEqualityDeletes ctx builder.toFileReaderBuilder keyTypes path.partition
  positionalDeletes : SoundDeleteFiles (positionalDeletesOf plan) cb

/-- What a scan of a plan gives, file by file. -/
lemma SoundScan.emits {sort : DataEntrySort} {plan : ScanMetadata}
    (h : SoundScan ctx builder cb keyTypes plan (initializeAllEntries sort plan)) :
    ∃ emitted, List.Forall₂ (fun path => EmitsEntry builder path (RowDeleted ctx builder cb plan path))
        (initializeAllEntries sort plan) emitted ∧
      Emits (ProjectedScan.readNext Q ctx builder (positionalDeletesOf plan) cb (fun _ => none))
        { input := { metaStream := initializeAllEntries sort plan } } emitted.flatten := by
  have hfirst : ∀ path ∈ (initializeAllEntries sort plan).head?,
      path.path = ({} : DvCache (DeletionVector roaring)).lastDataFilePath →
        ({} : DvCache (DeletionVector roaring)).lastDv = path.dvInfo.map builder.openDeletionVector := by
    intro path hpath hempty
    rw [h.vectors.first path hpath hempty]
    rfl
  obtain ⟨built, hbuilds, hrows⟩ :=
    buildsFiltered h.batchSize.1 h.batchSize.2 h.files hfirst h.vectors.neighbours
  have hscanner : Emits (DataScanner.readNext builder) { metaStream := initializeAllEntries sort plan } built.flatten :=
    scanner_emits hbuilds (fun stream hstream => by cases hstream)
  have hof : ∀ batch ∈ built.flatten, Ascending batch ∧
      KeyedBatch ctx builder.toFileReaderBuilder keyTypes batch := by
    intro batch hbatch
    obtain ⟨batches, hbatches, hbatch⟩ := List.mem_flatten.mp hbatch
    obtain ⟨path, hpath, ⟨file, -, hemitted⟩, hkeys⟩ := forall₂_mem_right hrows hbatches
    refine ⟨⟨hemitted.increasing batch hbatch, ?_⟩, ?_, hkeys batch hbatch⟩
    · intro row hrow
      exact ((hemitted.selected batch hbatch row).mp hrow).1
    · have hpartition : batch.partition = path.partition :=
        congrArg PartitionLayerFile.partition (hemitted.tagged batch hbatch)
      rw [hpartition]
      exact h.equalityDeletes path hpath
  obtain ⟨kept, hkept, hemits⟩ := @projectedScan_emits roaring Q ctx builder (positionalDeletesOf plan) cb keyTypes
    h.positionalDeletes _ _ (fun batch hbatch => (hof batch hbatch).1) (fun batch hbatch => (hof batch hbatch).2) hscanner
  obtain ⟨emitted, rfl, hemitted⟩ := forall₂_flatten_left hkept
  refine ⟨emitted, ?_, hemits⟩
  apply (forall₂_keepsBatch (hrows.imp (fun _ _ hpath => hpath.1)) hemitted).imp
  intro path batches hpath
  apply hpath.congr
  intro record row
  unfold RowDeleted goneByDeletes goneByEquality goneByPosition
  rw [equalityDeletesRow_iff h.collected, deletesRow_iff]

/-- Two row groups with the column `b`. -/
def valuesFile : ParquetFile where
  fields := [.primitive (bytes "b") 2]
  rowGroups := [
    ⟨⟨4, 0⟩, 2, fun columns _ _ => columns.map (fun _ => (bytes "b", int16Column [(false, 5), (false, 6)]))⟩,
    ⟨⟨100, 0⟩, 2, fun columns _ _ => columns.map (fun _ => (bytes "b", int16Column [(false, 8), (false, 9)]))⟩]

/-- The rows of `b` below 7. -/
def belowSeven : ApplyRowFilter := fun batch =>
  .ok ((List.range batch.numRows).filter (fun row =>
    batch.columns.all (fun column => decide (ofLeBytes (column.2.getView row) < 7))))

/-- A data file, and deletes in the next layer. -/
def valuesPlan : ScanMetadata where
  schema := ⟨0, []⟩
  partitions := [[{ dataEntries := [{ path := bytes "a", parts := [⟨4, 0⟩] }] },
    { equalityDeleteEntries := [⟨bytes "e", [2]⟩], positionalDeleteEntries := [⟨bytes "d"⟩] }]]

/-- The deleted value is 5. -/
def valuesContext : EqualityDeleteContext where
  sortBy := insertionSortBy
  config := ⟨1000, false⟩
  openParquet _ := .ok { columns := [(2, .int16)], batches := [(1, [int16Column [(false, 5)]])] }

/-- The filter selects nothing in the second row group, which is left out. -/
def valuesBuilder : ScanFileReaderBuilder listRoaring where
  fieldIdsToRetrieve := [2]
  rowFilterFieldIds := [2]
  equalityDeletes := equalityDeletesOf valuesPlan
  mapper := projectFirst.mapper
  rowFilter := belowSeven
  canSkipRowGroup := some (fun rowGroup => rowGroup.metadata.fileOffset = 100)
  schemaNameMapper := none
  defaultValueMap := ∅
  batchSize := 2
  openParquet _ := .ok valuesFile
  openDeletionVector _ := vectorOfZero

def valuesPath : AnnotatedDataPath := annotatedDataPath 0 0 { path := bytes "a", parts := [⟨4, 0⟩] }

/-- The batch of a row group. -/
def valuesBatch (position : Int) (columns : List (Bytes × KeyArray)) : ArrowBatchWithRowPosition := ⟨columns, 2, position⟩

lemma valuesFile_filterBatches (i : Nat) : rowGroupBatches valuesBuilder valuesFile valuesBuilder.fieldIdsForFilter i =
    if i = 0 then [valuesBatch 0 [(bytes "b", int16Column [(false, 5), (false, 6)])]]
    else if i = 1 then [valuesBatch 2 [(bytes "b", int16Column [(false, 8), (false, 9)])]] else [] := by
  rcases i with _ | _ | i
  · rfl
  · rfl
  · rfl

lemma valuesFile_dataBatches (i : Nat) :
    rowGroupBatches valuesBuilder valuesFile (valuesBuilder.fieldIdsForData valuesPath.toPartitionLayerFile) i =
      if i = 0 then [valuesBatch 0 []] else if i = 1 then [valuesBatch 2 []] else [] := by
  rcases i with _ | _ | i
  · rfl
  · rfl
  · rfl

lemma valuesFile_filters : FiltersFile valuesBuilder valuesFile := by
  constructor
  · intro i batch hbatch
    rw [valuesFile_filterBatches] at hbatch
    split_ifs at hbatch
    · obtain rfl := List.mem_singleton.mp hbatch
      exact ⟨[0, 1], rfl, by decide, by decide⟩
    · obtain rfl := List.mem_singleton.mp hbatch
      exact ⟨[], rfl, .nil, by simp⟩
    · cases hbatch
  · rintro canSkip hskip i rowGroup hrowGroup hcan pos ⟨rowGroup', hrowGroup', hle, -⟩
    obtain rfl := Option.some.inj hskip
    rintro ⟨j, batch, hbatch, rows, hrows, row, hrow, rfl⟩
    rw [valuesFile_filterBatches] at hbatch
    split_ifs at hbatch
    · obtain rfl := List.mem_singleton.mp hbatch
      obtain rfl : rows = [0, 1] := (Except.ok.inj hrows).symm
      -- the row is in the first row group, which is not left out
      have hlt : row < 2 := by
        rcases List.mem_pair.mp hrow with rfl | rfl <;> decide
      rcases i with _ | i
      · obtain rfl : rowGroup = valuesFile.rowGroups[0] := (Option.some.inj hrowGroup).symm
        exact absurd hcan (by decide)
      · have hmono : valuesFile.currentRow 1 ≤ valuesFile.currentRow (i + 1) := currentRow_mono _ (by omega)
        have hfirst : valuesFile.currentRow 1 = 2 := rfl
        have hposition : (valuesBatch 0 [(bytes "b", int16Column [(false, 5), (false, 6)])]).rowPosition = 0 := rfl
        omega
    · obtain rfl := List.mem_singleton.mp hbatch
      obtain rfl : rows = [] := (Except.ok.inj hrows).symm
      cases hrow
    · cases hbatch

lemma valuesPath_keys (i : Nat) (batchFilter batchData : ArrowBatchWithRowPosition)
    (h : PairOf valuesBuilder valuesPath.toPartitionLayerFile valuesFile i batchFilter batchData) :
    ReadsKeys valuesContext valuesBuilder.toFileReaderBuilder (fun _ => .int16) valuesPath.toPartitionLayerFile
      (batchData.columns ++ batchFilter.columns) batchData.numRows := by
  have hdeletes : valuesBuilder.equalityDeletes.deletesOf valuesPath.toPartitionLayerFile.partition =
      [(1, ⟨bytes "e", [2]⟩)] := rfl
  have hfilter := h.filter
  have hdata := h.data
  rw [valuesFile_filterBatches] at hfilter
  rw [valuesFile_dataBatches] at hdata
  constructor
  · intro del hdel id hid
    rw [hdeletes] at hdel
    obtain rfl := List.mem_singleton.mp hdel
    obtain rfl := List.mem_singleton.mp hid
    split_ifs at hfilter hdata
    · obtain rfl := List.mem_singleton.mp hfilter
      obtain rfl := List.mem_singleton.mp hdata
      exact ⟨_, rfl, rfl⟩
    · obtain rfl := List.mem_singleton.mp hfilter
      obtain rfl := List.mem_singleton.mp hdata
      exact ⟨_, rfl, rfl⟩
    · cases hfilter
  · intro del hdel row hrow
    rw [hdeletes] at hdel
    obtain rfl := List.mem_singleton.mp hdel
    split_ifs at hfilter hdata
    · obtain rfl := List.mem_singleton.mp hfilter
      obtain rfl := List.mem_singleton.mp hdata
      have hrow : row < 2 := hrow
      interval_cases row <;> decide
    · obtain rfl := List.mem_singleton.mp hfilter
      obtain rfl := List.mem_singleton.mp hdata
      have hrow : row < 2 := hrow
      interval_cases row <;> decide
    · cases hfilter
  · intro del hdel row hrow hspecialized
    cases hspecialized

lemma valuesPlan_equalityDeletes :
    SoundEqualityDeletes valuesContext valuesBuilder.toFileReaderBuilder (fun _ => .int16) 0 := by
  have hdeletes : valuesBuilder.equalityDeletes.deletesOf 0 = [(1, ⟨bytes "e", [2]⟩)] := rfl
  refine ⟨⟨_, rfl⟩, ?_, ?_⟩
  · intro del hdel
    rw [hdeletes] at hdel
    obtain rfl := List.mem_singleton.mp hdel
    constructor
    · intro reader hreader
      obtain rfl := (Except.ok.inj hreader).symm
      rfl
    · intro reader hreader batch hbatch
      obtain rfl := (Except.ok.inj hreader).symm
      obtain rfl := List.mem_singleton.mp hbatch
      rfl
  · intro del hdel added hadded
    rw [hdeletes] at hdel
    obtain rfl := List.mem_singleton.mp hdel
    have hrows : addedRows (fileCalls valuesContext (1, ⟨bytes "e", [2]⟩)) = [([int16Column [(false, 5)]], 0, 1)] := rfl
    rw [hrows] at hadded
    obtain rfl := List.mem_singleton.mp hadded
    decide

lemma valuesPlan_sound : SoundScan valuesContext valuesBuilder (fun _ => threeDeletes) (fun _ => .int16) valuesPlan
    (initializeAllEntries insertionSortByPath valuesPlan) := by
  have hpaths : initializeAllEntries insertionSortByPath valuesPlan = [valuesPath] := rfl
  rw [hpaths]
  refine ⟨by decide, ?_, ⟨?_, List.isChain_singleton _⟩, rfl, ?_, threeDeletes_sound _⟩
  · intro path hpath
    obtain rfl := List.mem_singleton.mp hpath
    refine ⟨valuesFile, ⟨rfl, ⟨_, rfl⟩, ⟨[4, 100], .cons rfl (.cons rfl .nil), by decide⟩, ?_, by decide⟩,
      valuesFile_filters, valuesPath_keys⟩
    exact ⟨by simp [Proper, valuesPath, annotatedDataPath], by simp [SortedByOffset, valuesPath, annotatedDataPath],
      by simp [valuesPath, annotatedDataPath]⟩
  · intro path hpath hempty
    obtain rfl := Option.some.inj hpath
    exact absurd hempty (by decide)
  · intro path hpath
    obtain rfl := List.mem_singleton.mp hpath
    exact valuesPlan_equalityDeletes

end IcebergCxx.Proofs

import IcebergCxx.Proofs.Planner
import IcebergCxx.Proofs.ScanRows

/-!
# Rows of a table

From the manifest entries to the rows: what the planner makes of the entries, the plan that the scan reads, and the
rows that it returns. A row is there unless a deletion vector, an equality delete or a positional delete of the table
deletes it, by the partitions and the sequence numbers of the entries.
-/

namespace IcebergCxx.Proofs

open Lib

variable {tableMetadata : TableMetadata} {es : List ManifestEntry} {roaring : RoaringLibrary}

/-! ### The entries that delete -/

/-- A positional delete file of the partition that is not older than the data file. -/
def AppliesPositional (e x : ManifestEntry) : Prop :=
  isPositional x = true ∧ keyOf x = keyOf e ∧ seqOf e ≤ seqOf x

/-- A newer equality delete file of the partition or of no partition. -/
def AppliesEquality (e x : ManifestEntry) : Prop :=
  isEquality x = true ∧ seqOf e < seqOf x ∧ (keyOf x = [] ∨ keyOf x = keyOf e)

/-- The newest deletion vector for the data file, if it is not older. -/
def AppliesVector (es : List ManifestEntry) (e x : ManifestEntry) : Prop :=
  VectorFor e x ∧ seqOf e ≤ seqOf x ∧ ∀ y ∈ es, VectorFor e y → seqOf y ≤ seqOf x

/-- What a plan gives a data entry. A positional delete file may be left out when its bounds or its annotation say that
it is about other files. -/
structure EntryReach (es : List ManifestEntry) (e : ManifestEntry)
    (item : Reach DataEntry PositionalDeleteInfo EqualityDeleteInfo) : Prop where
  path : item.item.path = e.dataFile.filePath
  parts : item.item.parts = segmentsOfFile e.dataFile
  equality : ∀ info, info ∈ item.second ↔ ∃ x ∈ es, AppliesEquality e x ∧ equalityOf x = info
  positional : ∀ del ∈ item.first, ∃ x ∈ es, AppliesPositional e x ∧ x.dataFile.filePath = del.path
  covered : ∀ x ∈ es, AppliesPositional e x → covers (positionalOf x) e.dataFile.filePath = true →
    (∀ referenced ∈ x.dataFile.referencedDataFile, referenced = e.dataFile.filePath) →
      ⟨x.dataFile.filePath⟩ ∈ item.first
  vector : ∀ dv ∈ item.item.dv, ∃ x ∈ es, AppliesVector es e x ∧ dv = vectorOf x
  hasVector : ∀ x ∈ es, AppliesVector es e x → item.item.dv.isSome = true

/-- What the code needs of the entries: sequence numbers that can be decremented, bounds in order, and data files with
paths of their own. -/
structure SoundEntries (es : List ManifestEntry) : Prop where
  sequenceNumbers : ∀ e ∈ es, int64Min < seqOf e ∧ seqOf e ≤ int64Max
  bounds : ∀ e ∈ es, ∀ min max, minMaxReferencedPath e.dataFile = some (min, max) → min ≤ max
  named : ∀ e ∈ es, isData e = true → e.dataFile.filePath ≠ []
  distinct : ((es.filter isData).map (fun e => e.dataFile.filePath)).Nodup

/-! ### From the entries to the plan -/

/-- The vectors for a data file, as the builder knows them. -/
lemma vectorFor_iff (hvalid : ∀ e ∈ es, validateEntry tableMetadata e = .ok ()) {e x : ManifestEntry} (hx : x ∈ es) :
    VectorFor e x ↔ isVector x = true ∧ keyOf x = keyOf e ∧ referencedOf x = e.dataFile.filePath := by
  constructor
  · rintro ⟨hvector, hkey, hreferenced⟩
    refine ⟨hvector, hkey, ?_⟩
    rw [referencedOf, hreferenced, Option.getD_some]
  · rintro ⟨hvector, hkey, hreferenced⟩
    refine ⟨hvector, hkey, ?_⟩
    rw [referenced_of_validateEntry (hvalid x hx) hvector, hreferenced]

lemma mem_second_builderItem (hseq : ∀ e ∈ es, int64Min < seqOf e ∧ seqOf e ≤ int64Max) {e : ManifestEntry}
    {info : EqualityDeleteInfo} :
    info ∈ (builderItem (builderOf tableMetadata es) (keyOf e, seqOf e, dataEntryOf e)).second ↔
      ∃ x ∈ es, AppliesEquality e x ∧ equalityOf x = info := by
  rw [second_builderItem, Multiset.mem_coe, List.mem_map]
  apply exists_congr
  intro x
  rw [List.mem_filter]
  constructor
  · rintro ⟨⟨hx, happlies⟩, hinfo⟩
    simp only [Bool.and_eq_true, Bool.or_eq_true, decide_eq_true_eq, wrapInt64_pred (hseq x hx)] at happlies
    exact ⟨hx, ⟨happlies.1.1, Int.le_sub_one_iff.mp happlies.1.2, happlies.2⟩, hinfo⟩
  · rintro ⟨hx, ⟨hequality, hlt, hkey⟩, hinfo⟩
    refine ⟨⟨hx, ?_⟩, hinfo⟩
    simp only [Bool.and_eq_true, Bool.or_eq_true, decide_eq_true_eq, wrapInt64_pred (hseq x hx)]
    exact ⟨⟨hequality, Int.le_sub_one_iff.mpr hlt⟩, hkey⟩

lemma mem_first_builderItem {e : ManifestEntry} {del : PositionalDeleteWithExtraInfo} :
    del ∈ (builderItem (builderOf tableMetadata es) (keyOf e, seqOf e, dataEntryOf e)).first ↔
      ∃ x ∈ es, AppliesPositional e x ∧ positionalOf x = del := by
  rw [first_builderItem, Multiset.mem_coe, List.mem_map]
  apply exists_congr
  intro x
  rw [List.mem_filter]
  simp only [Bool.and_eq_true, decide_eq_true_eq, AppliesPositional]
  tauto

/-- What the plan of the builder gives an entry. -/
lemma entryReach_of_plans (hvalid : ∀ e ∈ es, validateEntry tableMetadata e = .ok ())
    (hseq : ∀ e ∈ es, int64Min < seqOf e ∧ seqOf e ≤ int64Max) {e : ManifestEntry}
    {item : Reach DataEntry PositionalDeleteInfo EqualityDeleteInfo}
    (h : Plans (builderItem (builderOf tableMetadata es) (keyOf e, seqOf e, dataEntryOf e)) item) :
    EntryReach es e item := by
  obtain ⟨hpath, hparts, hsome, hvector⟩ :=
    @item_builderItem tableMetadata es (keyOf e) (seqOf e) (dataEntryOf e) rfl
  constructor
  · rw [h.item, hpath]
    rfl
  · rw [h.item, hparts]
    rfl
  · intro info
    rw [h.second, mem_second_builderItem hseq]
  · intro del hdel
    obtain ⟨before, hbefore, rfl⟩ := Multiset.mem_map.mp (Multiset.mem_of_le h.first_le hdel)
    obtain ⟨x, hx, happlies, rfl⟩ := mem_first_builderItem.mp hbefore
    exact ⟨x, hx, happlies, rfl⟩
  · intro x hx happlies hcovers _
    apply Multiset.mem_of_le h.le_first
    apply Multiset.mem_map.mpr
    refine ⟨positionalOf x, Multiset.mem_filter.mpr ⟨mem_first_builderItem.mpr ⟨x, hx, happlies, rfl⟩, ?_⟩, rfl⟩
    rw [hpath]
    exact hcovers
  · intro dv hdv
    rw [h.item] at hdv
    obtain ⟨x, hx, hkind, hkey, hreferenced, hnewest, rfl⟩ := hvector dv hdv
    have hof : VectorFor e x := (vectorFor_iff hvalid hx).mpr ⟨hkind, hkey, hreferenced⟩
    obtain ⟨y, hy, hykind, hykey, hyreferenced, hle⟩ := hsome.mp (Option.isSome_iff_exists.mpr ⟨_, hdv⟩)
    refine ⟨x, hx, ⟨hof, hle.trans (hnewest y hy hykind hykey hyreferenced), ?_⟩, rfl⟩
    intro z hz hfor
    obtain ⟨hzkind, hzkey, hzreferenced⟩ := (vectorFor_iff hvalid hz).mp hfor
    exact hnewest z hz hzkind hzkey hzreferenced
  · intro x hx happlies
    obtain ⟨hkind, hkey, hreferenced⟩ := (vectorFor_iff hvalid hx).mp happlies.1
    rw [h.item]
    exact hsome.mpr ⟨x, hx, hkind, hkey, hreferenced, happlies.2.1⟩

lemma builder_reach (hsound : SoundEntries es) (hvalid : ∀ e ∈ es, validateEntry tableMetadata e = .ok ())
    {plan : ScanMetadata} (h : (builderOf tableMetadata es).getResult = .ok plan) :
    Multiset.Rel (EntryReach es) (es.filter isData : List ManifestEntry) (planReach plan.partitions) := by
  have hranges : BuilderRangesOrdered (builderOf tableMetadata es) := by
    intro p hp min max hbounds
    rw [positionalContents_builderOf, Multiset.mem_coe] at hp
    obtain ⟨x, hx, rfl⟩ := List.mem_map.mp hp
    exact hsound.bounds x (List.mem_filter.mp hx).1 min max hbounds
  have hplans := getResult_plans hranges h
  rw [dataContents_builderOf, Multiset.map_coe, List.map_map, ← Multiset.map_coe, Multiset.rel_map_left] at hplans
  apply hplans.mono
  intro e _ item _ hitem
  exact entryReach_of_plans hvalid hsound.sequenceNumbers hitem

/-- The rewrite leaves a delete out only when it is annotated with another file. -/
lemma EntryReach.ownDeletes {p : ReferencedDataFileAwareScanPlanner} (hnoted : Noted tableMetadata es p)
    (hequality : p.hasEqualityDelete = false) (hannotated : p.allPosDeletesAnnotatedWithReferencedDataFile = true)
    {e : ManifestEntry} {item : Reach DataEntry PositionalDeleteInfo EqualityDeleteInfo} (h : EntryReach es e item) :
    EntryReach es e (ownDeletes p.deleteFilePathToReferencedDataFilePath item) := by
  refine ⟨h.path, h.parts, ?_, ?_, ?_, h.vector, h.hasVector⟩
  · intro info
    constructor
    · intro hinfo
      cases hinfo
    · rintro ⟨x, hx, happlies, -⟩
      rw [hnoted.equality] at hequality
      exact absurd happlies.1 (List.any_eq_false.mp hequality x hx)
  · intro del hdel
    exact h.positional del (Multiset.mem_filter.mp hdel).1
  · intro x hx happlies hcovers hreferenced
    apply Multiset.mem_filter.mpr
    refine ⟨h.covered x hx happlies hcovers hreferenced, ?_⟩
    rw [hnoted.allAnnotated] at hannotated
    have hkind : isPositionDelete x = true := by
      have hpositional := happlies.1
      simp only [isPositional, isPositionDelete, Bool.and_eq_true] at hpositional ⊢
      exact hpositional.1
    have hhas : isAnnotated x = true := by
      have hx' := List.all_eq_true.mp hannotated x hx
      rw [hkind] at hx'
      exact hx'
    obtain ⟨referenced, hof⟩ := Option.isSome_iff_exists.mp hhas
    obtain rfl := hreferenced referenced hof
    rw [h.path]
    exact (hnoted.referenced _ _).mpr ⟨x, hx, happlies.1, rfl, hof⟩

/-- What the plan of the planner gives the entries. -/
lemma planner_reach (hsound : SoundEntries es) {p : ReferencedDataFileAwareScanPlanner}
    (hadd : (ReferencedDataFileAwareScanPlanner.make tableMetadata).addEntries es = .ok p) {plan : ScanMetadata}
    (h : p.getResult = .ok plan) :
    Multiset.Rel (EntryReach es) (es.filter isData : List ManifestEntry) (planReach plan.partitions) := by
  have hnoted := addEntries_noted hadd
  rw [ReferencedDataFileAwareScanPlanner.getResult, hnoted.builder] at h
  obtain ⟨before, hbefore, h⟩ := bind_ok h
  have hreach := builder_reach hsound hnoted.valid hbefore
  split_ifs at h with hhas hequality hannotated
  · cases h
    exact hreach
  · cases h
    exact hreach
  · cases h
    exact hreach
  · have hequality' : p.hasEqualityDelete = false := Bool.eq_false_iff.mpr hequality
    have hannotated' : p.allPosDeletesAnnotatedWithReferencedDataFile = true := by
      simpa using hannotated
    have hpaths : ((planReach before.partitions).map (fun r => r.item.path)).Nodup := by
      rw [paths_of_plan hbefore]
      exact Multiset.coe_nodup.mpr hsound.distinct
    have hknown : ∀ part ∈ before.partitions, ∀ layer ∈ part, ∀ del ∈ layer.positionalDeleteEntries,
        (p.deleteFilePathToReferencedDataFilePath.find? del.path).isSome = true := by
      intro part hpart layer hlayer del hdel
      obtain ⟨q, hq, rfl⟩ := mem_positionalContents_of_plan hbefore hpart hlayer hdel
      rw [positionalContents_builderOf, Multiset.mem_coe] at hq
      obtain ⟨x, hx, rfl⟩ := List.mem_map.mp hq
      obtain ⟨hmem, hkind⟩ := List.mem_filter.mp hx
      have hposition : isPositionDelete x = true := by
        simp only [isPositional, isPositionDelete, Bool.and_eq_true] at hkind ⊢
        exact hkind.1
      rw [hnoted.allAnnotated] at hannotated'
      have hx' := List.all_eq_true.mp hannotated' x hmem
      rw [hposition] at hx'
      obtain ⟨referenced, hof⟩ := Option.isSome_iff_exists.mp (show isAnnotated x = true from hx')
      exact Option.isSome_iff_exists.mpr ⟨referenced, (hnoted.referenced _ _).mpr ⟨x, hmem, hkind, rfl, hof⟩⟩
    obtain ⟨partitions, hrun, hopened, hrewritten⟩ := @handlePartitions_ok
      p.deleteFilePathToReferencedDataFilePath before.partitions [[{}]] ⟨[], [], rfl⟩
      (fun part hpart => nodup_paths_of_mem hpaths hpart) hknown
    rw [hrun] at h
    cases h
    rw [planReach_eraseEmptyFirst hopened, hrewritten]
    have hempty : planReach [[({} : Layer)]] = 0 := rfl
    rw [hempty, zero_add, Multiset.rel_map_right]
    apply hreach.mono
    intro e _ item _ hitem
    exact hitem.ownDeletes hnoted hequality' hannotated'

/-! ### From the plan to its entries -/

/-- The layers of the partition of a file from its own on. -/
def layersFrom (plan : ScanMetadata) (file : PartitionLayerFile) : Partition :=
  (plan.partitions.getD file.partition.toNat []).drop file.layer.toNat

/-- An entry of the plan with the deletes of its layers. -/
def reachOf (plan : ScanMetadata) (path : AnnotatedDataPath) :
    Reach DataEntry PositionalDeleteInfo EqualityDeleteInfo where
  item := ⟨path.path, path.segments, path.dvInfo⟩
  first := firsts ((layersFrom plan path.toPartitionLayerFile).map planTier)
  second := seconds ((layersFrom plan path.toPartitionLayerFile).map planTier)

lemma layersFrom_annotated {plan : ScanMetadata} {partition : Partition} {i : Nat}
    (h : plan.partitions[i]? = some partition) (j : Nat) (d : DataEntry) :
    layersFrom plan (annotatedDataPath i j d).toPartitionLayerFile = partition.drop j := by
  simp [layersFrom, annotatedDataPath, List.getD_eq_getElem?_getD, h]

lemma reach_drop {plan : ScanMetadata} {partition : Partition} {i : Nat} (h : plan.partitions[i]? = some partition)
    {layers : Partition} {j : Nat} (hdrop : partition.drop j = layers) :
    reach (layers.map planTier) = (((layers.zipIdx j).flatMap (fun (layer, layerId) =>
      layer.dataEntries.map (annotatedDataPath i layerId))).map (reachOf plan) : List _) := by
  induction layers generalizing j with
  | nil => rfl
  | cons layer layers ih =>
    have htail : partition.drop (j + 1) = layers := by
      rw [← List.tail_drop, hdrop, List.tail_cons]
    rw [List.map_cons, reach, ih htail, List.zipIdx_cons, List.flatMap_cons, List.map_append, ← Multiset.coe_add,
      List.map_map]
    congr 1
    change Multiset.map _ (layer.dataEntries : Multiset DataEntry) = _
    rw [Multiset.map_coe]
    congr 2
    funext d
    rw [Function.comp_apply, reachOf, layersFrom_annotated h, hdrop]
    rfl

lemma planReach_drop {plan : ScanMetadata} {partitions : List Partition} {i : Nat}
    (hdrop : plan.partitions.drop i = partitions) :
    planReach partitions = (((partitions.zipIdx i).flatMap (fun (partition, partitionId) =>
      partition.zipIdx.flatMap (fun (layer, layerId) =>
        layer.dataEntries.map (annotatedDataPath partitionId layerId)))).map (reachOf plan) : List _) := by
  induction partitions generalizing i with
  | nil => rfl
  | cons partition partitions ih =>
    have htail : plan.partitions.drop (i + 1) = partitions := by
      rw [← List.tail_drop, hdrop, List.tail_cons]
    have hpartition : plan.partitions[i]? = some partition := by
      rw [← List.head?_drop, hdrop, List.head?_cons]
    rw [planReach_cons, ih htail, List.zipIdx_cons, List.flatMap_cons, List.map_append, ← Multiset.coe_add]
    congr 1
    exact reach_drop hpartition (List.drop_zero)

/-- The data files of a plan with their deletes are its entries. -/
lemma planReach_eq (plan : ScanMetadata) :
    planReach plan.partitions = ((planEntries plan).map (reachOf plan) : List _) :=
  planReach_drop (List.drop_zero)

lemma mem_planEntries {plan : ScanMetadata} {path : AnnotatedDataPath} : path ∈ planEntries plan ↔
    ∃ (i j : Nat) (partition : Partition) (layer : Layer) (d : DataEntry), plan.partitions[i]? = some partition ∧
      partition[j]? = some layer ∧ d ∈ layer.dataEntries ∧ annotatedDataPath i j d = path := by
  unfold planEntries
  simp only [List.mem_flatMap, List.mem_map, Prod.exists, List.mk_mem_zipIdx_iff_getElem?]
  constructor
  · rintro ⟨partition, i, hpartition, layer, j, hlayer, d, hd, rfl⟩
    exact ⟨i, j, partition, layer, d, hpartition, hlayer, hd, rfl⟩
  · rintro ⟨i, j, partition, layer, d, hpartition, hlayer, hd, rfl⟩
    exact ⟨partition, i, hpartition, layer, j, hlayer, d, hd, rfl⟩

/-- The layers of a file, by their numbers. -/
lemma exists_layersFrom {plan : ScanMetadata} {path : AnnotatedDataPath} (h : path ∈ planEntries plan)
    {P : Layer → Prop} : (∃ layer ∈ layersFrom plan path.toPartitionLayerFile, P layer) ↔
      ∃ (partitionId layerId : Nat) (partition : Partition) (layer : Layer),
        plan.partitions[partitionId]? = some partition ∧ partition[layerId]? = some layer ∧
          path.partition = partitionId ∧ path.layer ≤ layerId ∧ P layer := by
  obtain ⟨i, j, partition, layer, d, hpartition, -, -, rfl⟩ := mem_planEntries.mp h
  rw [layersFrom_annotated hpartition]
  constructor
  · rintro ⟨layer, hlayer, hP⟩
    obtain ⟨k, hk⟩ := List.mem_iff_getElem?.mp hlayer
    rw [List.getElem?_drop] at hk
    exact ⟨i, j + k, partition, layer, hpartition, hk, rfl, by simp [annotatedDataPath], hP⟩
  · rintro ⟨i', k, partition', layer, hpartition', hk, hi, hj, hP⟩
    obtain rfl : i = i' := Int.ofNat_inj.mp hi
    obtain rfl : partition = partition' := Option.some.inj (hpartition.symm.trans hpartition')
    have hle : j ≤ k := Int.ofNat_le.mp hj
    refine ⟨layer, List.mem_iff_getElem?.mpr ⟨k - j, ?_⟩, hP⟩
    rw [List.getElem?_drop, Nat.add_sub_cancel' hle]
    exact hk

lemma mem_firsts {layers : Partition} {del : PositionalDeleteInfo} :
    del ∈ firsts (layers.map planTier) ↔ ∃ layer ∈ layers, del ∈ layer.positionalDeleteEntries := by
  induction layers with
  | nil => simp [firsts]
  | cons layer layers ih =>
    rw [List.map_cons, firsts, Multiset.mem_add, ih]
    simp only [List.mem_cons, exists_eq_or_imp]
    rfl

lemma mem_seconds {layers : Partition} {info : EqualityDeleteInfo} :
    info ∈ seconds (layers.map planTier) ↔ ∃ layer ∈ layers, info ∈ layer.equalityDeleteEntries := by
  induction layers with
  | nil => simp [seconds]
  | cons layer layers ih =>
    rw [List.map_cons, seconds, Multiset.mem_add, ih]
    simp only [List.mem_cons, exists_eq_or_imp]
    rfl

lemma planDeletes_iff {plan : ScanMetadata} {path : AnnotatedDataPath} (h : path ∈ planEntries plan)
    {cb : Bytes → DeleteFile} {pos : Int} : PlanDeletes plan cb path.toPartitionLayerFile pos ↔
      ∃ del ∈ (reachOf plan path).first, (some path.path, some pos) ∈ cellsOf (cb del.path).rowGroups := by
  unfold PlanDeletes
  rw [← exists_layersFrom h]
  constructor
  · rintro ⟨layer, hlayer, del, hdel, hcell⟩
    exact ⟨del, mem_firsts.mpr ⟨layer, hlayer, hdel⟩, hcell⟩
  · rintro ⟨del, hdel, hcell⟩
    obtain ⟨layer, hlayer, hmem⟩ := mem_firsts.mp hdel
    exact ⟨layer, hlayer, del, hmem, hcell⟩

lemma planEqualityDeletes_iff {plan : ScanMetadata} {path : AnnotatedDataPath} (h : path ∈ planEntries plan)
    {ctx : EqualityDeleteContext} {mapper : FieldIdMapper} {columns : List (Bytes × KeyArray)} {row : Nat} :
    PlanEqualityDeletes ctx mapper plan path.toPartitionLayerFile columns row ↔ ∃ info ∈ (reachOf plan path).second,
      FileHasRow ctx info (keyColumns mapper columns (sortUnique info.fieldIds)) row := by
  unfold PlanEqualityDeletes
  rw [← exists_layersFrom h]
  constructor
  · rintro ⟨layer, hlayer, info, hinfo, hrow⟩
    exact ⟨info, mem_seconds.mpr ⟨layer, hlayer, hinfo⟩, hrow⟩
  · rintro ⟨info, hinfo, hrow⟩
    obtain ⟨layer, hlayer, hmem⟩ := mem_seconds.mp hinfo
    exact ⟨layer, hlayer, info, hmem, hrow⟩

/-! ### The deleted rows -/

/-- The vector of an entry holds the row, or a row of an equality delete equals it, or a positional delete names it. -/
def EntryDeletes (ctx : EqualityDeleteContext) (builder : ScanFileReaderBuilder roaring) (cb : Bytes → DeleteFile)
    (es : List ManifestEntry) (e : ManifestEntry) (record : ArrowBatchWithRowPosition) (row : Nat) : Prop :=
  (∃ x ∈ es, AppliesVector es e x ∧ ∃ pos ∈ vectorPositions (builder.openDeletionVector (vectorOf x)),
      record.rowPosition + row = (pos : Nat)) ∨
    (∃ x ∈ es, AppliesEquality e x ∧
      FileHasRow ctx (equalityOf x) (keyColumns builder.mapper record.columns (sortUnique x.dataFile.equalityIds)) row) ∨
    ∃ x ∈ es, AppliesPositional e x ∧
      (some e.dataFile.filePath, some (record.rowPosition + row)) ∈ cellsOf (cb x.dataFile.filePath).rowGroups

/-- What the code needs of the deletes: positional delete files with no rows out of their bounds or of another file
than the one they are annotated with, and one newest vector for a file. -/
structure SoundDeletes (cb : Bytes → DeleteFile) (es : List ManifestEntry) : Prop where
  bounded : ∀ x ∈ es, isPositional x = true → ∀ path pos,
    (some path, some pos) ∈ cellsOf (cb x.dataFile.filePath).rowGroups → covers (positionalOf x) path = true
  annotated : ∀ x ∈ es, isPositional x = true → ∀ path pos,
    (some path, some pos) ∈ cellsOf (cb x.dataFile.filePath).rowGroups →
      ∀ referenced ∈ x.dataFile.referencedDataFile, referenced = path
  vectors : ∀ e x y, x ∈ es → y ∈ es → AppliesVector es e x → AppliesVector es e y → vectorOf x = vectorOf y

lemma rowDeleted_iff {plan : ScanMetadata} {path : AnnotatedDataPath} (hpath : path ∈ planEntries plan)
    {ctx : EqualityDeleteContext} {builder : ScanFileReaderBuilder roaring} {cb : Bytes → DeleteFile}
    (hdeletes : SoundDeletes cb es) {e : ManifestEntry} (h : EntryReach es e (reachOf plan path))
    {record : ArrowBatchWithRowPosition} {row : Nat} :
    RowDeleted ctx builder cb plan path record row ↔ EntryDeletes ctx builder cb es e record row := by
  have hsame : path.path = e.dataFile.filePath := h.path
  unfold RowDeleted EntryDeletes
  rw [planEqualityDeletes_iff hpath, planDeletes_iff hpath]
  apply or_congr
  · constructor
    · rintro ⟨dv, hdv, pos, hpos, hrow⟩
      obtain ⟨x, hx, happlies, rfl⟩ := h.vector dv hdv
      exact ⟨x, hx, happlies, pos, hpos, hrow⟩
    · rintro ⟨x, hx, happlies, pos, hpos, hrow⟩
      obtain ⟨dv, hdv⟩ := Option.isSome_iff_exists.mp (h.hasVector x hx happlies)
      obtain ⟨y, hy, happlies', rfl⟩ := h.vector dv hdv
      rw [hdeletes.vectors e x y hx hy happlies happlies'] at hpos
      exact ⟨vectorOf y, hdv, pos, hpos, hrow⟩
  apply or_congr
  · constructor
    · rintro ⟨info, hinfo, hrow⟩
      obtain ⟨x, hx, happlies, rfl⟩ := (h.equality info).mp hinfo
      exact ⟨x, hx, happlies, hrow⟩
    · rintro ⟨x, hx, happlies, hrow⟩
      exact ⟨equalityOf x, (h.equality _).mpr ⟨x, hx, happlies, rfl⟩, hrow⟩
  · rw [hsame]
    constructor
    · rintro ⟨del, hdel, hcell⟩
      obtain ⟨x, hx, happlies, heq⟩ := h.positional del hdel
      rw [← heq] at hcell
      exact ⟨x, hx, happlies, hcell⟩
    · rintro ⟨x, hx, happlies, hcell⟩
      exact ⟨_, h.covered x hx happlies (hdeletes.bounded x hx happlies.1 _ _ hcell)
        (hdeletes.annotated x hx happlies.1 _ _ hcell), hcell⟩

/-! ### The rows of the table -/

/-- What the code needs of the files of a plan: batches that fit `int32_t`, sound data files, the equality deletes of
the plan, and sound delete files. -/
structure ReadablePlan (ctx : EqualityDeleteContext) (builder : ScanFileReaderBuilder roaring) (cb : Bytes → DeleteFile)
    (keyTypes : Int → KeyType) (plan : ScanMetadata) : Prop where
  batchSize : 0 < builder.batchSize ∧ builder.batchSize ≤ 2 ^ 31
  files : ∀ path ∈ planEntries plan, ∃ file, SoundDataFile ctx builder keyTypes path file
  collected : builder.equalityDeletes = equalityDeletesOf plan
  equalityDeletes : ∀ path ∈ planEntries plan,
    SoundEqualityDeletes ctx builder.toFileReaderBuilder keyTypes path.partition
  positionalDeletes : SoundDeleteFiles (positionalDeletesOf plan) cb

lemma rel_of_forall₂ {A B : Type} {R : A → B → Prop} {as : List A} {bs : List B} (h : List.Forall₂ R as bs) :
    Multiset.Rel R (as : Multiset A) (bs : Multiset B) := by
  induction h with
  | nil => exact .zero
  | cons hab _ ih => exact .cons hab ih

/-- Data files with paths of their own need no cached vector. -/
lemma ReadablePlan.soundScan {ctx : EqualityDeleteContext} {builder : ScanFileReaderBuilder roaring}
    {cb : Bytes → DeleteFile} {keyTypes : Int → KeyType} {plan : ScanMetadata}
    (h : ReadablePlan ctx builder cb keyTypes plan) (sort : DataEntrySort)
    (hnamed : ∀ path ∈ planEntries plan, path.path ≠ [])
    (hdistinct : ((planEntries plan).map (fun path => path.path)).Nodup) :
    SoundScan ctx builder cb keyTypes plan (initializeAllEntries sort plan) := by
  have hperm := initializeAllEntries_perm sort plan
  refine ⟨h.batchSize, fun path hpath => h.files path (hperm.subset hpath), ⟨?_, ?_⟩, h.collected,
    fun path hpath => h.equalityDeletes path (hperm.subset hpath), h.positionalDeletes⟩
  · intro path hpath hempty
    exact absurd hempty (hnamed path (hperm.subset (List.mem_of_head? hpath)))
  · have hnodup := (hperm.map (fun path => path.path)).nodup_iff.mpr hdistinct
    apply List.Pairwise.isChain
    apply (List.pairwise_map.mp hnodup).imp
    intro a b hne heq
    exact absurd heq hne

/-- The entries of a plan, by the data entries they come from. -/
lemma entries_of_reach {plan : ScanMetadata}
    (h : Multiset.Rel (EntryReach es) (es.filter isData : List ManifestEntry) (planReach plan.partitions)) :
    Multiset.Rel (fun e path => EntryReach es e (reachOf plan path))
      (es.filter isData : List ManifestEntry) (planEntries plan : Multiset AnnotatedDataPath) := by
  rw [planReach_eq, ← Multiset.map_coe, Multiset.rel_map_right] at h
  exact h

/-- The scan returns the files of the data entries, each without the rows that the plan deletes. -/
lemma emits_of_entries {plan : ScanMetadata} {Q : MinQueue PositionalDeleteStream.Reader.getPosition}
    {ctx : EqualityDeleteContext} {builder : ScanFileReaderBuilder roaring} {cb : Bytes → DeleteFile}
    {keyTypes : Int → KeyType} (sort : DataEntrySort) (hentries : SoundEntries es)
    (hread : ReadablePlan ctx builder cb keyTypes plan)
    (hreach : Multiset.Rel (fun e path => EntryReach es e (reachOf plan path)) (es.filter isData : List ManifestEntry)
      (planEntries plan : Multiset AnnotatedDataPath)) :
    ∃ emitted : List (List FilteredBatch),
      Multiset.Rel (fun e batches => ∃ path ∈ planEntries plan, EntryReach es e (reachOf plan path) ∧
          EmitsEntry builder path (RowDeleted ctx builder cb plan path) batches)
        (es.filter isData : List ManifestEntry) (emitted : Multiset (List FilteredBatch)) ∧
      Emits (ProjectedScan.readNext Q ctx builder (positionalDeletesOf plan) cb (fun _ => none))
        { input := { metaStream := initializeAllEntries sort plan } } emitted.flatten := by
  have hpaths : ((es.filter isData).map (fun e => e.dataFile.filePath) : Multiset Bytes) =
      ((planEntries plan).map (fun path => path.path) : List Bytes) := by
    rw [← Multiset.map_coe, ← Multiset.map_coe, ← Multiset.rel_eq, Multiset.rel_map]
    exact hreach.mono (fun e _ path _ h => h.path.symm)
  have hnamed : ∀ path ∈ planEntries plan, path.path ≠ [] := by
    intro path hpath
    have hmem : path.path ∈ (planEntries plan).map (fun path => path.path) := List.mem_map.mpr ⟨path, hpath, rfl⟩
    rw [← Multiset.mem_coe, ← hpaths, Multiset.mem_coe] at hmem
    obtain ⟨e, he, hsame⟩ := List.mem_map.mp hmem
    rw [← hsame]
    exact hentries.named e (List.mem_filter.mp he).1 (List.mem_filter.mp he).2
  have hdistinct : ((planEntries plan).map (fun path => path.path)).Nodup := by
    rw [← Multiset.coe_nodup, ← hpaths, Multiset.coe_nodup]
    exact hentries.distinct
  obtain ⟨emitted, hemitted, hemits⟩ := @SoundScan.emits roaring Q ctx builder cb keyTypes sort plan
    (hread.soundScan sort hnamed hdistinct)
  refine ⟨emitted, ?_, hemits⟩
  have hordered : (planEntries plan : Multiset AnnotatedDataPath) = initializeAllEntries sort plan :=
    (Multiset.coe_eq_coe.mpr (initializeAllEntries_perm sort plan)).symm
  have hplaced : Multiset.Rel (fun e path => path ∈ planEntries plan ∧ EntryReach es e (reachOf plan path))
      (es.filter isData : List ManifestEntry) (initializeAllEntries sort plan : Multiset AnnotatedDataPath) := by
    rw [← hordered]
    exact hreach.mono (fun e _ path hpath hitem => ⟨hpath, hitem⟩)
  apply rel_comp ?_ hplaced (rel_of_forall₂ hemitted)
  rintro e path batches ⟨hpath, hitem⟩ hbatches
  exact ⟨path, hpath, hitem, hbatches⟩

/-- A data file, an equality delete that is two sequence numbers newer and a positional delete. -/
def valuesEntries : List ManifestEntry := [
  { sequenceNumber := some 1, dataFile := { filePath := bytes "a" } },
  { sequenceNumber := some 3, dataFile := { content := .equalityDeletes, filePath := bytes "e", equalityIds := [2] } },
  { sequenceNumber := some 2, dataFile := { content := .positionDeletes, filePath := bytes "d" } }]

lemma valuesEntries_sound : SoundEntries valuesEntries where
  sequenceNumbers := by decide
  bounds := by
    have hnone : ∀ e ∈ valuesEntries, minMaxReferencedPath e.dataFile = none := by decide
    intro e he min max hbounds
    rw [hnone e he] at hbounds
    cases hbounds
  named := by decide
  distinct := by decide

lemma valuesEntries_deletes : SoundDeletes (fun _ => threeDeletes) valuesEntries where
  bounded := by
    have hcovers : ∀ x ∈ valuesEntries, (positionalOf x).minMaxReferencedPath = none := by decide
    intro x hx _ path pos _
    rw [covers, hcovers x hx]
  annotated := by
    have hnone : ∀ x ∈ valuesEntries, x.dataFile.referencedDataFile = none := by decide
    intro x hx _ path pos _ referenced hreferenced
    rw [hnone x hx] at hreferenced
    cases hreferenced
  vectors := by
    have hnone : ∀ x ∈ valuesEntries, isVector x = false := by decide
    intro e x y hx _ happlies _
    have hkind := happlies.1.1
    rw [hnone x hx] at hkind
    cases hkind

lemma valuesPlan_readable :
    ReadablePlan valuesContext valuesBuilder (fun _ => threeDeletes) (fun _ => .int16) valuesPlan := by
  have hpaths : planEntries valuesPlan = [valuesPath] := rfl
  refine ⟨valuesPlan_sound.batchSize, ?_, rfl, ?_, threeDeletes_sound _⟩
  · rw [hpaths]
    exact valuesPlan_sound.files
  · rw [hpaths]
    exact valuesPlan_sound.equalityDeletes

end IcebergCxx.Proofs

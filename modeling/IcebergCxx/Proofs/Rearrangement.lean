import IcebergCxx.Planner
import IcebergCxx.Lib.Rearrange

/-!
# Plans of rearranged layers

Two builders with the same files in every layer, stored in different orders, give plans with the same
files in every layer. Every pass of `GetResult` respects the relation, and a failure of one run is a
failure of the other.
-/

namespace IcebergCxx.Proofs

open Lib

/-! ### The relations -/

/-- The same files in any order. -/
structure SameLayer (a b : Layer) : Prop where
  data : a.dataEntries.Perm b.dataEntries
  positional : a.positionalDeleteEntries.Perm b.positionalDeleteEntries
  equality : a.equalityDeleteEntries.Perm b.equalityDeleteEntries

lemma SameLayer.empty_eq {a b : Layer} (h : SameLayer a b) : a.empty = b.empty := by
  unfold Layer.empty
  rw [h.data.isEmpty_eq, h.positional.isEmpty_eq, h.equality.isEmpty_eq]

/-- The plans are equal up to the order of the entries inside each layer. -/
structure SamePlan (a b : ScanMetadata) : Prop where
  schema : a.schema = b.schema
  partitions : List.Forall₂ (List.Forall₂ SameLayer) a.partitions b.partitions

/-- `SameLayer` before the plan is made, with the same deletion vectors. -/
structure Rearranged (a b : LayerWithExtraInfo) : Prop where
  data : a.dataEntries.Perm b.dataEntries
  positional : a.positionalDeleteEntries.Perm b.positionalDeleteEntries
  equality : a.equalityDeleteEntries.Perm b.equalityDeleteEntries
  vectors : a.dvEntries = b.dvEntries

lemma rearranged_equivalence : Equivalence Rearranged where
  refl _ := ⟨.refl _, .refl _, .refl _, rfl⟩
  symm h := ⟨h.data.symm, h.positional.symm, h.equality.symm, h.vectors.symm⟩
  trans h h' := ⟨h.data.trans h'.data, h.positional.trans h'.positional, h.equality.trans h'.equality,
    h.vectors.trans h'.vectors⟩

/-- The layers of partitions, rearranged one by one. -/
def BucketsRearranged : List (List LayerWithExtraInfo) → List (List LayerWithExtraInfo) → Prop :=
  List.Forall₂ (List.Forall₂ Rearranged)

lemma bucket_equivalence : Equivalence (List.Forall₂ Rearranged) := forall₂_equivalence rearranged_equivalence

lemma buckets_equivalence : Equivalence BucketsRearranged := forall₂_equivalence bucket_equivalence

/-! ### Global equality deletes and deletion vectors -/

section Layers

variable {layers layers' : OrdMap SequenceNumber LayerWithExtraInfo}

lemma applyGlobalEqualityDeletes_rearranged {deletes deletes' : OrdMap SequenceNumber (List EqualityDeleteInfo)}
    (hdeletes : deletes.Rel List.Perm deletes') (h : layers.Rel Rearranged layers') :
    (applyGlobalEqualityDeletes deletes layers).Rel Rearranged (applyGlobalEqualityDeletes deletes' layers') := by
  unfold applyGlobalEqualityDeletes
  apply foldl_related (R := OrdMap.Rel Rearranged) _ hdeletes h
  rintro s t ⟨seqnum, added⟩ ⟨seqnum', added'⟩ hst ⟨hseqnum, hadded⟩
  obtain rfl : seqnum = seqnum' := hseqnum
  apply hst.alter
  intro a b hab
  cases hab with
  | none => exact ⟨.refl _, .refl _, hadded, rfl⟩
  | some hab => exact ⟨hab.data, hab.positional, hab.equality.append hadded, hab.vectors⟩

lemma currentDvs_rearranged (h : layers.Rel Rearranged layers') : currentDvs layers = currentDvs layers' := by
  unfold currentDvs
  apply foldl_related (R := Eq) _ h rfl
  rintro dvs _ ⟨seqnum, layer⟩ ⟨seqnum', layer'⟩ rfl ⟨hseqnum, hlayer⟩
  obtain rfl : seqnum = seqnum' := hseqnum
  have hvectors : layer.dvEntries = layer'.dvEntries := hlayer.vectors
  simp only [hvectors]

lemma resolveLayer_rearranged (dvs : OrdMap Bytes (DeletionVectorInfo × SequenceNumber)) (seqnum : SequenceNumber)
    {a b : LayerWithExtraInfo} (h : Rearranged a b) :
    Agree Rearranged (resolveLayer dvs seqnum a) (resolveLayer dvs seqnum b) := by
  have hsame : resolveDataEntry dvs seqnum a = resolveDataEntry dvs seqnum b := by
    funext data
    unfold resolveDataEntry
    rw [h.equality.isEmpty_eq, h.positional.isEmpty_eq]
  unfold resolveLayer
  rw [hsame]
  split_ifs
  · exact .ok h
  · apply (mapM_perm h.data).bind
    intro data data' hdata
    exact .ok ⟨hdata, h.positional, h.equality, h.vectors⟩

lemma resolveDeletionVectors_rearranged (h : layers.Rel Rearranged layers') :
    Agree (OrdMap.Rel Rearranged) (resolveDeletionVectors layers) (resolveDeletionVectors layers') := by
  unfold resolveDeletionVectors
  rw [currentDvs_rearranged h]
  apply h.mapValsM
  exact fun seqnum a b hab => resolveLayer_rearranged _ seqnum hab

end Layers

/-! ### The optimizer -/

section Optimizer

variable {partition partition' : List LayerWithExtraInfo}

lemma canOptimizePartition_rearranged (h : List.Forall₂ Rearranged partition partition') :
    canOptimizePartition partition = canOptimizePartition partition' := by
  have hany : ∀ p : LayerWithExtraInfo → Bool, (∀ a b, Rearranged a b → p a = p b) →
      partition.any p = partition'.any p := by
    intro p hp
    induction h with
    | nil => rfl
    | cons hab _ ih => rw [List.any_cons, List.any_cons, hp _ _ hab, ih]
  unfold canOptimizePartition
  rw [hany _ (fun a b hab => by rw [hab.positional.isEmpty_eq]), hany _ (fun a b hab => hab.positional.any_eq),
    hany _ (fun a b hab => by rw [hab.equality.isEmpty_eq])]

lemma getEventsInPartition_rearranged (h : List.Forall₂ Rearranged partition partition') :
    Agree List.Perm (getEventsInPartition partition) (getEventsInPartition partition') := by
  induction h with
  | nil => exact .ok .nil
  | cons hab _ ih =>
    unfold getEventsInPartition
    apply (mapM_perm hab.positional).bind
    intro deletes deletes' hdeletes
    apply ih.bind
    intro rest rest' hrest
    exact .ok (((hdeletes.flatMap_right _).append (hab.data.map _)).append hrest)

lemma event_le_antisymm (a b : Event) (hab : a.le b) (hba : b.le a) : a = b := by
  obtain ⟨m, p⟩ := a
  obtain ⟨m', p'⟩ := b
  simp only [ScanEvent.le] at hab hba
  rcases hab with hab | ⟨hab, hrank⟩
  · rcases hba with hba | ⟨hba, -⟩
    · exact absurd hba (lt_asymm hab)
    · exact absurd hba hab.ne'
  · rcases hba with hba | ⟨-, hrank'⟩
    · exact absurd hab hba.ne'
    · have hmark : m = m' := by
        cases m <;> cases m' <;> first | rfl | (simp only [Mark.rank] at hrank hrank'; omega)
      rw [hmark, hab]

lemma findBucketLowerBounds_rearranged (h : List.Forall₂ Rearranged partition partition') :
    Agree Eq (findBucketLowerBounds partition) (findBucketLowerBounds partition') := by
  unfold findBucketLowerBounds
  apply (getEventsInPartition_rearranged h).bind
  intro events events' hevents
  rw [insertionSort_eq_of_perm event_le_antisymm hevents]
  exact .of_eq rfl

/-! ### Buckets -/

lemma appendDataFileToBucket_concat (bucket : List LayerWithExtraInfo) (back : LayerWithExtraInfo)
    (data : DataEntry) :
    appendDataFileToBucket (bucket ++ [back]) data =
      if back.positionalDeleteEntries.isEmpty then
        bucket ++ [{ back with dataEntries := back.dataEntries ++ [data] }]
      else (bucket ++ [back]) ++ [{ dataEntries := [data] }] := by
  simp [appendDataFileToBucket]

lemma appendDeleteFileToBucket_concat (bucket : List LayerWithExtraInfo) (back : LayerWithExtraInfo)
    (del : PositionalDeleteWithExtraInfo) :
    appendDeleteFileToBucket (bucket ++ [back]) del =
      bucket ++ [{ back with positionalDeleteEntries := back.positionalDeleteEntries ++ [del] }] := by
  simp [appendDeleteFileToBucket]

lemma appendDataFileToBucket_rearranged (data : DataEntry) {bucket bucket' : List LayerWithExtraInfo}
    (h : List.Forall₂ Rearranged bucket bucket') :
    List.Forall₂ Rearranged (appendDataFileToBucket bucket data) (appendDataFileToBucket bucket' data) := by
  rcases forall₂_concat h with ⟨rfl, rfl⟩ | ⟨init, back, init', back', rfl, rfl, hinit, hback⟩
  · exact bucket_equivalence.refl _
  · rw [appendDataFileToBucket_concat, appendDataFileToBucket_concat, hback.positional.isEmpty_eq]
    split_ifs
    · apply List.rel_append hinit
      exact .cons ⟨hback.data.append_right _, hback.positional, hback.equality, hback.vectors⟩ .nil
    · exact List.rel_append h (bucket_equivalence.refl _)

lemma appendDeleteFileToBucket_rearranged (del : PositionalDeleteWithExtraInfo)
    {bucket bucket' : List LayerWithExtraInfo} (h : List.Forall₂ Rearranged bucket bucket') :
    List.Forall₂ Rearranged (appendDeleteFileToBucket bucket del) (appendDeleteFileToBucket bucket' del) := by
  rcases forall₂_concat h with ⟨rfl, rfl⟩ | ⟨init, back, init', back', rfl, rfl, hinit, hback⟩
  · exact bucket_equivalence.refl _
  · rw [appendDeleteFileToBucket_concat, appendDeleteFileToBucket_concat]
    apply List.rel_append hinit
    exact .cons ⟨hback.data, hback.positional.append_right _, hback.equality, hback.vectors⟩ .nil

/-- Two entries at the end of a list, in either order. -/
lemma concat_concat_perm {α : Type} (l : List α) (a b : α) : (l ++ [a] ++ [b]).Perm (l ++ [b] ++ [a]) := by
  rw [List.append_assoc, List.append_assoc]
  exact (List.Perm.swap b a []).append_left l

lemma appendDataFileToBucket_comm (data data' : DataEntry) (bucket : List LayerWithExtraInfo) :
    List.Forall₂ Rearranged (appendDataFileToBucket (appendDataFileToBucket bucket data) data')
      (appendDataFileToBucket (appendDataFileToBucket bucket data') data) := by
  have hlast : ∀ (init : List LayerWithExtraInfo) (back : LayerWithExtraInfo),
      back.positionalDeleteEntries.isEmpty = true →
      List.Forall₂ Rearranged
        (appendDataFileToBucket (init ++ [{ back with dataEntries := back.dataEntries ++ [data] }]) data')
        (appendDataFileToBucket (init ++ [{ back with dataEntries := back.dataEntries ++ [data'] }]) data) := by
    intro init back hback
    rw [appendDataFileToBucket_concat, appendDataFileToBucket_concat, if_pos hback, if_pos hback]
    apply List.rel_append (bucket_equivalence.refl init)
    exact .cons ⟨concat_concat_perm _ _ _, .refl _, .refl _, rfl⟩ .nil
  rcases List.eq_nil_or_concat' bucket with rfl | ⟨init, back, rfl⟩
  · exact hlast [] {} rfl
  · rw [appendDataFileToBucket_concat, appendDataFileToBucket_concat]
    split_ifs with hback
    · exact hlast init back hback
    · exact hlast (init ++ [back]) {} rfl

lemma appendDeleteFileToBucket_comm (del del' : PositionalDeleteWithExtraInfo) (bucket : List LayerWithExtraInfo) :
    List.Forall₂ Rearranged (appendDeleteFileToBucket (appendDeleteFileToBucket bucket del) del')
      (appendDeleteFileToBucket (appendDeleteFileToBucket bucket del') del) := by
  have hlast : ∀ (init : List LayerWithExtraInfo) (back : LayerWithExtraInfo), List.Forall₂ Rearranged
      (appendDeleteFileToBucket
        (init ++ [{ back with positionalDeleteEntries := back.positionalDeleteEntries ++ [del] }]) del')
      (appendDeleteFileToBucket
        (init ++ [{ back with positionalDeleteEntries := back.positionalDeleteEntries ++ [del'] }]) del) := by
    intro init back
    rw [appendDeleteFileToBucket_concat, appendDeleteFileToBucket_concat]
    apply List.rel_append (bucket_equivalence.refl init)
    exact .cons ⟨.refl _, concat_concat_perm _ _ _, .refl _, rfl⟩ .nil
  rcases List.eq_nil_or_concat' bucket with rfl | ⟨init, back, rfl⟩
  · exact hlast [] {}
  · rw [appendDeleteFileToBucket_concat init back del, appendDeleteFileToBucket_concat init back del']
    exact hlast init back

/-- The bucket of both ends of the range of a delete file. -/
def bucketForDelete (bounds : List Bytes) (del : PositionalDeleteWithExtraInfo) : Except String Nat :=
  match del.minMaxReferencedPath with
  | none => .error "bad optional access"
  | some (min, max) => do
    let bucket1 ← calculateBucketByPath bounds min
    let bucket2 ← calculateBucketByPath bounds max
    ensure (bucket1 = bucket2) "RedistributeDataIntoBuckets: internal error"
    .ok bucket1

/-- A loop that puts every element into a bucket of its own choice, or fails. -/
lemma redistribute_rearranged {α : Type} (bucketFor : α → Except String Nat)
    (append : List LayerWithExtraInfo → α → List LayerWithExtraInfo)
    {put : List (List LayerWithExtraInfo) → α → Except String (List (List LayerWithExtraInfo))}
    (hput : ∀ buckets a, put buckets a = bucketFor a >>= fun group =>
      .ok (buckets.modify group (fun bucket => append bucket a)))
    (happend : ∀ a bucket bucket', List.Forall₂ Rearranged bucket bucket' →
      List.Forall₂ Rearranged (append bucket a) (append bucket' a))
    (hcomm : ∀ a b bucket, List.Forall₂ Rearranged (append (append bucket a) b) (append (append bucket b) a))
    {l l' : List α} (hl : l.Perm l') {buckets buckets' : List (List LayerWithExtraInfo)}
    (h : BucketsRearranged buckets buckets') :
    Agree BucketsRearranged (l.foldlM put buckets) (l'.foldlM put buckets') := by
  apply foldlM_perm (C := fun _ _ => True) buckets_equivalence _ (fun _ _ _ => trivial) _ hl
    (List.pairwise_of_forall (fun _ _ => trivial)) h
  · intro s t a hst
    rw [hput, hput]
    apply (Agree.of_eq rfl).bind
    rintro group _ rfl
    exact .ok (modify_related (happend a) hst group)
  · intro s a b _
    simp only [hput, bind_assoc, ok_bind]
    apply Agree.bind_swap
    intro group group' _ _
    exact .ok (modify_modify_related bucket_equivalence.refl (hcomm a b) s group group')

lemma redistributeDelete_eq (bounds : List Bytes) (buckets : List (List LayerWithExtraInfo))
    (del : PositionalDeleteWithExtraInfo) :
    redistributeDelete bounds buckets del = (bucketForDelete bounds del >>= fun group =>
      .ok (buckets.modify group (fun bucket => appendDeleteFileToBucket bucket del))) := by
  unfold redistributeDelete bucketForDelete
  cases del.minMaxReferencedPath with
  | none => rfl
  | some range => simp only [bind_assoc, ok_bind]

lemma redistributeDataIntoBuckets_rearranged (bounds : List Bytes)
    (h : List.Forall₂ Rearranged partition partition') :
    Agree BucketsRearranged (redistributeDataIntoBuckets bounds partition)
      (redistributeDataIntoBuckets bounds partition') := by
  unfold redistributeDataIntoBuckets
  apply foldlM_agree _ h (buckets_equivalence.refl _)
  intro buckets buckets' layer layer' hbuckets hlayer
  apply (redistribute_rearranged (fun data => calculateBucketByPath bounds data.path) appendDataFileToBucket
    (fun _ _ => rfl) (fun data _ _ => appendDataFileToBucket_rearranged data) appendDataFileToBucket_comm
    hlayer.data hbuckets).bind
  intro buckets buckets' hbuckets
  exact redistribute_rearranged (bucketForDelete bounds) appendDeleteFileToBucket (redistributeDelete_eq bounds)
    (fun del _ _ => appendDeleteFileToBucket_rearranged del) appendDeleteFileToBucket_comm hlayer.positional hbuckets

lemma optimizePartition_rearranged (h : List.Forall₂ Rearranged partition partition') :
    Agree BucketsRearranged (optimizePartition partition) (optimizePartition partition') := by
  unfold optimizePartition
  apply (findBucketLowerBounds_rearranged h).bind
  rintro bounds _ rfl
  exact redistributeDataIntoBuckets_rearranged bounds h

lemma optimize_rearranged {partitions partitions' : List (List LayerWithExtraInfo)}
    (h : BucketsRearranged partitions partitions') :
    Agree BucketsRearranged (optimize partitions) (optimize partitions') := by
  induction h with
  | nil => exact .ok .nil
  | @cons partition partition' partitions partitions' hpartition _ ih =>
    have hnew : Agree BucketsRearranged
        (if canOptimizePartition partition then optimizePartition partition else .ok [partition])
        (if canOptimizePartition partition' then optimizePartition partition' else .ok [partition']) := by
      rw [canOptimizePartition_rearranged hpartition]
      split_ifs
      · exact optimizePartition_rearranged hpartition
      · exact .ok (.cons hpartition .nil)
    unfold optimize
    apply hnew.bind
    intro buckets buckets' hbuckets
    apply ih.bind
    intro rest rest' hrest
    exact .ok (List.rel_append hbuckets hrest)

lemma canOptimize_rearranged {partitions partitions' : List (List LayerWithExtraInfo)}
    (h : BucketsRearranged partitions partitions') : canOptimize partitions = canOptimize partitions' := by
  unfold canOptimize
  induction h with
  | nil => rfl
  | cons hpartition _ ih => rw [List.any_cons, List.any_cons, canOptimizePartition_rearranged hpartition, ih]

end Optimizer

/-! ### The plan of the builder -/

/-- The set of paths of rearranged files. -/
lemma insertPaths_perm {data data' : List DataEntry} (h : data.Perm data') (paths : PathSet) :
    data.foldl (fun paths entry => paths.insert entry.path ()) paths =
      data'.foldl (fun paths entry => paths.insert entry.path ()) paths := by
  apply foldl_perm (C := fun _ _ => True) ⟨fun _ => rfl, Eq.symm, Eq.trans⟩ _ (fun _ _ _ => trivial) _ h
    (List.pairwise_of_forall (fun _ _ => trivial)) paths
  · rintro s _ a rfl
    rfl
  · intro s a b _
    apply OrdMap.ext_find
    intro path
    simp only [OrdMap.find?_insert]
    split_ifs <;> rfl

lemma removeDanglingInLayers_rearranged (paths : PathSet) {layers layers' : List LayerWithExtraInfo}
    (h : List.Forall₂ Rearranged layers layers') :
    List.Forall₂ SameLayer (removeDanglingInLayers paths layers) (removeDanglingInLayers paths layers') := by
  induction h generalizing paths with
  | nil => exact .nil
  | @cons a b _ _ hab _ ih =>
    simp only [removeDanglingInLayers, insertPaths_perm hab.data paths]
    set seen := b.dataEntries.foldl (fun paths data => paths.insert data.path ()) paths
    have hlayer : SameLayer
        { dataEntries := a.dataEntries
          positionalDeleteEntries := (a.positionalDeleteEntries.filter (fun posDelete =>
            !isDangling seen posDelete)).map PositionalDeleteWithExtraInfo.positionalDelete
          equalityDeleteEntries := a.equalityDeleteEntries }
        { dataEntries := b.dataEntries
          positionalDeleteEntries := (b.positionalDeleteEntries.filter (fun posDelete =>
            !isDangling seen posDelete)).map PositionalDeleteWithExtraInfo.positionalDelete
          equalityDeleteEntries := b.equalityDeleteEntries } :=
      ⟨hab.data, (hab.positional.filter _).map _, hab.equality⟩
    rw [hlayer.empty_eq]
    split_ifs
    · exact ih seen
    · exact .cons hlayer (ih seen)

lemma removeDanglingDeletes_rearranged {partitions partitions' : List (List LayerWithExtraInfo)}
    (h : BucketsRearranged partitions partitions') :
    List.Forall₂ (List.Forall₂ SameLayer) (removeDanglingDeletes partitions) (removeDanglingDeletes partitions') := by
  unfold removeDanglingDeletes
  induction h with
  | nil => exact .nil
  | @cons layers layers' _ _ hlayers _ ih =>
    have hempty : layers.all (fun layer => layer.dataEntries.isEmpty) =
        layers'.all (fun layer => layer.dataEntries.isEmpty) := by
      clear ih
      induction hlayers with
      | nil => rfl
      | cons hab _ ih => rw [List.all_cons, List.all_cons, hab.data.isEmpty_eq, ih]
    rw [List.filter_cons, List.filter_cons, hempty]
    split_ifs
    · rw [List.map_cons, List.map_cons]
      exact .cons (removeDanglingInLayers_rearranged ∅ hlayers) ih
    · exact ih

lemma getPartitions_rearranged {partitions partitions' : OrdMap Bytes (OrdMap SequenceNumber LayerWithExtraInfo)}
    (h : partitions.Rel (OrdMap.Rel Rearranged) partitions') :
    Agree (List.Forall₂ (List.Forall₂ SameLayer)) (getPartitions partitions) (getPartitions partitions') := by
  have hvec : BucketsRearranged (mapToVec partitions) (mapToVec partitions') := by
    unfold mapToVec BucketsRearranged
    rw [List.forall₂_map_left_iff, List.forall₂_map_right_iff]
    exact h.values.imp (fun _ _ hlayers => hlayers.values)
  have hoptimized : Agree BucketsRearranged
      (if canOptimize (mapToVec partitions) then optimize (mapToVec partitions) else .ok (mapToVec partitions))
      (if canOptimize (mapToVec partitions') then optimize (mapToVec partitions') else .ok (mapToVec partitions')) := by
    rw [canOptimize_rearranged hvec]
    split_ifs
    · exact optimize_rearranged hvec
    · exact .ok hvec
  unfold getPartitions
  apply hoptimized.bind
  intro buckets buckets' hbuckets
  exact .ok (removeDanglingDeletes_rearranged hbuckets)

/-- The same files in every layer, in any order. -/
structure BuilderRearranged (b b' : ScanMetadataBuilder) : Prop where
  tableMetadata : b.tableMetadata = b'.tableMetadata
  partitions : b.partitions.Rel (OrdMap.Rel Rearranged) b'.partitions
  globalEqualityDeletes : b.globalEqualityDeletes.Rel List.Perm b'.globalEqualityDeletes

lemma builder_getResult_rearranged {b b' : ScanMetadataBuilder} (h : BuilderRearranged b b') :
    Agree SamePlan b.getResult b'.getResult := by
  unfold ScanMetadataBuilder.getResult
  have hresolved : Agree (OrdMap.Rel (OrdMap.Rel Rearranged))
      (b.partitions.mapValsM (fun _ layers =>
        resolveDeletionVectors (applyGlobalEqualityDeletes b.globalEqualityDeletes layers)))
      (b'.partitions.mapValsM (fun _ layers =>
        resolveDeletionVectors (applyGlobalEqualityDeletes b'.globalEqualityDeletes layers))) := by
    apply h.partitions.mapValsM
    intro key layers layers' hlayers
    exact resolveDeletionVectors_rearranged
      (applyGlobalEqualityDeletes_rearranged h.globalEqualityDeletes hlayers)
  apply hresolved.bind
  intro partitions partitions' hpartitions
  apply (getPartitions_rearranged hpartitions).bind
  intro plan plan' hplan
  exact .ok ⟨by rw [h.tableMetadata], hplan⟩

/-! ### The rewrite -/

/-- The maps of `HandlePartition` over rearranged layers. -/
structure MapsRearranged (maps maps' : PartitionMaps) : Prop where
  data : maps.dataFileNameToDataEntry = maps'.dataFileNameToDataEntry
  positional : maps.dataFileNameToPosdelEntries.Rel List.Perm maps'.dataFileNameToPosdelEntries

lemma maps_equivalence : Equivalence MapsRearranged where
  refl _ := ⟨rfl, OrdMap.Rel.refl List.Perm.refl _⟩
  symm h := ⟨h.data.symm, h.positional.symm (fun _ _ => List.Perm.symm)⟩
  trans h h' := ⟨h.data.trans h'.data, h.positional.trans (fun _ _ _ => List.Perm.trans) h'.positional⟩

lemma collectDataEntry_eq (layerNo : Nat) (maps : PartitionMaps) (data : DataEntry) :
    collectDataEntry layerNo maps data =
      (maps.dataFileNameToDataEntry.insertNew data.path (data, layerNo)
        ("Error in iceberg metadata. There are at least two data entries with path " ++ text data.path) >>= fun m =>
          .ok { maps with dataFileNameToDataEntry := m }) := by
  unfold collectDataEntry OrdMap.insertNew
  split_ifs <;> rfl

lemma collectDataEntries_rearranged (layerNo : Nat) {data data' : List DataEntry} (hdata : data.Perm data')
    {maps maps' : PartitionMaps} (h : MapsRearranged maps maps') :
    Agree MapsRearranged (data.foldlM (collectDataEntry layerNo) maps)
      (data'.foldlM (collectDataEntry layerNo) maps') := by
  apply foldlM_perm (C := fun _ _ => True) maps_equivalence _ (fun _ _ _ => trivial) _ hdata
    (List.pairwise_of_forall (fun _ _ => trivial)) h
  · intro s t a hst
    unfold collectDataEntry
    rw [hst.data]
    split_ifs
    · exact .error _ _
    · exact .ok ⟨rfl, hst.positional⟩
  · intro s a b _
    simp only [collectDataEntry_eq, bind_assoc, ok_bind]
    rw [← bind_assoc, ← bind_assoc]
    apply (OrdMap.insertNew_comm _ _ _ _ _ _ _).bind
    rintro m _ rfl
    exact .ok (maps_equivalence.refl _)

lemma collectDelEntries_rearranged (referenced : OrdMap Bytes Bytes) (layerNo : Nat)
    {dels dels' : List PositionalDeleteInfo} (hdels : dels.Perm dels') {maps maps' : PartitionMaps}
    (h : MapsRearranged maps maps') :
    Agree MapsRearranged (dels.foldlM (collectDelEntry referenced layerNo) maps)
      (dels'.foldlM (collectDelEntry referenced layerNo) maps') := by
  apply foldlM_perm (C := fun _ _ => True) maps_equivalence _ (fun _ _ _ => trivial) _ hdels
    (List.pairwise_of_forall (fun _ _ => trivial)) h
  · intro s t del hst
    unfold collectDelEntry
    cases referenced.find? del.path with
    | none => exact .error _ _
    | some dataPath =>
      refine .ok ⟨hst.data, hst.positional.alter ?_ dataPath⟩
      intro deletes deletes' hdeletes
      cases hdeletes with
      | none => exact .refl _
      | some hdeletes => exact hdeletes.append_right _
  · intro s a b _
    unfold collectDelEntry
    cases referenced.find? a.path with
    | none =>
      cases referenced.find? b.path with
      | none => exact .error _ _
      | some dataPath' => exact .error _ _
    | some dataPath =>
      cases referenced.find? b.path with
      | none => exact .error _ _
      | some dataPath' =>
        refine .ok ⟨rfl, OrdMap.rel_alter_comm List.Perm.refl _ ?_⟩
        rintro - deletes
        exact concat_concat_perm _ _ _

lemma zipIdx_related {α β : Type} {R : α → β → Prop} {l : List α} {l' : List β} (h : List.Forall₂ R l l') (k : Nat) :
    List.Forall₂ (fun p q => R p.1 q.1 ∧ p.2 = q.2) (l.zipIdx k) (l'.zipIdx k) := by
  induction h generalizing k with
  | nil => exact .nil
  | cons hab _ ih => exact .cons ⟨hab, rfl⟩ (ih (k + 1))

lemma emitDataEntry_rearranged {maps maps' : PartitionMaps} (hmaps : MapsRearranged maps maps')
    {partitions partitions' : List Partition} (h : List.Forall₂ (List.Forall₂ SameLayer) partitions partitions')
    (entry : Bytes × DataEntry × Nat) :
    List.Forall₂ (List.Forall₂ SameLayer) (emitDataEntry maps partitions entry)
      (emitDataEntry maps' partitions' entry) := by
  obtain ⟨dataPath, dataEntry, dataLayerNo⟩ := entry
  have hown : ∀ deletes deletes' : List (PositionalDeleteInfo × Nat), deletes.Perm deletes' →
      List.Forall₂ (List.Forall₂ SameLayer)
        (partitions ++ [[{
          dataEntries := [dataEntry]
          positionalDeleteEntries := (deletes.filter (fun p => !decide (p.2 < dataLayerNo))).map Prod.fst }]])
        (partitions' ++ [[{
          dataEntries := [dataEntry]
          positionalDeleteEntries := (deletes'.filter (fun p => !decide (p.2 < dataLayerNo))).map Prod.fst }]]) := by
    intro deletes deletes' hdeletes
    apply List.rel_append h
    exact .cons (.cons ⟨.refl _, (hdeletes.filter _).map _, .refl _⟩ .nil) .nil
  have hfind := OrdMap.rel_iff_find.mp hmaps.positional dataPath
  unfold emitDataEntry
  simp only
  generalize maps.dataFileNameToPosdelEntries.find? dataPath = found at hfind
  generalize maps'.dataFileNameToPosdelEntries.find? dataPath = found' at hfind
  cases hfind with
  | some hdeletes => exact hown _ _ hdeletes
  | none =>
    cases hdv : dataEntry.dv with
    | some dv => exact hown [] [] (.refl _)
    | none =>
      apply modify_related _ h
      intro partition partition' hpartition
      apply modify_related _ hpartition
      intro layer layer' hlayer
      exact ⟨hlayer.data.append_right _, hlayer.positional, hlayer.equality⟩

lemma handlePartition_rearranged (referenced : OrdMap Bytes Bytes) {partitions partitions' : List Partition}
    (h : List.Forall₂ (List.Forall₂ SameLayer) partitions partitions') {part part' : Partition}
    (hpart : List.Forall₂ SameLayer part part') :
    Agree (List.Forall₂ (List.Forall₂ SameLayer)) (handlePartition referenced partitions part)
      (handlePartition referenced partitions' part') := by
  unfold handlePartition
  have hcollected : Agree MapsRearranged (part.zipIdx.foldlM (collectLayer referenced) {})
      (part'.zipIdx.foldlM (collectLayer referenced) {}) := by
    apply foldlM_agree _ (zipIdx_related hpart 0) (maps_equivalence.refl _)
    rintro maps maps' ⟨layer, layerNo⟩ ⟨layer', layerNo'⟩ hmaps ⟨hlayer, hno⟩
    obtain rfl : layerNo = layerNo' := hno
    unfold collectLayer
    apply (collectDataEntries_rearranged layerNo hlayer.data hmaps).bind
    intro maps maps' hmaps
    exact collectDelEntries_rearranged referenced layerNo hlayer.positional hmaps
  apply hcollected.bind
  intro maps maps' hmaps
  rw [hmaps.data]
  apply Agree.ok
  apply foldl_related (S := Eq) _ (List.forall₂_same.mpr (fun _ _ => rfl)) h
  rintro s t entry _ hst rfl
  exact emitDataEntry_rearranged hmaps hst entry

lemma eraseEmptyFirst_rearranged {partitions partitions' : List Partition}
    (h : List.Forall₂ (List.Forall₂ SameLayer) partitions partitions') :
    List.Forall₂ (List.Forall₂ SameLayer) (eraseEmptyFirst partitions) (eraseEmptyFirst partitions') := by
  cases h with
  | nil => exact .nil
  | cons hpartition hrest =>
    cases hpartition with
    | nil => exact .cons .nil hrest
    | cons hlayer hlayers =>
      simp only [eraseEmptyFirst]
      rw [hlayer.data.isEmpty_eq]
      split_ifs
      · exact hrest
      · exact .cons (.cons hlayer hlayers) hrest

/-- The same notes about the deletes, and the same files in any order. -/
structure PlannerRearranged (p p' : ReferencedDataFileAwareScanPlanner) : Prop where
  builder : BuilderRearranged p.builder p'.builder
  referenced : p.deleteFilePathToReferencedDataFilePath = p'.deleteFilePathToReferencedDataFilePath
  allAnnotated : p.allPosDeletesAnnotatedWithReferencedDataFile = p'.allPosDeletesAnnotatedWithReferencedDataFile
  equality : p.hasEqualityDelete = p'.hasEqualityDelete
  annotated : p.hasReferencedDataFile = p'.hasReferencedDataFile

/-- The plans of planners whose files were stored in different orders. -/
lemma planner_getResult_rearranged {p p' : ReferencedDataFileAwareScanPlanner} (h : PlannerRearranged p p') :
    Agree SamePlan p.getResult p'.getResult := by
  unfold ReferencedDataFileAwareScanPlanner.getResult
  rw [h.referenced, h.allAnnotated, h.equality, h.annotated]
  apply (builder_getResult_rearranged h.builder).bind
  intro plan plan' hplan
  split_ifs
  · exact .ok hplan
  · exact .ok hplan
  · exact .ok hplan
  · have hrewritten : Agree (List.Forall₂ (List.Forall₂ SameLayer))
        (plan.partitions.foldlM (handlePartition p'.deleteFilePathToReferencedDataFilePath) [[{}]])
        (plan'.partitions.foldlM (handlePartition p'.deleteFilePathToReferencedDataFilePath) [[{}]]) := by
      apply foldlM_agree _ hplan.partitions
      · exact .cons (.cons ⟨.refl _, .refl _, .refl _⟩ .nil) .nil
      · intro s t part part' hst hpart
        exact handlePartition_rearranged _ hst hpart
    apply hrewritten.bind
    intro partitions partitions' hpartitions
    exact .ok ⟨hplan.schema, eraseEmptyFirst_rearranged hpartitions⟩

end IcebergCxx.Proofs

import IcebergCxx.Proofs.Builder

/-!
# From the builder's contents to the plan

The steps of `GetResult` on one partition: the fan-out of global equality deletes, the
resolution of deletion vectors, the optimizer and the removal of dangling deletes, each in
terms of what reaches a data file.
-/

namespace IcebergCxx.Proofs

open Lib

/-! ### Global equality deletes -/

/-- The deletion vector a partition has at a level for a path. -/
def dvAt (layers : OrdMap SequenceNumber LayerWithExtraInfo) (level : Int) (path : Bytes) :
    Option DeletionVectorInfo :=
  ((layers.find? level).getD {}).dvEntries.find? path

/-- One step of the fan-out. -/
def addEqualityAt (layers : OrdMap SequenceNumber LayerWithExtraInfo)
    (p : SequenceNumber × List EqualityDeleteInfo) : OrdMap SequenceNumber LayerWithExtraInfo :=
  layers.alter p.1 (fun layer =>
    { layer.getD {} with equalityDeleteEntries := (layer.getD {}).equalityDeleteEntries ++ p.2 })

lemma applyGlobalEqualityDeletes_eq (global : OrdMap SequenceNumber (List EqualityDeleteInfo))
    (layers : OrdMap SequenceNumber LayerWithExtraInfo) :
    applyGlobalEqualityDeletes global layers = global.entries.foldl addEqualityAt layers := rfl

lemma locate_addEqualityAt {X : Type} {f : LayerWithExtraInfo → Multiset X} (hf : f {} = 0)
    (layers : OrdMap SequenceNumber LayerWithExtraInfo) (p : SequenceNumber × List EqualityDeleteInfo)
    {x : Multiset X} (hx : ∀ layer : LayerWithExtraInfo,
      f { layer with equalityDeleteEntries := layer.equalityDeleteEntries ++ p.2 } = f layer + x) :
    locate f (addEqualityAt layers p).entries = locate f layers.entries + x.map (Prod.mk p.1) := by
  refine locate_alter f layers p.1 _ x ?_
  rw [hx]
  cases layers.find? p.1 with
  | none => simp [hf]
  | some layer => rfl

/-- The fan-out adds the global deletes and leaves everything else alone. -/
lemma locate_foldl_addEqualityAt (global : List (SequenceNumber × List EqualityDeleteInfo))
    (layers : OrdMap SequenceNumber LayerWithExtraInfo) :
    locate (fun layer => (layer.dataEntries : Multiset DataEntry)) (global.foldl addEqualityAt layers).entries =
      locate (fun layer => (layer.dataEntries : Multiset DataEntry)) layers.entries ∧
    locate (fun layer => (layer.positionalDeleteEntries : Multiset PositionalDeleteWithExtraInfo))
        (global.foldl addEqualityAt layers).entries =
      locate (fun layer => (layer.positionalDeleteEntries : Multiset PositionalDeleteWithExtraInfo)) layers.entries ∧
    locate (fun layer => (layer.equalityDeleteEntries : Multiset EqualityDeleteInfo))
        (global.foldl addEqualityAt layers).entries =
      locate (fun layer => (layer.equalityDeleteEntries : Multiset EqualityDeleteInfo)) layers.entries +
        locate (fun deletes : List EqualityDeleteInfo => (deletes : Multiset EqualityDeleteInfo)) global := by
  induction global generalizing layers with
  | nil => exact ⟨rfl, rfl, (add_zero _).symm⟩
  | cons p global ih =>
    obtain ⟨h1, h2, h3⟩ := ih (addEqualityAt layers p)
    rw [List.foldl_cons, h1, h2, h3]
    refine ⟨?_, ?_, ?_⟩
    · rw [locate_addEqualityAt (by rfl) layers p (x := 0) (fun layer => (add_zero _).symm), Multiset.map_zero, add_zero]
    · rw [locate_addEqualityAt (by rfl) layers p (x := 0) (fun layer => (add_zero _).symm), Multiset.map_zero, add_zero]
    · rw [locate_addEqualityAt (by rfl) layers p (x := p.2) (fun layer => (Multiset.coe_add _ _).symm), add_assoc]
      rfl

lemma dvAt_foldl_addEqualityAt (global : List (SequenceNumber × List EqualityDeleteInfo))
    (layers : OrdMap SequenceNumber LayerWithExtraInfo) (level : Int) (path : Bytes) :
    dvAt (global.foldl addEqualityAt layers) level path = dvAt layers level path := by
  induction global generalizing layers with
  | nil => rfl
  | cons p global ih =>
    rw [List.foldl_cons, ih]
    unfold dvAt addEqualityAt
    rw [OrdMap.find?_alter]
    split_ifs with h
    · rw [h]; rfl
    · rfl

/-! ### Deletion vectors -/

/-- The vector of the last layer that has one for the path. -/
def lastDv (layers : List (SequenceNumber × LayerWithExtraInfo)) (path : Bytes) :
    Option (DeletionVectorInfo × SequenceNumber) :=
  layers.foldl (fun acc p => ((p.2.dvEntries.find? path).map (fun dv => (dv, p.1))).or acc) none

lemma find?_currentDvs (layers : OrdMap SequenceNumber LayerWithExtraInfo) (path : Bytes) :
    (currentDvs layers).find? path = lastDv layers.entries path := by
  have hfold : ∀ (l : List (SequenceNumber × LayerWithExtraInfo))
      (m : OrdMap Bytes (DeletionVectorInfo × SequenceNumber)),
      (l.foldl (fun dvs p => p.2.dvEntries.entries.foldl (fun dvs q => dvs.insert q.1 (q.2, p.1)) dvs) m).find? path =
        l.foldl (fun acc p => ((p.2.dvEntries.find? path).map (fun dv => (dv, p.1))).or acc) (m.find? path) := by
    intro l
    induction l with
    | nil => intro m; rfl
    | cons p l ih =>
      intro m
      rw [List.foldl_cons, ih, List.foldl_cons,
        OrdMap.find?_foldl_insert (fun dv => (dv, p.1)) _ p.2.dvEntries.sorted]
      rfl
  exact hfold layers.entries ∅

lemma lastDv_spec {layers : List (SequenceNumber × LayerWithExtraInfo)}
    (hl : layers.Pairwise (fun a b => a.1 < b.1)) (path : Bytes) :
    (lastDv layers path = none → ∀ p ∈ layers, p.2.dvEntries.find? path = none) ∧
    (∀ dv level, lastDv layers path = some (dv, level) →
      (∃ p ∈ layers, p.1 = level ∧ p.2.dvEntries.find? path = some dv) ∧
      ∀ p ∈ layers, level < p.1 → p.2.dvEntries.find? path = none) := by
  induction layers using List.reverseRecOn with
  | nil => exact ⟨fun _ p hp => absurd hp List.not_mem_nil, fun dv level h => by cases h⟩
  | append_singleton layers q ih =>
    obtain ⟨hl', -, hq⟩ := List.pairwise_append.mp hl
    obtain ⟨ih1, ih2⟩ := ih hl'
    have hstep : lastDv (layers ++ [q]) path =
        ((q.2.dvEntries.find? path).map (fun dv => (dv, q.1))).or (lastDv layers path) := by
      rw [lastDv, List.foldl_append]
      rfl
    rw [hstep]
    cases hdv : q.2.dvEntries.find? path with
    | none =>
      rw [Option.map_none, Option.none_or]
      refine ⟨fun h p hp => ?_, fun dv level h => ⟨?_, fun p hp hlt => ?_⟩⟩
      · rcases List.mem_append.mp hp with hp | hp
        · exact ih1 h p hp
        · rw [List.mem_singleton.mp hp]; exact hdv
      · obtain ⟨p, hp, he⟩ := (ih2 dv level h).1
        exact ⟨p, List.mem_append_left _ hp, he⟩
      · rcases List.mem_append.mp hp with hp | hp
        · exact (ih2 dv level h).2 p hp hlt
        · rw [List.mem_singleton.mp hp]; exact hdv
    | some dv₀ =>
      rw [Option.map_some, Option.some_or]
      refine ⟨(fun h => by cases h), fun dv level h => ?_⟩
      cases h
      refine ⟨⟨q, by simp, rfl, hdv⟩, fun p hp hlt => ?_⟩
      rcases List.mem_append.mp hp with hp | hp
      · exact absurd hlt (not_lt.mpr (hq p hp q List.mem_cons_self).le)
      · rw [List.mem_singleton.mp hp] at hlt
        exact absurd hlt (lt_irrefl _)

/-- The current vector of a path is the one at the greatest level. -/
lemma find?_currentDvs_eq_none {layers : OrdMap SequenceNumber LayerWithExtraInfo} {path : Bytes}
    (h : (currentDvs layers).find? path = none) (level : Int) : dvAt layers level path = none := by
  rw [find?_currentDvs] at h
  unfold dvAt
  cases hf : layers.find? level with
  | none => rfl
  | some layer => exact (lastDv_spec layers.sorted path).1 h (level, layer) ((layers.mem_entries _ _).mpr hf)

lemma find?_currentDvs_eq_some {layers : OrdMap SequenceNumber LayerWithExtraInfo} {path : Bytes}
    {dv : DeletionVectorInfo} {level : Int} (h : (currentDvs layers).find? path = some (dv, level)) :
    dvAt layers level path = some dv ∧ ∀ level', level < level' → dvAt layers level' path = none := by
  rw [find?_currentDvs] at h
  obtain ⟨⟨p, hp, rfl, hdv⟩, hlate⟩ := (lastDv_spec layers.sorted path).2 dv level h
  refine ⟨?_, fun level' hlt => ?_⟩
  · unfold dvAt
    rw [(layers.mem_entries p.1 p.2).mp hp]
    exact hdv
  · unfold dvAt
    cases hf : layers.find? level' with
    | none => rfl
    | some layer => exact hlate (level', layer) ((layers.mem_entries _ _).mpr hf) hlt

/-- A data entry after the resolution of deletion vectors. -/
def resolvedEntry (dvs : OrdMap Bytes (DeletionVectorInfo × SequenceNumber)) (level : Int) (data : DataEntry) :
    DataEntry :=
  match dvs.find? data.path with
  | none => data
  | some (dv, dvLevel) => if level > dvLevel then data else { data with dv := some dv }

lemma resolveDataEntry_ok {dvs : OrdMap Bytes (DeletionVectorInfo × SequenceNumber)} {level : Int}
    {layer : LayerWithExtraInfo} {data data' : DataEntry} (h : resolveDataEntry dvs level layer data = .ok data') :
    data' = resolvedEntry dvs level data := by
  unfold resolveDataEntry at h
  unfold resolvedEntry
  cases hf : dvs.find? data.path with
  | none =>
    simp only [hf, Except.ok.injEq] at h
    exact h.symm
  | some found =>
    obtain ⟨dv, dvLevel⟩ := found
    simp only [hf] at h ⊢
    split_ifs at h ⊢ with hl
    · exact (Except.ok.inj h).symm
    · obtain ⟨-, -, h⟩ := bind_ok h
      obtain ⟨-, -, h⟩ := bind_ok h
      exact (Except.ok.inj h).symm

lemma resolveLayer_ok {dvs : OrdMap Bytes (DeletionVectorInfo × SequenceNumber)} {level : Int}
    {layer layer' : LayerWithExtraInfo} (h : resolveLayer dvs level layer = .ok layer') :
    layer' = { layer with dataEntries := layer.dataEntries.map (resolvedEntry dvs level) } := by
  unfold resolveLayer at h
  split_ifs at h with he
  · cases h
    have hid : layer.dataEntries.map (resolvedEntry dvs level) = layer.dataEntries := by
      refine (List.map_congr_left (fun d _ => ?_)).trans (List.map_id _)
      have hn : dvs.find? d.path = none := by
        rw [OrdMap.find?, List.isEmpty_iff.mp he]
        rfl
      simp [resolvedEntry, hn]
    rw [hid]
  · obtain ⟨data, hd, h⟩ := bind_ok h
    cases h
    have hall := mapM_ok_iff.mp hd
    have hdata : data = layer.dataEntries.map (resolvedEntry dvs level) := by
      refine List.forall₂_eq_eq_eq ▸ ?_
      rw [List.forall₂_map_right_iff]
      exact hall.flip.imp (fun _ _ hr => resolveDataEntry_ok hr)
    rw [hdata]

/-! ### One partition -/

lemma locate_map_snd {K V W X : Type} (f : W → Multiset X) (g : V → W) (l : List (K × V)) :
    locate f (l.map (fun p => (p.1, g p.2))) = locate (fun v => f (g v)) l := by
  induction l with
  | nil => rfl
  | cons p l ih => rw [List.map_cons, locate, ih]; rfl

/-- What reaches the data files of a map of layers, by level. -/
lemma layersReach_values (layers : OrdMap SequenceNumber LayerWithExtraInfo) :
    layersReach layers.values =
      (locate (fun layer => (layer.dataEntries : Multiset DataEntry)) layers.entries).map (fun p =>
        ⟨p.2, ((locate (fun layer => (layer.positionalDeleteEntries : Multiset PositionalDeleteWithExtraInfo))
            layers.entries).filter (fun q => p.1 ≤ q.1)).map Prod.snd,
          ((locate (fun layer => (layer.equalityDeleteEntries : Multiset EqualityDeleteInfo))
            layers.entries).filter (fun q => p.1 ≤ q.1)).map Prod.snd⟩) := by
  have hs : (layers.entries.map (fun p => (p.1, tierOf p.2))).Pairwise (fun a b => a.1 < b.1) := by
    rw [List.pairwise_map]
    exact layers.sorted
  have hr := reach_sorted hs
  rw [locate_map_snd, locate_map_snd, locate_map_snd, List.map_map] at hr
  rw [layersReach, OrdMap.values, List.map_map]
  exact hr

/-- The resolution of deletion vectors changes data entries only. -/
lemma locate_resolved {dvs : OrdMap Bytes (DeletionVectorInfo × SequenceNumber)}
    {l l' : List (SequenceNumber × LayerWithExtraInfo)}
    (h : List.Forall₂ (fun p q => q.1 = p.1 ∧ resolveLayer dvs p.1 p.2 = .ok q.2) l l') :
    locate (fun layer => (layer.dataEntries : Multiset DataEntry)) l' =
      (locate (fun layer => (layer.dataEntries : Multiset DataEntry)) l).map (fun p =>
        (p.1, resolvedEntry dvs p.1 p.2)) ∧
    locate (fun layer => (layer.positionalDeleteEntries : Multiset PositionalDeleteWithExtraInfo)) l' =
      locate (fun layer => (layer.positionalDeleteEntries : Multiset PositionalDeleteWithExtraInfo)) l ∧
    locate (fun layer => (layer.equalityDeleteEntries : Multiset EqualityDeleteInfo)) l' =
      locate (fun layer => (layer.equalityDeleteEntries : Multiset EqualityDeleteInfo)) l := by
  induction h with
  | nil => exact ⟨rfl, rfl, rfl⟩
  | @cons p q l l' hpq _ ih =>
    obtain ⟨k, layer⟩ := p
    obtain ⟨k', layer'⟩ := q
    obtain ⟨h1, h2, h3⟩ := ih
    simp only at hpq
    obtain ⟨rfl, hr⟩ := hpq
    obtain rfl := resolveLayer_ok hr
    simp only [locate, h1, h2, h3, Multiset.map_add, Multiset.map_map, ← Multiset.map_coe, and_true]
    rfl

/-- The partition `GetResult` makes of the layers of one key. -/
def finishPartition (global : OrdMap SequenceNumber (List EqualityDeleteInfo))
    (layers : OrdMap SequenceNumber LayerWithExtraInfo) :
    Except String (OrdMap SequenceNumber LayerWithExtraInfo) :=
  resolveDeletionVectors (applyGlobalEqualityDeletes global layers)

/-- What reaches a data file at a level of a partition, before the optimizer. -/
def partitionItem (global : OrdMap SequenceNumber (List EqualityDeleteInfo))
    (layers : OrdMap SequenceNumber LayerWithExtraInfo) (p : SequenceNumber × DataEntry) :
    Reach DataEntry PositionalDeleteWithExtraInfo EqualityDeleteInfo :=
  ⟨resolvedEntry (currentDvs (applyGlobalEqualityDeletes global layers)) p.1 p.2,
    ((locate (fun layer => (layer.positionalDeleteEntries : Multiset PositionalDeleteWithExtraInfo))
      layers.entries).filter (fun q => p.1 ≤ q.1)).map Prod.snd,
    ((locate (fun layer => (layer.equalityDeleteEntries : Multiset EqualityDeleteInfo)) layers.entries +
      locate (fun deletes : List EqualityDeleteInfo => (deletes : Multiset EqualityDeleteInfo)) global.entries).filter
        (fun q => p.1 ≤ q.1)).map Prod.snd⟩

lemma layersReach_finishPartition {global : OrdMap SequenceNumber (List EqualityDeleteInfo)}
    {layers layers' : OrdMap SequenceNumber LayerWithExtraInfo} (h : finishPartition global layers = .ok layers') :
    layersReach layers'.values =
      (locate (fun layer => (layer.dataEntries : Multiset DataEntry)) layers.entries).map
        (partitionItem global layers) := by
  obtain ⟨h1, h2, h3⟩ := locate_resolved (OrdMap.mapValsM_ok h)
  obtain ⟨g1, g2, g3⟩ := locate_foldl_addEqualityAt global.entries layers
  rw [layersReach_values, h1, h2, h3, applyGlobalEqualityDeletes_eq, g1, g2, g3, Multiset.map_map]
  rfl

/-! ### All partitions -/

/-- What reaches a data file at a key and level of the builder, before the optimizer. -/
def builderItem (b : ScanMetadataBuilder) (p : Bytes × Int × DataEntry) :
    Reach DataEntry PositionalDeleteWithExtraInfo EqualityDeleteInfo :=
  partitionItem b.globalEqualityDeletes ((b.partitions.find? p.1).getD ∅) p.2

lemma sum_layersReach {b : ScanMetadataBuilder} {l : List (Bytes × OrdMap SequenceNumber LayerWithExtraInfo)}
    {l' : List (Bytes × OrdMap SequenceNumber LayerWithExtraInfo)}
    (h : List.Forall₂ (fun p q => q.1 = p.1 ∧ finishPartition b.globalEqualityDeletes p.2 = .ok q.2) l l')
    (hl : ∀ p ∈ l, b.partitions.find? p.1 = some p.2) :
    ((l'.map (fun q => q.2.values)).map layersReach).sum =
      (locate (fun layers => locate (fun layer => (layer.dataEntries : Multiset DataEntry)) layers.entries) l).map
        (builderItem b) := by
  induction h with
  | nil => rfl
  | @cons p q l l' hpq _ ih =>
    rw [List.map_cons, List.map_cons, List.sum_cons, ih (fun r hr => hl r (List.mem_cons_of_mem _ hr)),
      layersReach_finishPartition hpq.2, locate, Multiset.map_add, Multiset.map_map]
    congr 1
    refine Multiset.map_congr rfl (fun x _ => ?_)
    simp only [Function.comp_apply, builderItem, hl p List.mem_cons_self, Option.getD_some]

/-- The partitions handed to the optimizer, as a whole. -/
lemma sum_layersReach_mapToVec {b : ScanMetadataBuilder}
    {partitions : OrdMap Bytes (OrdMap SequenceNumber LayerWithExtraInfo)}
    (h : b.partitions.mapValsM (fun _ layers => finishPartition b.globalEqualityDeletes layers) = .ok partitions) :
    ((mapToVec partitions).map layersReach).sum = (dataContents b).map (builderItem b) := by
  have hs := sum_layersReach (OrdMap.mapValsM_ok h) (fun p hp => (b.partitions.mem_entries p.1 p.2).mp hp)
  rw [List.map_map] at hs
  rw [mapToVec, OrdMap.values, List.map_map, List.map_map]
  exact hs

/-! ### The optimizer -/

/-- A data file keeps its entry and equality deletes, and of its positional deletes at least
those in range of its path. -/
structure Keeps (before after : Reach DataEntry PositionalDeleteWithExtraInfo EqualityDeleteInfo) : Prop where
  item : after.item = before.item
  second : after.second = before.second
  first_le : after.first ≤ before.first
  le_first : before.first.filter (fun del => covers del before.item.path = true) ≤ after.first

lemma Keeps.refl (r : Reach DataEntry PositionalDeleteWithExtraInfo EqualityDeleteInfo) : Keeps r r :=
  ⟨rfl, rfl, le_rfl, Multiset.filter_le _ _⟩

lemma SameMeaning.keeps {partition : List LayerWithExtraInfo} {buckets : List (List LayerWithExtraInfo)}
    (h : SameMeaning partition buckets) :
    Multiset.Rel Keeps (layersReach partition) (buckets.map layersReach).sum := by
  refine h.reached.mono (fun r _ r' _ hr => ?_)
  obtain ⟨hitem, hsecond, hle, hcount⟩ := hr
  refine ⟨hitem, hsecond, hle, Multiset.le_iff_count.mpr (fun del => ?_)⟩
  rw [Multiset.count_filter]
  split_ifs with hc
  · exact (hcount del hc).ge
  · exact Nat.zero_le _

/-- Every delete with a range has one that is not inverted. -/
def RangesOrdered (layers : List LayerWithExtraInfo) : Prop :=
  ∀ del ∈ deletesOf layers, ∀ min max, del.minMaxReferencedPath = some (min, max) → min ≤ max

lemma wellBounded_of_canOptimizePartition {layers : List LayerWithExtraInfo} (h : RangesOrdered layers)
    (hcan : canOptimizePartition layers = true) : ∀ del ∈ deletesOf layers, WellBounded del := by
  intro del hdel
  obtain ⟨⟨min, max⟩, hr⟩ := Option.isSome_iff_exists.mp ((canOptimizePartition_iff.mp hcan).2.1 del hdel)
  exact ⟨min, max, hr, h del hdel min max hr⟩

lemma optimize_keeps {partitions result : List (List LayerWithExtraInfo)} (hr : ∀ p ∈ partitions, RangesOrdered p)
    (h : optimize partitions = .ok result) :
    Multiset.Rel Keeps (partitions.map layersReach).sum (result.map layersReach).sum := by
  obtain ⟨pieces, rfl, hp⟩ := optimize_ok_iff.mp h
  clear h
  induction hp with
  | nil => exact .zero
  | @cons partition piece partitions pieces hpiece _ ih =>
    rw [List.map_cons, List.sum_cons, List.flatten_cons, List.map_append, List.sum_append]
    refine Multiset.Rel.add ?_ (ih (fun p hp => hr p (List.mem_cons_of_mem _ hp)))
    split_ifs at hpiece with hcan
    · obtain ⟨buckets, hb, hmean⟩ := optimizePartition_sameMeaning (canOptimizePartition_iff.mp hcan).2.2
        (wellBounded_of_canOptimizePartition (hr partition List.mem_cons_self) hcan)
      rw [hb] at hpiece
      cases hpiece
      exact hmean.keeps
    · cases hpiece
      simpa using Multiset.rel_refl_of_refl_on (fun r _ => Keeps.refl r)

/-- Whatever the ranges, the optimizer gives no data file a delete it did not have. -/
lemma optimize_shrinks {partitions result : List (List LayerWithExtraInfo)} (h : optimize partitions = .ok result) :
    Multiset.Rel (fun before after => after.item = before.item ∧ after.second = before.second ∧
      after.first ≤ before.first) (partitions.map layersReach).sum (result.map layersReach).sum := by
  obtain ⟨pieces, rfl, hp⟩ := optimize_ok_iff.mp h
  clear h
  induction hp with
  | nil => exact .zero
  | @cons partition piece partitions pieces hpiece _ ih =>
    rw [List.map_cons, List.sum_cons, List.flatten_cons, List.map_append, List.sum_append]
    refine Multiset.Rel.add ?_ ih
    split_ifs at hpiece with hcan
    · exact optimizePartition_shrinks (canOptimizePartition_iff.mp hcan).2.2 hpiece
    · cases hpiece
      simpa using Multiset.rel_refl_of_refl_on (fun r _ => ⟨rfl, rfl, le_rfl⟩)

/-- The optimizer adds no delete. -/
lemma mem_deletesOf_of_optimize {partitions result : List (List LayerWithExtraInfo)}
    (h : optimize partitions = .ok result) {bucket : List LayerWithExtraInfo} (hb : bucket ∈ result)
    {del : PositionalDeleteWithExtraInfo} (hdel : del ∈ deletesOf bucket) :
    ∃ partition ∈ partitions, del ∈ deletesOf partition := by
  obtain ⟨pieces, rfl, hp⟩ := optimize_ok_iff.mp h
  obtain ⟨piece, hpiece, hbucket⟩ := List.mem_flatten.mp hb
  clear h hb
  induction hp with
  | nil => exact absurd hpiece List.not_mem_nil
  | @cons partition piece' partitions pieces hstep _ ih =>
    rcases List.mem_cons.mp hpiece with rfl | hpiece
    · refine ⟨partition, List.mem_cons_self, ?_⟩
      split_ifs at hstep
      · obtain ⟨bounds, -, hr⟩ := bind_ok hstep
        obtain ⟨-, rfl⟩ := redistributeDataIntoBuckets_inv hr
        rw [foldl_appendToBucket_eq] at hbucket
        obtain ⟨i, -, rfl⟩ := List.mem_map.mp hbucket
        rw [← Multiset.mem_coe, bucketAt, (layersReach_foldl_appendOp _).2.2, mem_opDeletes] at hdel
        exact mem_opsOf_inr.mp (List.mem_filter.mp hdel).1
      · cases hstep
        rwa [List.mem_singleton.mp hbucket] at hdel
    · obtain ⟨q, hq, hd⟩ := ih hpiece
      exact ⟨q, List.mem_cons_of_mem _ hq, hd⟩

/-! ### Dangling deletes -/

/-- The layers of the plan as tiers. -/
def planTier (layer : Layer) : Tier DataEntry PositionalDeleteInfo EqualityDeleteInfo :=
  ⟨layer.dataEntries, layer.positionalDeleteEntries, layer.equalityDeleteEntries⟩

/-- Every data file of a plan with the deletes in its partition at its layer or a later one. -/
def planReach (partitions : List Partition) : Multiset (Reach DataEntry PositionalDeleteInfo EqualityDeleteInfo) :=
  (partitions.map (fun partition => reach (partition.map planTier))).sum

lemma isDangling_of_covers {dataPaths : PathSet} {del : PositionalDeleteWithExtraInfo} {path : Bytes}
    (hpath : path ∈ dataPaths.keys) (h : covers del path = true) : isDangling dataPaths del = false := by
  unfold covers at h
  unfold isDangling
  cases hr : del.minMaxReferencedPath with
  | none => rfl
  | some range =>
    obtain ⟨min, max⟩ := range
    rw [hr] at h
    simp only [Bool.and_eq_true, decide_eq_true_eq] at h
    simp only [decide_eq_false_iff_not]
    exact (lowerBound_lt_upperBound dataPaths.keys_sorted hpath h.1 h.2).ne

/-- The paths seen after a layer. -/
def seenPaths (dataPaths : PathSet) (layer : LayerWithExtraInfo) : PathSet :=
  layer.dataEntries.foldl (fun paths data => paths.insert data.path ()) dataPaths

lemma mem_keys_insert {paths : PathSet} {p x : Bytes} : x ∈ (paths.insert p ()).keys ↔ x = p ∨ x ∈ paths.keys := by
  rw [OrdMap.mem_keys, OrdMap.mem_keys, OrdMap.find?_insert]
  by_cases hx : x = p <;> simp [hx]

lemma mem_keys_seenPaths {dataPaths : PathSet} {layer : LayerWithExtraInfo} {x : Bytes} :
    x ∈ (seenPaths dataPaths layer).keys ↔ x ∈ dataPaths.keys ∨ ∃ d ∈ layer.dataEntries, d.path = x := by
  unfold seenPaths
  generalize layer.dataEntries = l
  induction l generalizing dataPaths with
  | nil => simp
  | cons d l ih =>
    rw [List.foldl_cons, ih, mem_keys_insert]
    simp only [List.mem_cons, exists_eq_or_imp, eq_comm (a := x)]
    tauto

/-- The positional deletes that are not dangling, with their ranges. -/
def keptDeletes : PathSet → List LayerWithExtraInfo → Multiset PositionalDeleteWithExtraInfo
  | _, [] => 0
  | dataPaths, layer :: layers =>
    (layer.positionalDeleteEntries : Multiset _).filter (fun del => isDangling (seenPaths dataPaths layer) del = false) +
      keptDeletes (seenPaths dataPaths layer) layers

lemma keptDeletes_le (dataPaths : PathSet) (layers : List LayerWithExtraInfo) :
    keptDeletes dataPaths layers ≤ firsts (layers.map tierOf) := by
  induction layers generalizing dataPaths with
  | nil => exact le_rfl
  | cons layer layers ih => exact add_le_add (Multiset.filter_le _ _) (ih _)

lemma covered_le_keptDeletes {dataPaths : PathSet} {path : Bytes} (hpath : path ∈ dataPaths.keys)
    (layers : List LayerWithExtraInfo) :
    (firsts (layers.map tierOf)).filter (fun del => covers del path = true) ≤ keptDeletes dataPaths layers := by
  induction layers generalizing dataPaths with
  | nil => exact le_rfl
  | cons layer layers ih =>
    have hseen : path ∈ (seenPaths dataPaths layer).keys := mem_keys_seenPaths.mpr (.inl hpath)
    rw [List.map_cons, firsts, Multiset.filter_add]
    exact add_le_add (Multiset.monotone_filter_right _ (fun del hc => isDangling_of_covers hseen hc)) (ih hseen)

/-- The plan keeps a data file's entry and equality deletes, and of its positional deletes at
least those in range of its path. -/
structure Plans (before : Reach DataEntry PositionalDeleteWithExtraInfo EqualityDeleteInfo)
    (after : Reach DataEntry PositionalDeleteInfo EqualityDeleteInfo) : Prop where
  item : after.item = before.item
  second : after.second = before.second
  first_le : after.first ≤ before.first.map PositionalDeleteWithExtraInfo.positionalDelete
  le_first : (before.first.filter (fun del => covers del before.item.path = true)).map
    PositionalDeleteWithExtraInfo.positionalDelete ≤ after.first

lemma Keeps.plans {before mid : Reach DataEntry PositionalDeleteWithExtraInfo EqualityDeleteInfo}
    {after : Reach DataEntry PositionalDeleteInfo EqualityDeleteInfo} (h : Keeps before mid) (h' : Plans mid after) :
    Plans before after where
  item := h'.item.trans h.item
  second := h'.second.trans h.second
  first_le := h'.first_le.trans (Multiset.map_le_map h.first_le)
  le_first := by
    refine le_trans (Multiset.map_le_map ?_) h'.le_first
    rw [h.item, Multiset.le_filter]
    exact ⟨h.le_first, fun del hdel => (Multiset.mem_filter.mp hdel).2⟩

/-- Leaving an empty layer out changes nothing. -/
lemma reach_dropEmpty (layer : Layer) (layers : Partition) :
    reach ((if layer.empty then layers else layer :: layers).map planTier) = reach ((layer :: layers).map planTier) ∧
    firsts ((if layer.empty then layers else layer :: layers).map planTier) =
      firsts ((layer :: layers).map planTier) ∧
    seconds ((if layer.empty then layers else layer :: layers).map planTier) =
      seconds ((layer :: layers).map planTier) := by
  split_ifs with he
  · simp only [Layer.empty, Bool.and_eq_true, List.isEmpty_iff] at he
    obtain ⟨⟨h1, h2⟩, h3⟩ := he
    simp [reach, firsts, seconds, planTier, h1, h2, h3]
  · exact ⟨rfl, rfl, rfl⟩

/-- The layer of the plan made of a layer and the paths seen up to it. -/
def planLayer (dataPaths : PathSet) (layer : LayerWithExtraInfo) : Layer where
  dataEntries := layer.dataEntries
  positionalDeleteEntries := (layer.positionalDeleteEntries.filter (fun del => !isDangling dataPaths del)).map
    PositionalDeleteWithExtraInfo.positionalDelete
  equalityDeleteEntries := layer.equalityDeleteEntries

lemma removeDanglingInLayers_cons (dataPaths : PathSet) (layer : LayerWithExtraInfo)
    (layers : List LayerWithExtraInfo) :
    removeDanglingInLayers dataPaths (layer :: layers) =
      if (planLayer (seenPaths dataPaths layer) layer).empty then
        removeDanglingInLayers (seenPaths dataPaths layer) layers
      else planLayer (seenPaths dataPaths layer) layer ::
        removeDanglingInLayers (seenPaths dataPaths layer) layers := rfl

lemma planLayer_first (dataPaths : PathSet) (layer : LayerWithExtraInfo) :
    (planTier (planLayer dataPaths layer)).first =
      ((layer.positionalDeleteEntries : Multiset _).filter (fun del => isDangling dataPaths del = false)).map
        PositionalDeleteWithExtraInfo.positionalDelete := by
  simp [planTier, planLayer]

lemma marks_removeDanglingInLayers (dataPaths : PathSet) (layers : List LayerWithExtraInfo) :
    firsts ((removeDanglingInLayers dataPaths layers).map planTier) =
      (keptDeletes dataPaths layers).map PositionalDeleteWithExtraInfo.positionalDelete ∧
    seconds ((removeDanglingInLayers dataPaths layers).map planTier) = seconds (layers.map tierOf) := by
  induction layers generalizing dataPaths with
  | nil => exact ⟨rfl, rfl⟩
  | cons layer layers ih =>
    obtain ⟨ih1, ih2⟩ := ih (seenPaths dataPaths layer)
    obtain ⟨-, h1, h2⟩ := reach_dropEmpty (planLayer (seenPaths dataPaths layer) layer)
      (removeDanglingInLayers (seenPaths dataPaths layer) layers)
    rw [removeDanglingInLayers_cons, h1, h2]
    constructor
    · rw [List.map_cons, firsts, ih1, planLayer_first, keptDeletes, Multiset.map_add]
    · rw [List.map_cons, seconds, ih2]
      rfl

lemma removeDanglingInLayers_plans (dataPaths : PathSet) (layers : List LayerWithExtraInfo) :
    Multiset.Rel Plans (layersReach layers) (reach ((removeDanglingInLayers dataPaths layers).map planTier)) := by
  induction layers generalizing dataPaths with
  | nil => exact .zero
  | cons layer layers ih =>
    obtain ⟨hmarks, hseconds⟩ := marks_removeDanglingInLayers dataPaths (layer :: layers)
    have hdrop := reach_dropEmpty (planLayer (seenPaths dataPaths layer) layer)
      (removeDanglingInLayers (seenPaths dataPaths layer) layers)
    rw [← removeDanglingInLayers_cons] at hdrop
    obtain ⟨h1, h2, h3⟩ := hdrop
    rw [hmarks] at h2
    rw [hseconds] at h3
    rw [h1, List.map_cons, reach, ← List.map_cons (f := planTier), ← h2, ← h3, layersReach, List.map_cons, reach]
    refine Multiset.Rel.add ?_ (ih _)
    change Multiset.Rel Plans (Multiset.map _ (layer.dataEntries : Multiset DataEntry))
      (Multiset.map _ (layer.dataEntries : Multiset DataEntry))
    rw [Multiset.rel_map]
    refine Multiset.rel_refl_of_refl_on (fun d hd => ⟨rfl, rfl, ?_, ?_⟩)
    · exact Multiset.map_le_map (keptDeletes_le dataPaths (layer :: layers))
    · refine Multiset.map_le_map ?_
      have hseen : d.path ∈ (seenPaths dataPaths layer).keys := mem_keys_seenPaths.mpr (.inr ⟨d, hd, rfl⟩)
      rw [← List.map_cons (f := tierOf), List.map_cons, firsts, Multiset.filter_add]
      exact add_le_add (Multiset.monotone_filter_right _ (fun del hc => isDangling_of_covers hseen hc))
        (covered_le_keptDeletes hseen layers)

lemma layersReach_eq_zero {layers : List LayerWithExtraInfo}
    (h : layers.all (fun layer => layer.dataEntries.isEmpty) = true) : layersReach layers = 0 := by
  induction layers with
  | nil => rfl
  | cons layer layers ih =>
    simp only [List.all_cons, Bool.and_eq_true, List.isEmpty_iff] at h
    rw [layersReach, List.map_cons, reach]
    change Multiset.map _ (layer.dataEntries : Multiset DataEntry) + layersReach layers = 0
    rw [h.1, ih h.2]
    rfl

lemma removeDanglingDeletes_plans (partitions : List (List LayerWithExtraInfo)) :
    Multiset.Rel Plans (partitions.map layersReach).sum (planReach (removeDanglingDeletes partitions)) := by
  induction partitions with
  | nil => exact .zero
  | cons layers partitions ih =>
    rw [List.map_cons, List.sum_cons, removeDanglingDeletes]
    by_cases he : layers.all (fun layer => layer.dataEntries.isEmpty) = true
    · rw [List.filter_cons_of_neg (by simpa using he), layersReach_eq_zero he, zero_add]
      exact ih
    · rw [List.filter_cons_of_pos (by simpa using he), List.map_cons, planReach, List.map_cons, List.sum_cons]
      exact Multiset.Rel.add (removeDanglingInLayers_plans ∅ layers) ih

/-! ### The whole of `GetResult` -/

/-- The ranges of all positional deletes in the builder are ordered. -/
def BuilderRangesOrdered (b : ScanMetadataBuilder) : Prop :=
  ∀ p ∈ positionalContents b, ∀ min max, p.2.2.minMaxReferencedPath = some (min, max) → min ≤ max

/-- The steps on a partition add no positional delete. -/
lemma positional_of_finishPartition {b : ScanMetadataBuilder} {key : Bytes}
    {layers layers' : OrdMap SequenceNumber LayerWithExtraInfo} (hkey : b.partitions.find? key = some layers)
    (h : finishPartition b.globalEqualityDeletes layers = .ok layers') {p : SequenceNumber × LayerWithExtraInfo}
    (hp : p ∈ layers'.entries) {del : PositionalDeleteWithExtraInfo} (hdel : del ∈ p.2.positionalDeleteEntries) :
    (key, p.1, del) ∈ positionalContents b := by
  obtain ⟨-, h2, -⟩ := locate_resolved (OrdMap.mapValsM_ok h)
  obtain ⟨-, g2, -⟩ := locate_foldl_addEqualityAt b.globalEqualityDeletes.entries layers
  rw [applyGlobalEqualityDeletes_eq, g2] at h2
  have hloc : (p.1, del) ∈ locate (fun layer => (layer.positionalDeleteEntries : Multiset _)) layers'.entries :=
    mem_locate.mpr ⟨p.2, hp, hdel⟩
  rw [h2] at hloc
  exact mem_locate.mpr ⟨layers, (b.partitions.mem_entries _ _).mpr hkey, hloc⟩

/-- The partition of the builder a finished partition comes from. -/
lemma finishPartition_of_mem {b : ScanMetadataBuilder}
    {partitions : OrdMap Bytes (OrdMap SequenceNumber LayerWithExtraInfo)}
    (h : b.partitions.mapValsM (fun _ layers => finishPartition b.globalEqualityDeletes layers) = .ok partitions)
    {q : Bytes × OrdMap SequenceNumber LayerWithExtraInfo} (hq : q ∈ partitions.entries) :
    ∃ key layers, b.partitions.find? key = some layers ∧
      finishPartition b.globalEqualityDeletes layers = .ok q.2 := by
  obtain ⟨i, hi, rfl⟩ := List.getElem_of_mem hq
  have hall := List.forall₂_iff_get.mp (OrdMap.mapValsM_ok h)
  have hi' : i < b.partitions.entries.length := hall.1 ▸ hi
  exact ⟨_, _, (b.partitions.mem_entries _ _).mp (List.getElem_mem hi'), (hall.2 i hi' hi).2⟩

lemma rangesOrdered_finishPartition {b : ScanMetadataBuilder} (hb : BuilderRangesOrdered b) {key : Bytes}
    {layers layers' : OrdMap SequenceNumber LayerWithExtraInfo} (hkey : b.partitions.find? key = some layers)
    (h : finishPartition b.globalEqualityDeletes layers = .ok layers') : RangesOrdered layers'.values := by
  intro del hdel
  obtain ⟨layer, hlayer, hmem⟩ := List.mem_flatMap.mp hdel
  obtain ⟨p, hp, rfl⟩ := List.mem_map.mp hlayer
  exact hb (key, p.1, del) (positional_of_finishPartition hkey h hp hmem)

/-- What the plan makes of the contents of the builder. -/
lemma getResult_plans {b : ScanMetadataBuilder} {result : ScanMetadata} (hb : BuilderRangesOrdered b)
    (h : b.getResult = .ok result) :
    Multiset.Rel Plans ((dataContents b).map (builderItem b)) (planReach result.partitions) := by
  obtain ⟨partitions, hp, h⟩ := bind_ok h
  obtain ⟨plan, hplan, h⟩ := bind_ok h
  cases h
  obtain ⟨vec, hvec, hplan⟩ := bind_ok hplan
  cases hplan
  have hranges : ∀ layers ∈ mapToVec partitions, RangesOrdered layers := by
    intro layers hl
    obtain ⟨m, hm, rfl⟩ := List.mem_map.mp hl
    obtain ⟨q, hq, rfl⟩ := List.mem_map.mp hm
    obtain ⟨key, layers₀, hkey, hfin⟩ := finishPartition_of_mem hp hq
    exact rangesOrdered_finishPartition hb hkey hfin
  have hkeeps : Multiset.Rel Keeps ((mapToVec partitions).map layersReach).sum (vec.map layersReach).sum := by
    split_ifs at hvec with hcan
    · exact optimize_keeps hranges hvec
    · cases hvec
      exact Multiset.rel_refl_of_refl_on (fun r _ => Keeps.refl r)
  rw [← sum_layersReach_mapToVec hp]
  exact rel_comp (fun _ _ _ hk hq => hk.plans hq) hkeeps (removeDanglingDeletes_plans vec)

/-- Whatever the ranges, the plan gives no data file a delete the builder did not have for it. -/
lemma getResult_shrinks {b : ScanMetadataBuilder} {result : ScanMetadata} (h : b.getResult = .ok result) :
    Multiset.Rel (fun before after => after.item = before.item ∧ after.second = before.second ∧
        after.first ≤ before.first.map PositionalDeleteWithExtraInfo.positionalDelete)
      ((dataContents b).map (builderItem b)) (planReach result.partitions) := by
  obtain ⟨partitions, hp, h⟩ := bind_ok h
  obtain ⟨plan, hplan, h⟩ := bind_ok h
  cases h
  obtain ⟨vec, hvec, hplan⟩ := bind_ok hplan
  cases hplan
  have hshrinks : Multiset.Rel (fun before after => after.item = before.item ∧ after.second = before.second ∧
      after.first ≤ before.first) ((mapToVec partitions).map layersReach).sum (vec.map layersReach).sum := by
    split_ifs at hvec with hcan
    · exact optimize_shrinks hvec
    · cases hvec
      exact Multiset.rel_refl_of_refl_on (fun r _ => ⟨rfl, rfl, le_rfl⟩)
  rw [← sum_layersReach_mapToVec hp]
  refine rel_comp ?_ hshrinks (removeDanglingDeletes_plans vec)
  rintro before mid after ⟨h1, h2, h3⟩ hmid
  exact ⟨hmid.item.trans h1, hmid.second.trans h2, hmid.first_le.trans (Multiset.map_le_map h3)⟩

end IcebergCxx.Proofs

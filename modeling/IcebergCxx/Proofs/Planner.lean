import IcebergCxx.Planner
import IcebergCxx.Proofs.PlanLaw

/-!
# The referenced-data-file rewrite

What the planner notes about the entries, what the two maps of a partition hold, and that
the rewritten plan gives every data file exactly its own deletes.
-/

namespace IcebergCxx.Proofs

open Lib

/-! ### What the planner notes -/

/-- A live positional delete, deletion vectors included. -/
def isPositionDelete (e : ManifestEntry) : Bool := e.status ≠ .deleted && e.dataFile.content = .positionDeletes

def isAnnotated (e : ManifestEntry) : Bool := e.dataFile.referencedDataFile.isSome

/-- A positional delete file at a path, annotated with a data file. -/
def Annotates (path referenced : Bytes) (x : ManifestEntry) : Prop :=
  isPositional x = true ∧ x.dataFile.filePath = path ∧ x.dataFile.referencedDataFile = some referenced

instance (path referenced : Bytes) (x : ManifestEntry) : Decidable (Annotates path referenced x) :=
  inferInstanceAs (Decidable (_ ∧ _ ∧ _))

/-- The state of the planner after some entries. -/
structure Noted (tableMetadata : TableMetadata) (es : List ManifestEntry)
    (p : ReferencedDataFileAwareScanPlanner) : Prop where
  builder : p.builder = builderOf tableMetadata es
  valid : ∀ e ∈ es, validateEntry tableMetadata e = .ok ()
  equality : p.hasEqualityDelete = es.any isEquality
  annotated : p.hasReferencedDataFile = es.any (fun e => isPositionDelete e && isAnnotated e)
  allAnnotated : p.allPosDeletesAnnotatedWithReferencedDataFile = es.all (fun e => !isPositionDelete e || isAnnotated e)
  referenced : ∀ path ref, p.deleteFilePathToReferencedDataFilePath.find? path = some ref ↔
    ∃ x ∈ es, Annotates path ref x

lemma builderOf_append (tableMetadata : TableMetadata) (es : List ManifestEntry) (e : ManifestEntry) :
    builderOf tableMetadata (es ++ [e]) =
      (slotOf e).elim (builderOf tableMetadata es) (place (builderOf tableMetadata es)) := by
  rw [builderOf, List.filterMap_append, List.foldl_append]
  cases hs : slotOf e with
  | none => simp [hs, builderOf]
  | some slot => simp [hs, builderOf]

lemma tableMetadata_builderOf (tableMetadata : TableMetadata) (es : List ManifestEntry) :
    (builderOf tableMetadata es).tableMetadata = tableMetadata :=
  tableMetadata_foldl_place _ _

/-- What `AddEntry` notes about one entry. -/
lemma noteEntry_ok {p p' : ReferencedDataFileAwareScanPlanner} {e : ManifestEntry} (hlive : e.status ≠ .deleted)
    (h : p.noteEntry e = .ok p') :
    p'.builder = p.builder ∧
    p'.hasEqualityDelete = (p.hasEqualityDelete || isEquality e) ∧
    p'.hasReferencedDataFile = (p.hasReferencedDataFile || (isPositionDelete e && isAnnotated e)) ∧
    p'.allPosDeletesAnnotatedWithReferencedDataFile =
      (p.allPosDeletesAnnotatedWithReferencedDataFile && (!isPositionDelete e || isAnnotated e)) ∧
    ∀ path ref, p'.deleteFilePathToReferencedDataFilePath.find? path = some ref ↔
      p.deleteFilePathToReferencedDataFilePath.find? path = some ref ∨ Annotates path ref e := by
  unfold ReferencedDataFileAwareScanPlanner.noteEntry at h
  cases hc : e.dataFile.content with
  | data =>
    rw [hc] at h
    cases h
    simp [isEquality, isPositionDelete, Annotates, isPositional, hc]
  | equalityDeletes =>
    rw [hc] at h
    cases h
    simp [isEquality, isPositionDelete, Annotates, isPositional, hc, hlive]
  | positionDeletes =>
    rw [hc] at h
    cases hr : e.dataFile.referencedDataFile with
    | none =>
      rw [hr] at h
      cases h
      simp [isEquality, isPositionDelete, Annotates, isAnnotated, hc, hlive, hr]
    | some r =>
      rw [hr] at h
      simp only [ReferencedDataFileAwareScanPlanner.handlePositionDelete] at h
      split_ifs at h with hf hdup
      · cases h
        simp [isEquality, isPositionDelete, Annotates, isAnnotated, isPositional, hc, hlive, hr, hf]
      · cases h
        have hfresh : p.deleteFilePathToReferencedDataFilePath.find? e.dataFile.filePath = none := by
          simpa [OrdMap.contains] using hdup
        refine ⟨rfl, by simp [isEquality, hc], by simp [isPositionDelete, isAnnotated, hc, hlive, hr],
          by simp [isPositionDelete, isAnnotated, hc, hr], fun path ref => ?_⟩
        simp only [OrdMap.find?_insert, Annotates, isPositional, hc, hr]
        by_cases hp : path = e.dataFile.filePath
        · subst hp
          simp [hfresh, hlive, hf]
        · simp [hp, Ne.symm hp]

/-- A run of `AddEntry` notes exactly what the entries are. -/
lemma addEntries_noted {tableMetadata : TableMetadata} {es : List ManifestEntry}
    {p : ReferencedDataFileAwareScanPlanner}
    (h : (ReferencedDataFileAwareScanPlanner.make tableMetadata).addEntries es = .ok p) :
    Noted tableMetadata es p := by
  induction es using List.reverseRecOn generalizing p with
  | nil =>
    cases h
    exact ⟨rfl, by simp, rfl, rfl, rfl, by simp [ReferencedDataFileAwareScanPlanner.make, OrdMap.find?_empty]⟩
  | append_singleton es e ih =>
    rw [ReferencedDataFileAwareScanPlanner.addEntries, List.foldlM_append] at h
    obtain ⟨p₁, h1, h⟩ := bind_ok h
    rw [List.foldlM_cons] at h
    obtain ⟨p₂, h2, h⟩ := bind_ok h
    cases h
    have hn := ih h1
    unfold ReferencedDataFileAwareScanPlanner.addEntry at h2
    split_ifs at h2 with hd
    · cases h2
      have hslot : slotOf e = none := by simp [slotOf, hd]
      have hval : validateEntry tableMetadata e = .ok () := by simp [validateEntry, hd]
      refine ⟨by rw [builderOf_append, hslot]; exact hn.builder, ?_, ?_, ?_, ?_, ?_⟩
      · intro x hx
        rcases List.mem_append.mp hx with hx | hx
        · exact hn.valid x hx
        · rw [List.mem_singleton.mp hx]; exact hval
      · simp [hn.equality, isEquality, hd]
      · simp [hn.annotated, isPositionDelete, hd]
      · simp [hn.allAnnotated, isPositionDelete, hd]
      · intro path ref
        rw [hn.referenced]
        simp [Annotates, isPositional, hd, or_and_right, exists_or]
    · obtain ⟨p₃, h3, h2⟩ := bind_ok h2
      obtain ⟨b, hb, h2⟩ := bind_ok h2
      cases h2
      obtain ⟨hbuilder, heq, hann, hall, href⟩ := noteEntry_ok hd h3
      rw [addEntry_eq, hbuilder, hn.builder, tableMetadata_builderOf] at hb
      cases hv : validateEntry tableMetadata e with
      | error m => rw [hv] at hb; cases hb
      | ok u =>
        rw [hv] at hb
        cases hb
        refine ⟨(builderOf_append _ _ _).symm, ?_, ?_, ?_, ?_, ?_⟩
        · intro x hx
          rcases List.mem_append.mp hx with hx | hx
          · exact hn.valid x hx
          · rw [List.mem_singleton.mp hx]; exact hv
        · rw [heq, hn.equality]; simp
        · rw [hann, hn.annotated]; simp
        · rw [hall, hn.allAnnotated]; simp
        · intro path ref
          rw [href, hn.referenced]
          simp only [List.mem_append, List.mem_singleton, or_and_right, exists_or, exists_eq_left]

/-! ### The maps of a partition -/

/-- The data entries in the first map, each with its path and layer. -/
def collectedData (maps : PartitionMaps) : Multiset (Bytes × DataEntry × Nat) :=
  locate (fun v => {v}) maps.dataFileNameToDataEntry.entries

/-- The deletes in the second map, each with the path it references and its layer. -/
def collectedDeletes (maps : PartitionMaps) : Multiset (Bytes × PositionalDeleteInfo × Nat) :=
  locate (fun v : List (PositionalDeleteInfo × Nat) => (v : Multiset (PositionalDeleteInfo × Nat)))
    maps.dataFileNameToPosdelEntries.entries

lemma mem_collectedData {maps : PartitionMaps} {path : Bytes} :
    (∃ v, (path, v) ∈ collectedData maps) ↔ (maps.dataFileNameToDataEntry.find? path).isSome = true := by
  rw [Option.isSome_iff_exists]
  constructor
  · rintro ⟨v, hv⟩
    obtain ⟨w, hw, -⟩ := mem_locate.mp hv
    exact ⟨w, (OrdMap.mem_entries _ _ _).mp hw⟩
  · rintro ⟨v, hv⟩
    exact ⟨v, mem_locate.mpr ⟨v, (OrdMap.mem_entries _ _ _).mpr hv, Multiset.mem_singleton_self v⟩⟩

lemma collectData_ok (layerNo : Nat) {ds : List DataEntry} {maps : PartitionMaps}
    (hnodup : (ds.map DataEntry.path).Nodup)
    (hfresh : ∀ d ∈ ds, ∀ v, (d.path, v) ∉ collectedData maps) :
    ∃ maps', ds.foldlM (collectDataEntry layerNo) maps = .ok maps' ∧
      collectedData maps' = collectedData maps + (ds : Multiset DataEntry).map (fun d => (d.path, d, layerNo)) ∧
      collectedDeletes maps' = collectedDeletes maps := by
  induction ds generalizing maps with
  | nil => exact ⟨maps, rfl, (add_zero _).symm, rfl⟩
  | cons d ds ih =>
    rw [List.map_cons, List.nodup_cons] at hnodup
    have hnone : maps.dataFileNameToDataEntry.find? d.path = none := by
      by_contra hne
      obtain ⟨v, hv⟩ := mem_collectedData.mpr (Option.isSome_iff_ne_none.mpr hne)
      exact hfresh d List.mem_cons_self v hv
    obtain ⟨maps₁, h1⟩ : ∃ maps₁ : PartitionMaps, maps₁ = { maps with
        dataFileNameToDataEntry := maps.dataFileNameToDataEntry.insert d.path (d, layerNo) } := ⟨_, rfl⟩
    have hstep : collectDataEntry layerNo maps d = .ok maps₁ := by
      simp [collectDataEntry, OrdMap.contains, hnone, h1]
    have hdata : collectedData maps₁ = collectedData maps + {(d.path, d, layerNo)} := by
      rw [h1]
      exact locate_alter _ maps.dataFileNameToDataEntry d.path _ {(d, layerNo)} (by rw [hnone]; rfl)
    obtain ⟨maps', h2, h3, h4⟩ := @ih maps₁ hnodup.2 (by
      intro d' hd' v hv
      rw [hdata, Multiset.mem_add, Multiset.mem_singleton] at hv
      rcases hv with hv | hv
      · exact hfresh d' (List.mem_cons_of_mem _ hd') v hv
      · exact hnodup.1 ((Prod.mk.inj hv).1 ▸ List.mem_map_of_mem hd'))
    refine ⟨maps', by rw [List.foldlM_cons, hstep, ok_bind, h2], ?_, by rw [h4, h1]; rfl⟩
    rw [h3, hdata, add_assoc, ← Multiset.cons_coe, Multiset.map_cons, Multiset.singleton_add]

lemma collectDeletes_ok {referenced : OrdMap Bytes Bytes} (layerNo : Nat) {dels : List PositionalDeleteInfo}
    (maps : PartitionMaps) (hknown : ∀ del ∈ dels, (referenced.find? del.path).isSome = true) :
    ∃ maps', dels.foldlM (collectDelEntry referenced layerNo) maps = .ok maps' ∧
      collectedData maps' = collectedData maps ∧
      collectedDeletes maps' = collectedDeletes maps + (dels : Multiset PositionalDeleteInfo).map (fun del =>
        ((referenced.find? del.path).getD [], del, layerNo)) := by
  induction dels generalizing maps with
  | nil => exact ⟨maps, rfl, rfl, (add_zero _).symm⟩
  | cons del dels ih =>
    obtain ⟨dataPath, hp⟩ := Option.isSome_iff_exists.mp (hknown del List.mem_cons_self)
    obtain ⟨maps₁, h1⟩ : ∃ maps₁ : PartitionMaps, maps₁ = { maps with
        dataFileNameToPosdelEntries := maps.dataFileNameToPosdelEntries.alter dataPath (fun deletes =>
          deletes.getD [] ++ [(del, layerNo)]) } := ⟨_, rfl⟩
    have hstep : collectDelEntry referenced layerNo maps del = .ok maps₁ := by
      simp [collectDelEntry, hp, h1]
    have hdels : collectedDeletes maps₁ = collectedDeletes maps + {(dataPath, del, layerNo)} := by
      rw [h1]
      refine locate_alter (fun v : List (PositionalDeleteInfo × Nat) => (v : Multiset (PositionalDeleteInfo × Nat)))
        maps.dataFileNameToPosdelEntries dataPath _ {(del, layerNo)} ?_
      cases maps.dataFileNameToPosdelEntries.find? dataPath with
      | none => rfl
      | some l => exact (Multiset.coe_add _ _).symm
    obtain ⟨maps', h2, h3, h4⟩ := ih maps₁ (fun x hx => hknown x (List.mem_cons_of_mem _ hx))
    refine ⟨maps', by rw [List.foldlM_cons, hstep, ok_bind, h2], by rw [h3, h1]; rfl, ?_⟩
    rw [h4, hdels, add_assoc, ← Multiset.cons_coe, Multiset.map_cons, Multiset.singleton_add, hp, Option.getD_some]

/-- The layers of a partition as tiers, with their numbers. -/
def numberedTiers (layers : List (Layer × Nat)) : List (Nat × Tier DataEntry PositionalDeleteInfo EqualityDeleteInfo) :=
  layers.map (fun p => (p.2, planTier p.1))

lemma collectLayers_ok {referenced : OrdMap Bytes Bytes} {layers : List (Layer × Nat)} {maps : PartitionMaps}
    (hnodup : (layers.flatMap (fun p => p.1.dataEntries.map DataEntry.path)).Nodup)
    (hfresh : ∀ path ∈ layers.flatMap (fun p => p.1.dataEntries.map DataEntry.path), ∀ v,
      (path, v) ∉ collectedData maps)
    (hknown : ∀ p ∈ layers, ∀ del ∈ p.1.positionalDeleteEntries, (referenced.find? del.path).isSome = true) :
    ∃ maps', layers.foldlM (collectLayer referenced) maps = .ok maps' ∧
      collectedData maps' = collectedData maps +
        (locate Tier.data (numberedTiers layers)).map (fun p => (p.2.path, p.2, p.1)) ∧
      collectedDeletes maps' = collectedDeletes maps +
        (locate Tier.first (numberedTiers layers)).map (fun p =>
          ((referenced.find? p.2.path).getD [], p.2, p.1)) := by
  induction layers generalizing maps with
  | nil => exact ⟨maps, rfl, (add_zero _).symm, (add_zero _).symm⟩
  | cons p layers ih =>
    obtain ⟨layer, n⟩ := p
    rw [List.flatMap_cons] at hnodup hfresh
    obtain ⟨hn1, hn2, hdisj⟩ := List.nodup_append.mp hnodup
    obtain ⟨maps₁, h1, hd1, hp1⟩ := @collectData_ok n _ maps hn1 (fun d hd v =>
      hfresh d.path (List.mem_append_left _ (List.mem_map_of_mem hd)) v)
    obtain ⟨maps₂, h2, hd2, hp2⟩ := @collectDeletes_ok referenced n _ maps₁
      (hknown (layer, n) List.mem_cons_self)
    obtain ⟨maps', h3, hd3, hp3⟩ := @ih maps₂ hn2 (by
      intro path hpath v hv
      rw [hd2, hd1, Multiset.mem_add] at hv
      rcases hv with hv | hv
      · exact hfresh path (List.mem_append_right _ hpath) v hv
      · obtain ⟨d, hd, he⟩ := Multiset.mem_map.mp hv
        exact hdisj d.path (List.mem_map_of_mem hd) path hpath (Prod.mk.inj he).1)
      (fun q hq => hknown q (List.mem_cons_of_mem _ hq))
    refine ⟨maps', ?_, ?_, ?_⟩
    · rw [List.foldlM_cons, collectLayer]
      simp only
      rw [h1, ok_bind, h2, ok_bind, h3]
    · rw [hd3, hd2, hd1, add_assoc]
      simp only [numberedTiers, List.map_cons, locate, Multiset.map_add, Multiset.map_map]
      rfl
    · rw [hp3, hp2, hp1, add_assoc]
      simp only [numberedTiers, List.map_cons, locate, Multiset.map_add, Multiset.map_map]
      rfl

/-! ### The partitions of the rewritten plan -/

lemma planReach_append (a b : List Partition) : planReach (a ++ b) = planReach a + planReach b := by
  simp [planReach]

lemma planReach_cons (part : Partition) (partitions : List Partition) :
    planReach (part :: partitions) = reach (part.map planTier) + planReach partitions := by
  simp [planReach]

/-- Data files without deletes in one layer of the first partition. -/
def Opened (partitions : List Partition) : Prop :=
  ∃ ds rest, partitions = [{ dataEntries := ds }] :: rest

/-- What the second loop makes of a data entry. -/
def emittedItem (maps : PartitionMaps) (p : Bytes × DataEntry × Nat) :
    Reach DataEntry PositionalDeleteInfo EqualityDeleteInfo :=
  ⟨p.2.1, ((((maps.dataFileNameToPosdelEntries.find? p.1).getD [] : List _) : Multiset _).filter (fun q =>
    p.2.2 ≤ q.2)).map Prod.fst, 0⟩

lemma planReach_opened (ds : List DataEntry) (rest : List Partition) :
    planReach ([{ dataEntries := ds }] :: rest) = (ds : Multiset DataEntry).map (fun d => ⟨d, 0, 0⟩) + planReach rest := by
  rw [planReach_cons]
  simp [reach, planTier, firsts, seconds]

lemma emitDataEntry_ok (maps : PartitionMaps) {partitions : List Partition} (h : Opened partitions)
    (p : Bytes × DataEntry × Nat) :
    Opened (emitDataEntry maps partitions p) ∧
      planReach (emitDataEntry maps partitions p) = planReach partitions + {emittedItem maps p} := by
  obtain ⟨ds, rest, rfl⟩ := h
  obtain ⟨path, d, n⟩ := p
  have hown : ∀ deletes : Option (List (PositionalDeleteInfo × Nat)),
      maps.dataFileNameToPosdelEntries.find? path = deletes →
      Opened (([{ dataEntries := ds }] :: rest) ++ [[({
        dataEntries := [d]
        positionalDeleteEntries := ((deletes.getD []).filter (fun q => !decide (q.2 < n))).map Prod.fst } :
          Layer)]]) ∧
      planReach (([{ dataEntries := ds }] :: rest) ++ [[({
        dataEntries := [d]
        positionalDeleteEntries := ((deletes.getD []).filter (fun q => !decide (q.2 < n))).map Prod.fst } :
          Layer)]]) = planReach ([{ dataEntries := ds }] :: rest) + {emittedItem maps (path, d, n)} := by
    intro deletes hdel
    refine ⟨⟨ds, _, rfl⟩, ?_⟩
    have hge : (deletes.getD []).filter (fun q => !decide (q.2 < n)) =
        (deletes.getD []).filter (fun q => decide (n ≤ q.2)) :=
      List.filter_congr (fun q _ => by simp only [← decide_not, not_lt])
    rw [planReach_append, hge]
    simp [planReach, reach, planTier, firsts, seconds, emittedItem, hdel]
  unfold emitDataEntry
  simp only
  split
  · rename_i hnone hdv
    refine ⟨⟨ds ++ [d], rest, rfl⟩, ?_⟩
    change planReach ([{ dataEntries := ds ++ [d] }] :: rest) = _
    rw [planReach_opened, planReach_opened, ← Multiset.coe_add, Multiset.map_add, emittedItem, hnone]
    simp only [Option.getD_none, Multiset.coe_nil, Multiset.filter_zero, Multiset.map_zero, Multiset.coe_singleton,
      Multiset.map_singleton]
    rw [add_right_comm]
  · exact hown _ rfl

lemma foldl_emitDataEntry (maps : PartitionMaps) (l : List (Bytes × DataEntry × Nat)) {partitions : List Partition}
    (h : Opened partitions) :
    Opened (l.foldl (emitDataEntry maps) partitions) ∧
      planReach (l.foldl (emitDataEntry maps) partitions) =
        planReach partitions + (l : Multiset _).map (emittedItem maps) := by
  induction l generalizing partitions with
  | nil => exact ⟨h, (add_zero _).symm⟩
  | cons p l ih =>
    obtain ⟨h1, h2⟩ := emitDataEntry_ok maps h p
    obtain ⟨h3, h4⟩ := ih h1
    refine ⟨h3, ?_⟩
    rw [List.foldl_cons, h4, h2, add_assoc, ← Multiset.cons_coe, Multiset.map_cons, Multiset.singleton_add]

lemma locate_singleton {K V : Type} (l : List (K × V)) : locate (fun v => {v}) l = (l : Multiset (K × V)) := by
  induction l with
  | nil => rfl
  | cons p l ih =>
    rw [locate, ih]
    rfl

/-- The deletes in the second map at a path. -/
lemma posdelEntries_at (maps : PartitionMaps) (path : Bytes) :
    (((maps.dataFileNameToPosdelEntries.find? path).getD [] : List _) : Multiset (PositionalDeleteInfo × Nat)) =
      ((collectedDeletes maps).filter (fun q => q.1 = path)).map Prod.snd := by
  cases hf : maps.dataFileNameToPosdelEntries.find? path with
  | none =>
    rw [Multiset.filter_eq_nil.mpr]
    · rfl
    · rintro ⟨k, x⟩ hx rfl
      obtain ⟨l, hl, -⟩ := mem_locate.mp hx
      rw [(OrdMap.mem_entries _ _ _).mp hl] at hf
      cases hf
  | some l =>
    rw [collectedDeletes, filter_locate _ (OrdMap.keys_nodup _) ((OrdMap.mem_entries _ _ _).mpr hf), Multiset.map_map]
    exact (Multiset.map_id _).symm

/-- The deletes that name the data file they are applied to. -/
def ownDeletes (referenced : OrdMap Bytes Bytes) (r : Reach DataEntry PositionalDeleteInfo EqualityDeleteInfo) :
    Reach DataEntry PositionalDeleteInfo EqualityDeleteInfo :=
  ⟨r.item, r.first.filter (fun del => referenced.find? del.path = some r.item.path), 0⟩

lemma numberedTiers_sorted (part : Partition) :
    (numberedTiers part.zipIdx).Pairwise (fun a b => a.1 < b.1) := by
  have hkeys : (numberedTiers part.zipIdx).map Prod.fst = List.range' 0 part.length := by
    rw [numberedTiers, List.map_map, ← List.zipIdx_map_snd]
    rfl
  have hlt : (List.range' 0 part.length).Pairwise (· < ·) := List.pairwise_lt_range'
  rw [← hkeys, List.pairwise_map] at hlt
  exact hlt

lemma numberedTiers_snd (part : Partition) : (numberedTiers part.zipIdx).map Prod.snd = part.map planTier := by
  rw [numberedTiers, List.map_map]
  conv_rhs => rw [← List.zipIdx_map_fst 0 part, List.map_map]
  rfl

/-- `HandlePartition` on a partition without repeated data paths and without unknown deletes. -/
lemma handlePartition_ok {referenced : OrdMap Bytes Bytes} {partitions : List Partition} {part : Partition}
    (hopen : Opened partitions) (hnodup : (part.flatMap (fun layer => layer.dataEntries.map DataEntry.path)).Nodup)
    (hknown : ∀ layer ∈ part, ∀ del ∈ layer.positionalDeleteEntries, (referenced.find? del.path).isSome = true) :
    ∃ partitions', handlePartition referenced partitions part = .ok partitions' ∧ Opened partitions' ∧
      planReach partitions' = planReach partitions + (reach (part.map planTier)).map (ownDeletes referenced) := by
  have hflat : part.zipIdx.flatMap (fun p => p.1.dataEntries.map DataEntry.path) =
      part.flatMap (fun layer => layer.dataEntries.map DataEntry.path) := by
    conv_rhs => rw [← List.zipIdx_map_fst 0 part, List.flatMap_map]
  have hmem : ∀ p ∈ part.zipIdx, p.1 ∈ part := fun p hp => List.fst_mem_of_mem_zipIdx hp
  obtain ⟨maps, hmaps, hdata, hdels⟩ := @collectLayers_ok referenced part.zipIdx {}
    (hflat ▸ hnodup) (fun path _ v hv => absurd hv (Multiset.notMem_zero _))
    (fun p hp => hknown p.1 (hmem p hp))
  obtain ⟨h1, h2⟩ := foldl_emitDataEntry maps maps.dataFileNameToDataEntry.entries hopen
  refine ⟨_, by rw [handlePartition, hmaps, ok_bind], h1, ?_⟩
  have hentries : (maps.dataFileNameToDataEntry.entries : Multiset (Bytes × DataEntry × Nat)) =
      (locate Tier.data (numberedTiers part.zipIdx)).map (fun p => (p.2.path, p.2, p.1)) := by
    rw [← locate_singleton]
    exact hdata.trans (zero_add _)
  have hcollected : collectedDeletes maps = (locate Tier.first (numberedTiers part.zipIdx)).map (fun p =>
      ((referenced.find? p.2.path).getD [], p.2, p.1)) := hdels.trans (zero_add _)
  rw [h2, hentries, Multiset.map_map, ← numberedTiers_snd, reach_sorted (numberedTiers_sorted part), Multiset.map_map]
  congr 1
  refine Multiset.map_congr rfl (fun q hq => ?_)
  simp only [Function.comp_apply, emittedItem, ownDeletes, Reach.mk.injEq, true_and, and_true]
  rw [posdelEntries_at, hcollected]
  simp only [Multiset.filter_map, Multiset.map_map, Multiset.filter_filter, Function.comp_def]
  refine congrArg _ (Multiset.filter_congr (fun x hx => ?_))
  obtain ⟨n, del⟩ := x
  obtain ⟨tier, htier, hdel⟩ := mem_locate.mp hx
  obtain ⟨p, hp, he⟩ := List.mem_map.mp htier
  cases he
  obtain ⟨path, hpath⟩ := Option.isSome_iff_exists.mp (hknown p.1 (hmem p hp) del hdel)
  simp [hpath, and_comm]

/-! ### The deletes and data files of a plan -/

/-- Every positional delete of the plan was in the builder. -/
lemma mem_positionalContents_of_plan {b : ScanMetadataBuilder} {result : ScanMetadata} (h : b.getResult = .ok result)
    {part : Partition} (hpart : part ∈ result.partitions) {layer : Layer} (hlayer : layer ∈ part)
    {del : PositionalDeleteInfo} (hdel : del ∈ layer.positionalDeleteEntries) :
    ∃ p ∈ positionalContents b, p.2.2.positionalDelete = del := by
  obtain ⟨partitions, hp, h⟩ := bind_ok h
  obtain ⟨plan, hplan, h⟩ := bind_ok h
  cases h
  obtain ⟨vec, hvec, hplan⟩ := bind_ok hplan
  cases hplan
  have hdangling : ∀ {paths : PathSet} {layers : List LayerWithExtraInfo},
      layer ∈ removeDanglingInLayers paths layers → ∃ x ∈ deletesOf layers, x.positionalDelete = del := by
    intro paths layers hl
    induction layers generalizing paths with
    | nil => exact absurd hl List.not_mem_nil
    | cons l layers ih =>
      rw [removeDanglingInLayers_cons] at hl
      have hrest : layer ∈ removeDanglingInLayers (seenPaths paths l) layers →
          ∃ x ∈ deletesOf (l :: layers), x.positionalDelete = del := by
        intro hl
        obtain ⟨x, hx, he⟩ := ih hl
        exact ⟨x, List.mem_append_right _ hx, he⟩
      split_ifs at hl
      · exact hrest hl
      · rcases List.mem_cons.mp hl with rfl | hl
        · obtain ⟨x, hx, rfl⟩ := List.mem_map.mp hdel
          exact ⟨x, List.mem_append_left _ (List.mem_filter.mp hx).1, rfl⟩
        · exact hrest hl
  obtain ⟨layers, hlayers, rfl⟩ := List.mem_map.mp hpart
  obtain ⟨x, hx, rfl⟩ := hdangling hlayer
  have hbefore : ∃ before ∈ mapToVec partitions, x ∈ deletesOf before := by
    have hmem := (List.mem_filter.mp hlayers).1
    split_ifs at hvec with hcan
    · exact mem_deletesOf_of_optimize hvec hmem hx
    · cases hvec
      exact ⟨layers, hmem, hx⟩
  obtain ⟨before, hbefore, hx⟩ := hbefore
  obtain ⟨m, hm, rfl⟩ := List.mem_map.mp hbefore
  obtain ⟨q, hq, rfl⟩ := List.mem_map.mp hm
  obtain ⟨l, hl, hxl⟩ := List.mem_flatMap.mp hx
  obtain ⟨r, hr, rfl⟩ := List.mem_map.mp hl
  obtain ⟨key, layers₀, hkey, hfin⟩ := finishPartition_of_mem hp hq
  exact ⟨(key, r.1, x), positional_of_finishPartition hkey hfin hr hxl, rfl⟩

/-- The paths of the data files of a plan are those of the data entries. -/
lemma paths_of_plan {tableMetadata : TableMetadata} {es : List ManifestEntry} {result : ScanMetadata}
    (h : (builderOf tableMetadata es).getResult = .ok result) :
    (planReach result.partitions).map (fun r => r.item.path) =
      ((es.filter isData).map (fun e => e.dataFile.filePath) : List Bytes) := by
  have hs := getResult_shrinks h
  rw [dataContents_builderOf, Multiset.map_coe, List.map_map, ← Multiset.map_coe, Multiset.rel_map_left] at hs
  have hpaths : Multiset.Rel (fun e r => (e : ManifestEntry).dataFile.filePath = r.item.path)
      (es.filter isData : List ManifestEntry) (planReach result.partitions) := by
    refine hs.mono (fun e _ r _ hr => ?_)
    simp only [Function.comp_apply] at hr
    rw [hr.1]
    exact (@item_builderItem tableMetadata es (keyOf e) (seqOf e) (dataEntryOf e) rfl).1.symm
  have heq : Multiset.Rel (· = ·) ((es.filter isData : Multiset ManifestEntry).map (fun e => e.dataFile.filePath))
      ((planReach result.partitions).map (fun r => r.item.path)) := Multiset.rel_map.mpr hpaths
  rw [← Multiset.map_coe, Multiset.rel_eq.mp heq]

lemma items_planTiers (part : Partition) :
    items (part.map planTier) = (part.flatMap Layer.dataEntries : List DataEntry) := by
  induction part with
  | nil => rfl
  | cons layer part ih =>
    rw [List.map_cons, items, ih]
    exact Multiset.coe_add _ _

/-- Distinct paths in the whole plan are distinct in every partition. -/
lemma nodup_paths_of_mem {partitions : List Partition}
    (h : ((planReach partitions).map (fun r => r.item.path)).Nodup) {part : Partition} (hp : part ∈ partitions) :
    (part.flatMap (fun layer => layer.dataEntries.map DataEntry.path)).Nodup := by
  obtain ⟨a, c, rfl⟩ := List.append_of_mem hp
  rw [planReach_append, planReach_cons, Multiset.map_add, Multiset.map_add] at h
  have hn := Multiset.nodup_of_le ((Multiset.le_add_right _ _).trans (Multiset.le_add_left _ _)) h
  have hcomp : (reach (part.map planTier)).map (fun r => r.item.path) =
      ((reach (part.map planTier)).map Reach.item).map DataEntry.path := (Multiset.map_map _ _ _).symm
  rw [hcomp, ← items_eq_map_reach, items_planTiers, Multiset.map_coe, Multiset.coe_nodup, List.map_flatMap] at hn
  exact hn

lemma handlePartitions_ok {referenced : OrdMap Bytes Bytes} {parts : List Partition} {partitions : List Partition}
    (hopen : Opened partitions)
    (hnodup : ∀ part ∈ parts, (part.flatMap (fun layer => layer.dataEntries.map DataEntry.path)).Nodup)
    (hknown : ∀ part ∈ parts, ∀ layer ∈ part, ∀ del ∈ layer.positionalDeleteEntries,
      (referenced.find? del.path).isSome = true) :
    ∃ partitions', parts.foldlM (handlePartition referenced) partitions = .ok partitions' ∧ Opened partitions' ∧
      planReach partitions' = planReach partitions + (planReach parts).map (ownDeletes referenced) := by
  induction parts generalizing partitions with
  | nil => exact ⟨partitions, rfl, hopen, (add_zero _).symm⟩
  | cons part parts ih =>
    obtain ⟨p₁, h1, ho1, hr1⟩ := handlePartition_ok hopen (hnodup part List.mem_cons_self)
      (hknown part List.mem_cons_self)
    obtain ⟨p₂, h2, ho2, hr2⟩ := ih ho1 (fun q hq => hnodup q (List.mem_cons_of_mem _ hq))
      (fun q hq => hknown q (List.mem_cons_of_mem _ hq))
    refine ⟨p₂, by rw [List.foldlM_cons, h1, ok_bind, h2], ho2, ?_⟩
    rw [hr2, hr1, planReach_cons, Multiset.map_add, add_assoc]

lemma planReach_eraseEmptyFirst {partitions : List Partition} (h : Opened partitions) :
    planReach (eraseEmptyFirst partitions) = planReach partitions := by
  obtain ⟨ds, rest, rfl⟩ := h
  unfold eraseEmptyFirst
  simp only
  split_ifs with he
  · rw [planReach_opened, List.isEmpty_iff.mp he]
    exact (zero_add _).symm
  · rfl

/-! ### The rewrite -/

/-- Of the deletes applied to a data file, those annotated with its path. -/
def annotatedDeletes (es : List ManifestEntry) (r : Reach DataEntry PositionalDeleteInfo EqualityDeleteInfo) :
    Reach DataEntry PositionalDeleteInfo EqualityDeleteInfo :=
  ⟨r.item, r.first.filter (fun del => ∃ x ∈ es, Annotates del.path r.item.path x), r.second⟩

/-- Without equality deletes and with every positional delete annotated, nothing else reaches a file. -/
lemma marks_of_annotated {tableMetadata : TableMetadata} {es : List ManifestEntry} {plan : ScanMetadata}
    (hplan : (builderOf tableMetadata es).getResult = .ok plan) (heq : es.any isEquality = false)
    {r : Reach DataEntry PositionalDeleteInfo EqualityDeleteInfo} (hr : r ∈ planReach plan.partitions) :
    r.second = 0 ∧ r.first ≤ ((es.filter isPositional).map (fun x => ⟨x.dataFile.filePath⟩) :
      List PositionalDeleteInfo) := by
  have hs := getResult_shrinks hplan
  rw [dataContents_builderOf, Multiset.map_coe, List.map_map, ← Multiset.map_coe, Multiset.rel_map_left] at hs
  obtain ⟨e, -, -, h2, h3⟩ := Multiset.exists_mem_of_rel_of_mem (Multiset.rel_flip.mpr hs) hr
  simp only [Function.comp_apply] at h2 h3
  rw [second_builderItem] at h2
  rw [first_builderItem, Multiset.map_coe, List.map_map] at h3
  constructor
  · rw [h2, List.filter_eq_nil_iff.mpr]
    · rfl
    · intro x hx hp
      simp only [Bool.and_eq_true] at hp
      exact absurd hp.1.1 (List.any_eq_false.mp heq x hx)
  · refine h3.trans (Multiset.coe_le.mpr (List.Sublist.subperm (List.Sublist.map _ ?_)))
    refine List.monotone_filter_right _ (fun x hx => ?_)
    simp only [Bool.and_eq_true] at hx
    exact hx.1.1

/-- The referenced-data-file rewrite. Whenever the builder has a plan: with distinct data
paths, no equality delete and every positional delete annotated, the rewrite succeeds and
every data file keeps its entry and, of the deletes applied to it, exactly those annotated
with its path. With no annotated delete, with an equality delete or with a positional delete
that is not annotated, the builder's plan is returned. -/
theorem referenced_rewrite_preserves_meaning (tableMetadata : TableMetadata) (es : List ManifestEntry)
    (p : ReferencedDataFileAwareScanPlanner)
    (hadd : (ReferencedDataFileAwareScanPlanner.make tableMetadata).addEntries es = .ok p) :
    (((es.filter isData).map (fun e => e.dataFile.filePath)).Nodup → es.any isEquality = false →
      (∀ e ∈ es, isPositionDelete e = true → isAnnotated e = true) →
      ∀ plan, p.builder.getResult = .ok plan → ∃ result, p.getResult = .ok result ∧
        result.schema = plan.schema ∧
        planReach result.partitions = (planReach plan.partitions).map (annotatedDeletes es)) ∧
    ((∀ e ∈ es, isPositionDelete e = true → isAnnotated e = false) ∨ es.any isEquality = true ∨
      (∃ e ∈ es, isPositionDelete e = true ∧ isAnnotated e = false) → p.getResult = p.builder.getResult) := by
  have hn := addEntries_noted hadd
  constructor
  · intro hnodup heq hann plan hplan
    rw [hn.builder] at hplan
    have hall : p.allPosDeletesAnnotatedWithReferencedDataFile = true := by
      rw [hn.allAnnotated, List.all_eq_true]
      intro e he
      cases hpd : isPositionDelete e with
      | false => rfl
      | true => simp [hann e he hpd]
    have hpos : ∀ x, isPositional x = true → isPositionDelete x = true := by
      intro x hx
      simp only [isPositional, isPositionDelete, Bool.and_eq_true] at hx ⊢
      exact hx.1
    cases hhas : p.hasReferencedDataFile with
    | false =>
      refine ⟨plan, ?_, rfl, ?_⟩
      · rw [ReferencedDataFileAwareScanPlanner.getResult, hn.builder, hplan, ok_bind, hhas]
        rfl
      · refine (Multiset.map_id _).symm.trans (Multiset.map_congr rfl (fun r hr => ?_))
        have hnone : es.filter isPositional = [] := by
          rw [List.filter_eq_nil_iff]
          intro x hx hp
          rw [hn.annotated] at hhas
          exact List.any_eq_false.mp hhas x hx (by simp [hpos x hp, hann x hx (hpos x hp)])
        have hle := (marks_of_annotated hplan heq hr).2
        rw [hnone] at hle
        have hzero : r.first = 0 := Multiset.le_zero.mp hle
        obtain ⟨item, first, second⟩ := r
        simp only at hzero
        simp [annotatedDeletes, hzero]
    | true =>
      have hknown : ∀ part ∈ plan.partitions, ∀ layer ∈ part, ∀ del ∈ layer.positionalDeleteEntries,
          (p.deleteFilePathToReferencedDataFilePath.find? del.path).isSome = true := by
        intro part hpart layer hlayer del hdel
        obtain ⟨q, hq, rfl⟩ := mem_positionalContents_of_plan hplan hpart hlayer hdel
        rw [positionalContents_builderOf, Multiset.mem_coe] at hq
        obtain ⟨x, hx, rfl⟩ := List.mem_map.mp hq
        obtain ⟨hmem, hp⟩ := List.mem_filter.mp hx
        obtain ⟨ref, href⟩ := Option.isSome_iff_exists.mp (hann x hmem (hpos x hp))
        exact Option.isSome_iff_exists.mpr ⟨ref, (hn.referenced _ _).mpr ⟨x, hmem, hp, rfl, href⟩⟩
      have hpaths : ((planReach plan.partitions).map (fun r => r.item.path)).Nodup := by
        rw [paths_of_plan hplan]
        exact Multiset.coe_nodup.mpr hnodup
      obtain ⟨partitions, hrun, hopen, hreach⟩ := @handlePartitions_ok _ _ [[{}]] ⟨[], [], rfl⟩
        (fun part hpart => nodup_paths_of_mem hpaths hpart) hknown
      refine ⟨⟨plan.schema, eraseEmptyFirst partitions⟩, ?_, rfl, ?_⟩
      · rw [ReferencedDataFileAwareScanPlanner.getResult, hn.builder, hplan, ok_bind, hhas, hn.equality, heq, hall]
        simp only [Bool.not_true, Bool.false_eq_true, if_false]
        rw [hrun, ok_bind]
      · rw [planReach_eraseEmptyFirst hopen, hreach]
        refine (zero_add _).trans (Multiset.map_congr rfl (fun r hr => ?_))
        rw [ownDeletes, annotatedDeletes, (marks_of_annotated hplan heq hr).1]
        congr 1
        exact Multiset.filter_congr (fun del _ => hn.referenced _ _)
  · intro hcase
    rw [ReferencedDataFileAwareScanPlanner.getResult]
    cases hplan : p.builder.getResult with
    | error m => rfl
    | ok plan =>
      rw [ok_bind]
      rcases hcase with hnone | heq | ⟨e, he, hpd, hna⟩
      · have hhas : p.hasReferencedDataFile = false := by
          rw [hn.annotated, List.any_eq_false]
          intro e he
          cases hpd : isPositionDelete e with
          | false => simp
          | true => simp [hnone e he hpd]
        rw [hhas]
        rfl
      · rw [hn.equality, heq]
        cases p.hasReferencedDataFile <;> rfl
      · have hall : p.allPosDeletesAnnotatedWithReferencedDataFile = false := by
          rw [hn.allAnnotated, List.all_eq_false]
          exact ⟨e, he, by simp [hpd, hna]⟩
        rw [hall]
        cases p.hasReferencedDataFile <;> cases p.hasEqualityDelete <;> rfl

/-- A positional delete annotated with a file, with the bounds of its path. -/
def annotatedDelete (path referenced : Bytes) : ManifestEntry where
  sequenceNumber := some 1
  dataFile := {
    content := .positionDeletes
    filePath := path
    referencedDataFile := some referenced
    lowerBounds := (∅ : OrdMap Int Bytes).insert filePathId referenced
    upperBounds := (∅ : OrdMap Int Bytes).insert filePathId referenced }

def dataFileEntry (path : Bytes) : ManifestEntry where
  sequenceNumber := some 1
  dataFile := { filePath := path }

/-- Two data files with one annotated delete each. -/
def annotatedEntries : List ManifestEntry := [dataFileEntry (bytes "a"), dataFileEntry (bytes "b"),
  annotatedDelete (bytes "p") (bytes "a"), annotatedDelete (bytes "q") (bytes "b")]

theorem referenced_rewrite_annotatedEntries : ∃ p plan result,
    (ReferencedDataFileAwareScanPlanner.make flatTable).addEntries annotatedEntries = .ok p ∧
    p.builder.getResult = .ok plan ∧ p.getResult = .ok result ∧
    planReach result.partitions = (planReach plan.partitions).map (annotatedDeletes annotatedEntries) := by
  have hadd : ∃ p, (ReferencedDataFileAwareScanPlanner.make flatTable).addEntries annotatedEntries = .ok p := ⟨_, rfl⟩
  obtain ⟨p, hp⟩ := hadd
  have hplan : ∃ plan, (builderOf flatTable annotatedEntries).getResult = .ok plan := ⟨_, rfl⟩
  rw [← (addEntries_noted hp).builder] at hplan
  obtain ⟨plan, hplan⟩ := hplan
  obtain ⟨result, hres, -, hreach⟩ := (referenced_rewrite_preserves_meaning flatTable annotatedEntries p hp).1
    (by decide) (by decide) (by decide) plan hplan
  exact ⟨p, plan, result, hp, hplan, hres, hreach⟩

/-- A file with both an annotated delete and a deletion vector. -/
def vectorAndDelete : List ManifestEntry := [dataFileEntry (bytes "a"), annotatedDelete (bytes "p") (bytes "a"),
  { sequenceNumber := some 1
    dataFile := {
      content := .positionDeletes
      filePath := bytes "v"
      fileFormat := deletionVectorFormat
      referencedDataFile := some (bytes "a")
      contentOffset := some 4
      contentSizeInBytes := some 40 } }]

/-- Two data entries of one path, and a delete annotated with it. -/
def repeatedData : List ManifestEntry := [dataFileEntry (bytes "a"), dataFileEntry (bytes "a"),
  annotatedDelete (bytes "p") (bytes "a")]

/-- Mixed deletes are rejected by the builder, so the rewrite has no plan to work on; and a
repeated data path is an error of the rewrite, not a reason to return the builder's plan. -/
theorem referenced_rewrite_can_fail :
    (∃ p, (ReferencedDataFileAwareScanPlanner.make flatTable).addEntries vectorAndDelete = .ok p ∧
      ((vectorAndDelete.filter isData).map (fun e => e.dataFile.filePath)).Nodup ∧
      vectorAndDelete.any isEquality = false ∧
      (∀ e ∈ vectorAndDelete, isPositionDelete e = true → isAnnotated e = true) ∧
      (∀ x ∈ vectorAndDelete, isPositionDelete x = true → ∃ e ∈ vectorAndDelete, isData e = true ∧
        x.dataFile.referencedDataFile = some e.dataFile.filePath ∧ keyOf x = keyOf e ∧
        covers (positionalOf x) e.dataFile.filePath = true) ∧
      ∀ result, p.getResult ≠ .ok result) ∧
    (∃ p plan, (ReferencedDataFileAwareScanPlanner.make flatTable).addEntries repeatedData = .ok p ∧
      p.builder.getResult = .ok plan ∧ p.getResult ≠ .ok plan) := by
  constructor
  · refine ⟨_, rfl, by decide, by decide, by decide, by decide, ?_⟩
    intro result h
    cases h
  · refine ⟨_, _, rfl, rfl, ?_⟩
    intro h
    cases h

end IcebergCxx.Proofs

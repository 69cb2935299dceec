import IcebergCxx.Proofs.Plan

/-!
# The scan plan law

Which deletes the plan applies to a data file, in terms of the manifest entries: every data
entry occurs once, and sequence numbers, partition keys and path ranges decide the rest.
-/

namespace IcebergCxx.Proofs

open Lib

/-! ### Kinds of live entries -/

def isData (e : ManifestEntry) : Bool := e.status ≠ .deleted && e.dataFile.content = .data

def isPositional (e : ManifestEntry) : Bool :=
  e.status ≠ .deleted && e.dataFile.content = .positionDeletes && e.dataFile.fileFormat ≠ deletionVectorFormat

def isVector (e : ManifestEntry) : Bool :=
  e.status ≠ .deleted && e.dataFile.content = .positionDeletes && e.dataFile.fileFormat = deletionVectorFormat

def isEquality (e : ManifestEntry) : Bool := e.status ≠ .deleted && e.dataFile.content = .equalityDeletes

/-- A deletion vector of the partition of a data entry that references its file. -/
def VectorFor (e x : ManifestEntry) : Prop :=
  isVector x = true ∧ keyOf x = keyOf e ∧ x.dataFile.referencedDataFile = some e.dataFile.filePath

/-- What the plan says about one data entry: its file and segments, exactly the equality
deletes of greater sequence numbers in its partition or without a partition, the positional
deletes of its partition that are not older (all of those whose range may contain its path),
and the newest deletion vector that references it. -/
structure PlanLaw (es : List ManifestEntry) (e : ManifestEntry)
    (item : Reach DataEntry PositionalDeleteInfo EqualityDeleteInfo) : Prop where
  path : item.item.path = e.dataFile.filePath
  parts : item.item.parts = segmentsOfFile e.dataFile
  equality : item.second = ((es.filter (fun x => isEquality x && decide (seqOf e < seqOf x) &&
    (decide (keyOf x = []) || decide (keyOf x = keyOf e)))).map equalityOf : List EqualityDeleteInfo)
  positional_le : item.first ≤ ((es.filter (fun x => isPositional x && decide (keyOf x = keyOf e) &&
    decide (seqOf e ≤ seqOf x))).map (fun x => ⟨x.dataFile.filePath⟩) : List PositionalDeleteInfo)
  le_positional : ((es.filter (fun x => isPositional x && decide (keyOf x = keyOf e) &&
    decide (seqOf e ≤ seqOf x) && covers (positionalOf x) e.dataFile.filePath)).map
      (fun x => ⟨x.dataFile.filePath⟩) : List PositionalDeleteInfo) ≤ item.first
  dv_isSome : item.item.dv.isSome = true ↔ ∃ x ∈ es, VectorFor e x ∧ seqOf e ≤ seqOf x
  dv_eq : ∀ dv, item.item.dv = some dv → ∃ x ∈ es, VectorFor e x ∧
    (∀ y ∈ es, VectorFor e y → seqOf y ≤ seqOf x) ∧ dv = vectorOf x

/-! ### The contents of the builder, by entries -/

lemma filterMap_eq_map_filter {A B : Type} {f : A → Option B} {p : A → Bool} {g : A → B} {l : List A}
    (h : ∀ a ∈ l, f a = if p a then some (g a) else none) : l.filterMap f = (l.filter p).map g := by
  induction l with
  | nil => rfl
  | cons a l ih =>
    have hrest := ih (fun b hb => h b (List.mem_cons_of_mem _ hb))
    have ha := h a List.mem_cons_self
    by_cases hp : p a = true
    · rw [if_pos hp] at ha
      rw [List.filterMap_cons_some ha, List.filter_cons_of_pos hp, List.map_cons, hrest]
    · rw [if_neg hp] at ha
      rw [List.filterMap_cons_none ha, List.filter_cons_of_neg hp, hrest]

/-- The kind of an entry decides its slot. -/
lemma slotOf_cases (e : ManifestEntry) :
    (slotOf e = none ∧ isData e = false ∧ isPositional e = false ∧ isVector e = false ∧ isEquality e = false) ∨
    (slotOf e = some (.data (keyOf e) (seqOf e) (dataEntryOf e)) ∧
      isData e = true ∧ isPositional e = false ∧ isVector e = false ∧ isEquality e = false) ∨
    (slotOf e = some (.positional (keyOf e) (seqOf e) (positionalOf e)) ∧
      isData e = false ∧ isPositional e = true ∧ isVector e = false ∧ isEquality e = false) ∨
    (slotOf e = some (.vector (keyOf e) (seqOf e) (referencedOf e) (vectorOf e)) ∧
      isData e = false ∧ isPositional e = false ∧ isVector e = true ∧ isEquality e = false) ∨
    (slotOf e = some (if keyOf e = [] then .global (wrapInt64 (seqOf e - 1)) (equalityOf e)
        else .equality (keyOf e) (wrapInt64 (seqOf e - 1)) (equalityOf e)) ∧
      isData e = false ∧ isPositional e = false ∧ isVector e = false ∧ isEquality e = true) := by
  unfold slotOf isData isPositional isVector isEquality
  by_cases hd : e.status = .deleted
  · exact .inl (by simp [hd])
  · refine .inr ?_
    cases hc : e.dataFile.content with
    | data => exact .inl (by simp [hd])
    | positionDeletes =>
      by_cases hf : e.dataFile.fileFormat = deletionVectorFormat
      · exact .inr (.inr (.inl (by simp [hd, hf])))
      · exact .inr (.inl (by simp [hd, hf]))
    | equalityDeletes =>
      refine .inr (.inr (.inr ?_))
      by_cases hk : keyOf e = [] <;> simp [hd, hk]

lemma slotOf_asData (e : ManifestEntry) :
    (slotOf e).bind Slot.asData = if isData e then some (keyOf e, seqOf e, dataEntryOf e) else none := by
  rcases slotOf_cases e with ⟨hs, h⟩ | ⟨hs, h⟩ | ⟨hs, h⟩ | ⟨hs, h⟩ | ⟨hs, h⟩ <;> rw [hs, h.1]
  · rfl
  · rfl
  · rfl
  · rfl
  · by_cases hk : keyOf e = [] <;> simp [hk, Slot.asData]

lemma slotOf_asPositional (e : ManifestEntry) :
    (slotOf e).bind Slot.asPositional = if isPositional e then some (keyOf e, seqOf e, positionalOf e) else none := by
  rcases slotOf_cases e with ⟨hs, h⟩ | ⟨hs, h⟩ | ⟨hs, h⟩ | ⟨hs, h⟩ | ⟨hs, h⟩ <;> rw [hs, h.2.1]
  · rfl
  · rfl
  · rfl
  · rfl
  · by_cases hk : keyOf e = [] <;> simp [hk, Slot.asPositional]

lemma slotOf_asEquality (e : ManifestEntry) :
    (slotOf e).bind Slot.asEquality = if isEquality e && !decide (keyOf e = []) then
      some (keyOf e, wrapInt64 (seqOf e - 1), equalityOf e) else none := by
  rcases slotOf_cases e with ⟨hs, h⟩ | ⟨hs, h⟩ | ⟨hs, h⟩ | ⟨hs, h⟩ | ⟨hs, h⟩ <;> rw [hs, h.2.2.2]
  · rfl
  · rfl
  · rfl
  · rfl
  · by_cases hk : keyOf e = [] <;> simp [hk, Slot.asEquality]

lemma slotOf_asGlobal (e : ManifestEntry) :
    (slotOf e).bind Slot.asGlobal = if isEquality e && decide (keyOf e = []) then
      some (wrapInt64 (seqOf e - 1), equalityOf e) else none := by
  rcases slotOf_cases e with ⟨hs, h⟩ | ⟨hs, h⟩ | ⟨hs, h⟩ | ⟨hs, h⟩ | ⟨hs, h⟩ <;> rw [hs, h.2.2.2]
  · rfl
  · rfl
  · rfl
  · rfl
  · by_cases hk : keyOf e = [] <;> simp [hk, Slot.asGlobal]

lemma slotOf_asVector (e : ManifestEntry) (key : Bytes) (level : Int) (path : Bytes) :
    (slotOf e).bind (Slot.asVector key level path) =
      if isVector e && decide (keyOf e = key ∧ seqOf e = level ∧ referencedOf e = path) then
        some (vectorOf e) else none := by
  rcases slotOf_cases e with ⟨hs, h⟩ | ⟨hs, h⟩ | ⟨hs, h⟩ | ⟨hs, h⟩ | ⟨hs, h⟩ <;> rw [hs, h.2.2.1]
  · rfl
  · rfl
  · rfl
  · simp [Slot.asVector]
  · by_cases hk : keyOf e = [] <;> simp [hk, Slot.asVector]

/-- The builder after the entries were added to an empty one. -/
def builderOf (tableMetadata : TableMetadata) (es : List ManifestEntry) : ScanMetadataBuilder :=
  (es.filterMap slotOf).foldl place { tableMetadata := tableMetadata }

variable (tableMetadata : TableMetadata) (es : List ManifestEntry)

lemma dataContents_builderOf : dataContents (builderOf tableMetadata es) =
    ((es.filter isData).map (fun e => (keyOf e, seqOf e, dataEntryOf e)) : List _) := by
  rw [builderOf, (contents_foldl_place _ _).1, List.filterMap_filterMap,
    filterMap_eq_map_filter (fun e _ => slotOf_asData e)]
  exact zero_add _

lemma positionalContents_builderOf : positionalContents (builderOf tableMetadata es) =
    ((es.filter isPositional).map (fun e => (keyOf e, seqOf e, positionalOf e)) : List _) := by
  rw [builderOf, (contents_foldl_place _ _).2.1, List.filterMap_filterMap,
    filterMap_eq_map_filter (fun e _ => slotOf_asPositional e)]
  exact zero_add _

lemma equalityContents_builderOf : equalityContents (builderOf tableMetadata es) =
    ((es.filter (fun e => isEquality e && !decide (keyOf e = []))).map
      (fun e => (keyOf e, wrapInt64 (seqOf e - 1), equalityOf e)) : List _) := by
  rw [builderOf, (contents_foldl_place _ _).2.2.1, List.filterMap_filterMap,
    filterMap_eq_map_filter (fun e _ => slotOf_asEquality e)]
  exact zero_add _

lemma globalContents_builderOf : globalContents (builderOf tableMetadata es) =
    ((es.filter (fun e => isEquality e && decide (keyOf e = []))).map
      (fun e => (wrapInt64 (seqOf e - 1), equalityOf e)) : List _) := by
  rw [builderOf, (contents_foldl_place _ _).2.2.2, List.filterMap_filterMap,
    filterMap_eq_map_filter (fun e _ => slotOf_asGlobal e)]
  exact zero_add _

lemma dvIn_builderOf (key : Bytes) (level : Int) (path : Bytes) : dvIn (builderOf tableMetadata es) key level path =
    ((es.filter (fun e => isVector e && decide (keyOf e = key ∧ seqOf e = level ∧ referencedOf e = path))).map
      vectorOf).getLast? := by
  rw [builderOf, dvIn_foldl_place, List.filterMap_filterMap,
    filterMap_eq_map_filter (fun e _ => slotOf_asVector e key level path)]
  exact Option.or_none

/-! ### What reaches a data file, by entries -/

/-- The contents of one partition. -/
lemma contents_at {X : Type} (f : LayerWithExtraInfo → Multiset X) (b : ScanMetadataBuilder) (key : Bytes) :
    (contents f b).filter (fun p => p.1 = key) =
      (locate f ((b.partitions.find? key).getD ∅).entries).map (Prod.mk key) := by
  cases hf : b.partitions.find? key with
  | none =>
    rw [Multiset.filter_eq_nil.mpr]
    · rfl
    · rintro ⟨k, x⟩ hx rfl
      obtain ⟨layers, hmem, -⟩ := mem_locate.mp hx
      rw [(b.partitions.mem_entries k layers).mp hmem] at hf
      cases hf
  | some layers =>
    exact filter_locate (fun layers => locate f layers.entries) b.partitions.keys_nodup
      ((b.partitions.mem_entries key layers).mpr hf)

lemma contents_above {X : Type} (f : LayerWithExtraInfo → Multiset X) (b : ScanMetadataBuilder) (key : Bytes)
    (level : Int) :
    ((locate f ((b.partitions.find? key).getD ∅).entries).filter (fun q => level ≤ q.1)).map Prod.snd =
      ((contents f b).filter (fun p => p.1 = key ∧ level ≤ p.2.1)).map (fun p => p.2.2) := by
  have hsplit : (contents f b).filter (fun p => p.1 = key ∧ level ≤ p.2.1) =
      ((contents f b).filter (fun p => p.1 = key)).filter (fun p => level ≤ p.2.1) := by
    rw [Multiset.filter_filter]
    exact Multiset.filter_congr (fun p _ => and_comm)
  rw [hsplit, contents_at, Multiset.filter_map, Multiset.map_map]
  rfl

variable {tableMetadata es}

lemma first_builderItem (key : Bytes) (level : Int) (d : DataEntry) :
    (builderItem (builderOf tableMetadata es) (key, level, d)).first =
      ((es.filter (fun x => isPositional x && decide (keyOf x = key) && decide (level ≤ seqOf x))).map
        positionalOf : List PositionalDeleteWithExtraInfo) := by
  change ((locate _ _).filter _).map _ = _
  rw [contents_above]
  change ((positionalContents _).filter _).map _ = _
  rw [positionalContents_builderOf, Multiset.filter_coe, Multiset.map_coe, List.filter_map, List.map_map,
    List.filter_filter]
  congr 2
  refine List.filter_congr (fun x _ => ?_)
  simp only [Function.comp_apply, Bool.decide_and]
  ac_rfl

/-- A sequence number that can be decremented. -/
lemma wrapInt64_pred {s : Int} (h : int64Min < s ∧ s ≤ int64Max) : wrapInt64 (s - 1) = s - 1 := by
  apply wrapInt64_of_inInt64
  constructor
  · omega
  · omega

lemma second_builderItem (key : Bytes) (level : Int) (d : DataEntry) :
    (builderItem (builderOf tableMetadata es) (key, level, d)).second =
      ((es.filter (fun x => isEquality x && decide (level ≤ wrapInt64 (seqOf x - 1)) &&
        (decide (keyOf x = []) || decide (keyOf x = key)))).map equalityOf : List EqualityDeleteInfo) := by
  have hpart : ((equalityContents (builderOf tableMetadata es)).filter (fun p => p.1 = key ∧ level ≤ p.2.1)).map
      (fun p => p.2.2) = ((es.filter (fun x => isEquality x && decide (level ≤ wrapInt64 (seqOf x - 1)) &&
        (!decide (keyOf x = []) && decide (keyOf x = key)))).map equalityOf : List EqualityDeleteInfo) := by
    rw [equalityContents_builderOf, Multiset.filter_coe, Multiset.map_coe, List.filter_map, List.map_map,
      List.filter_filter]
    congr 2
    refine List.filter_congr (fun x _ => ?_)
    simp only [Function.comp_apply, Bool.decide_and]
    ac_rfl
  have hglobal : ((globalContents (builderOf tableMetadata es)).filter (fun p => level ≤ p.1)).map Prod.snd =
      ((es.filter (fun x => isEquality x && decide (level ≤ wrapInt64 (seqOf x - 1)) &&
        decide (keyOf x = []))).map equalityOf : List EqualityDeleteInfo) := by
    rw [globalContents_builderOf, Multiset.filter_coe, Multiset.map_coe, List.filter_map, List.map_map,
      List.filter_filter]
    congr 2
    refine List.filter_congr (fun x _ => ?_)
    simp only [Function.comp_apply]
    ac_rfl
  change ((locate _ _ + globalContents _).filter _).map _ = _
  rw [Multiset.filter_add, Multiset.map_add, contents_above]
  change ((equalityContents _).filter _).map _ + _ = _
  rw [hpart, hglobal, ← Multiset.map_coe, ← Multiset.map_coe, ← Multiset.map_add, coe_filter_add_filter]
  · rw [Multiset.map_coe]
    congr 2
    refine List.filter_congr (fun x _ => ?_)
    by_cases hk : keyOf x = [] <;> simp [hk]
  · intro x hx
    simp only [Bool.and_eq_true, Bool.not_eq_true'] at hx
    simp [hx.2.1]

/-! ### Deletion vectors, by entries -/

lemma isSome_dvIn_iff (key : Bytes) (level : Int) (path : Bytes) :
    (dvIn (builderOf tableMetadata es) key level path).isSome = true ↔
      ∃ x ∈ es, isVector x = true ∧ keyOf x = key ∧ seqOf x = level ∧ referencedOf x = path := by
  rw [dvIn_builderOf, List.getLast?_isSome, ne_eq, List.map_eq_nil_iff, List.filter_eq_nil_iff]
  simp

lemma dvIn_eq_some {key : Bytes} {level : Int} {path : Bytes} {dv : DeletionVectorInfo}
    (h : dvIn (builderOf tableMetadata es) key level path = some dv) :
    ∃ x ∈ es, isVector x = true ∧ keyOf x = key ∧ seqOf x = level ∧ referencedOf x = path ∧ dv = vectorOf x := by
  rw [dvIn_builderOf] at h
  obtain ⟨x, hx, rfl⟩ := List.mem_map.mp (List.mem_of_getLast? h)
  obtain ⟨hmem, hp⟩ := List.mem_filter.mp hx
  simp only [Bool.and_eq_true, decide_eq_true_eq] at hp
  exact ⟨x, hmem, hp.1, hp.2.1, hp.2.2.1, hp.2.2.2, rfl⟩

/-- The resolved entry of a data file: nothing but the deletion vector is set, and that one is
the newest of its path if it is not older than the file. -/
lemma item_builderItem (key : Bytes) (level : Int) (d : DataEntry) (hd : d.dv = none) :
    let item := (builderItem (builderOf tableMetadata es) (key, level, d)).item
    item.path = d.path ∧ item.parts = d.parts ∧
    (item.dv.isSome = true ↔
      ∃ x ∈ es, isVector x = true ∧ keyOf x = key ∧ referencedOf x = d.path ∧ level ≤ seqOf x) ∧
    (∀ dv, item.dv = some dv → ∃ x ∈ es, isVector x = true ∧ keyOf x = key ∧ referencedOf x = d.path ∧
      (∀ y ∈ es, isVector y = true → keyOf y = key → referencedOf y = d.path → seqOf y ≤ seqOf x) ∧
      dv = vectorOf x) := by
  set b := builderOf tableMetadata es with hb
  intro item
  have hdv : ∀ l, dvAt (applyGlobalEqualityDeletes b.globalEqualityDeletes ((b.partitions.find? key).getD ∅)) l
      d.path = dvIn b key l d.path := by
    intro l
    rw [applyGlobalEqualityDeletes_eq, dvAt_foldl_addEqualityAt]
    rfl
  have hnone : ∀ l, dvIn b key l d.path = none →
      ∀ x ∈ es, isVector x = true → keyOf x = key → referencedOf x = d.path → seqOf x ≠ l := by
    intro l hl x hx hv hk hr hs
    have := (@isSome_dvIn_iff tableMetadata _ key l d.path).mpr ⟨x, hx, hv, hk, hs, hr⟩
    rw [← hb, hl] at this
    exact absurd this (by simp)
  have hitem : item = resolvedEntry (currentDvs (applyGlobalEqualityDeletes b.globalEqualityDeletes
      ((b.partitions.find? key).getD ∅))) level d := rfl
  rw [hitem]
  unfold resolvedEntry
  cases hc : (currentDvs (applyGlobalEqualityDeletes b.globalEqualityDeletes
      ((b.partitions.find? key).getD ∅))).find? d.path with
  | none =>
    have hall : ∀ l, dvIn b key l d.path = none := fun l => by
      rw [← hdv]
      exact find?_currentDvs_eq_none hc l
    refine ⟨rfl, rfl, ⟨fun h => ?_, ?_⟩, fun dv h => ?_⟩
    · simp only [hd, Option.isSome_none, Bool.false_eq_true] at h
    · rintro ⟨x, hx, hv, hk, hr, -⟩
      exact absurd rfl (hnone _ (hall (seqOf x)) x hx hv hk hr)
    · simp only [hd, reduceCtorEq] at h
  | some p =>
    obtain ⟨dv₀, l₀⟩ := p
    obtain ⟨hat, hlate⟩ := find?_currentDvs_eq_some hc
    rw [hdv] at hat
    obtain ⟨x₀, hx₀, hv₀, hk₀, hs₀, hr₀, rfl⟩ := dvIn_eq_some hat
    have hmax : ∀ y ∈ es, isVector y = true → keyOf y = key → referencedOf y = d.path → seqOf y ≤ l₀ := by
      intro y hy hv hk hr
      by_contra hlt
      have hn := hlate (seqOf y) (not_le.mp hlt)
      rw [hdv] at hn
      exact hnone _ hn y hy hv hk hr rfl
    simp only
    by_cases hl : level > l₀
    · rw [if_pos hl]
      refine ⟨rfl, rfl, ⟨fun h => ?_, ?_⟩, fun dv h => ?_⟩
      · simp only [hd, Option.isSome_none, Bool.false_eq_true] at h
      · rintro ⟨x, hx, hv, hk, hr, hle⟩
        have := hmax x hx hv hk hr
        omega
      · simp only [hd, reduceCtorEq] at h
    · rw [if_neg hl]
      refine ⟨rfl, rfl, ⟨fun _ => ⟨x₀, hx₀, hv₀, hk₀, hr₀, by omega⟩, fun _ => rfl⟩, fun dv h => ?_⟩
      cases h
      exact ⟨x₀, hx₀, hv₀, hk₀, hr₀, fun y hy hv hk hr => hs₀ ▸ hmax y hy hv hk hr, rfl⟩

/-! ### The law -/

/-- An accepted deletion vector names the file it belongs to. -/
lemma referenced_of_validateEntry {x : ManifestEntry} (h : validateEntry tableMetadata x = .ok ())
    (hv : isVector x = true) : x.dataFile.referencedDataFile = some (referencedOf x) := by
  simp only [isVector, Bool.and_eq_true, decide_eq_true_eq, ne_eq, decide_not, Bool.not_eq_true',
    decide_eq_false_iff_not] at hv
  unfold validateEntry at h
  rw [if_neg hv.1.1] at h
  obtain ⟨-, -, h⟩ := bind_ok h
  cases hr : x.dataFile.referencedDataFile with
  | some ref => simp [referencedOf, hr]
  | none =>
    cases hs : x.sequenceNumber with
    | none => rw [hs] at h; cases h
    | some s =>
      rw [hs] at h
      simp only [hv.1.2, hv.2, and_self, if_true, hr, reduceCtorEq] at h

/-- The scan plan law. Whatever entries were accepted, if `GetResult` does not throw, then the
data entries and the data files of the plan match one to one, and each file has the deletes
the law gives it. -/
theorem scan_plan_law (tableMetadata : TableMetadata) (es : List ManifestEntry) (b : ScanMetadataBuilder)
    (result : ScanMetadata)
    (hadd : ({ tableMetadata := tableMetadata } : ScanMetadataBuilder).addEntries es = .ok b)
    (hseq : ∀ e ∈ es, int64Min < seqOf e ∧ seqOf e ≤ int64Max)
    (hrange : ∀ e ∈ es, ∀ min max, minMaxReferencedPath e.dataFile = some (min, max) → min ≤ max)
    (hres : b.getResult = .ok result) :
    Multiset.Rel (PlanLaw es) (es.filter isData : List ManifestEntry) (planReach result.partitions) := by
  obtain ⟨hvalid, hb⟩ := addEntries_ok_iff.mp hadd
  change b = builderOf tableMetadata es at hb
  subst hb
  have hranges : BuilderRangesOrdered (builderOf tableMetadata es) := by
    intro p hp min max hr
    rw [positionalContents_builderOf, Multiset.mem_coe] at hp
    obtain ⟨x, hx, rfl⟩ := List.mem_map.mp hp
    exact hrange x (List.mem_filter.mp hx).1 min max hr
  have hplans := getResult_plans hranges hres
  rw [dataContents_builderOf, Multiset.map_coe, List.map_map, ← Multiset.map_coe, Multiset.rel_map_left] at hplans
  refine hplans.mono (fun e he item _ hitem => ?_)
  obtain ⟨h1, h2, h3, h4⟩ := hitem
  obtain ⟨hpath, hparts, hsome, hdv⟩ :=
    @item_builderItem tableMetadata es (keyOf e) (seqOf e) (dataEntryOf e) rfl
  have hvec : ∀ x ∈ es, (VectorFor e x ↔ isVector x = true ∧ keyOf x = keyOf e ∧
      referencedOf x = (dataEntryOf e).path) := by
    intro x hx
    constructor
    · rintro ⟨hv, hk, hr⟩
      exact ⟨hv, hk, by rw [referencedOf, hr]; rfl⟩
    · rintro ⟨hv, hk, hr⟩
      refine ⟨hv, hk, ?_⟩
      rw [referenced_of_validateEntry (hvalid x hx) hv, hr]
      rfl
  simp only [Function.comp_apply] at h1 h2 h3 h4
  rw [first_builderItem] at h3 h4
  have hlevel : es.filter (fun x => isEquality x && decide (seqOf e ≤ wrapInt64 (seqOf x - 1)) &&
      (decide (keyOf x = []) || decide (keyOf x = keyOf e))) = es.filter (fun x => isEquality x &&
      decide (seqOf e < seqOf x) && (decide (keyOf x = []) || decide (keyOf x = keyOf e))) :=
    List.filter_congr (fun x hx => by rw [wrapInt64_pred (hseq x hx)]; simp only [Int.le_sub_one_iff])
  rw [second_builderItem, hlevel] at h2
  refine ⟨by rw [h1, hpath]; rfl, by rw [h1, hparts]; rfl, h2, ?_, ?_, ?_, ?_⟩
  · rw [Multiset.map_coe, List.map_map] at h3
    exact h3
  · rw [Multiset.filter_coe, List.filter_map, Multiset.map_coe, List.map_map, List.filter_filter] at h4
    refine le_trans (le_of_eq ?_) h4
    congr 2
    refine List.filter_congr (fun x _ => ?_)
    simp only [Function.comp_apply, hpath, Bool.decide_eq_true]
    rw [Bool.and_comm]
    rfl
  · rw [h1, hsome]
    constructor
    · rintro ⟨x, hx, hv, hk, hr, hle⟩
      exact ⟨x, hx, (hvec x hx).mpr ⟨hv, hk, hr⟩, hle⟩
    · rintro ⟨x, hx, hv, hle⟩
      obtain ⟨hv, hk, hr⟩ := (hvec x hx).mp hv
      exact ⟨x, hx, hv, hk, hr, hle⟩
  · intro dv h
    rw [h1] at h
    obtain ⟨x, hx, hv, hk, hr, hmax, rfl⟩ := hdv dv h
    refine ⟨x, hx, (hvec x hx).mpr ⟨hv, hk, hr⟩, fun y hy hvy => ?_, rfl⟩
    obtain ⟨hv', hk', hr'⟩ := (hvec y hy).mp hvy
    exact hmax y hy hv' hk' hr'

/-- An unpartitioned table. -/
def flatTable : TableMetadata := { currentSchema := ⟨0, []⟩, partitionSpecs := [⟨0, []⟩] }

/-- Two data files, a positional delete with a range, an equality delete and a deletion vector. -/
def mixedEntries : List ManifestEntry := [
  { sequenceNumber := some 1, dataFile := { filePath := bytes "a", splitOffsets := [4, 90] } },
  { sequenceNumber := some 2, dataFile := { filePath := bytes "b" } },
  { sequenceNumber := some 1
    dataFile := {
      content := .positionDeletes
      filePath := bytes "p"
      lowerBounds := (∅ : OrdMap Int Bytes).insert filePathId (bytes "a")
      upperBounds := (∅ : OrdMap Int Bytes).insert filePathId (bytes "b") } },
  { sequenceNumber := some 2, dataFile := { content := .equalityDeletes, filePath := bytes "e", equalityIds := [1] } },
  { sequenceNumber := some 3
    dataFile := {
      content := .positionDeletes
      filePath := bytes "v"
      fileFormat := deletionVectorFormat
      referencedDataFile := some (bytes "b")
      contentOffset := some 4
      contentSizeInBytes := some 40 } }]

theorem scan_plan_law_mixedEntries : ∃ b result,
    ({ tableMetadata := flatTable } : ScanMetadataBuilder).addEntries mixedEntries = .ok b ∧
    b.getResult = .ok result ∧
    Multiset.Rel (PlanLaw mixedEntries) (mixedEntries.filter isData : List ManifestEntry)
      (planReach result.partitions) := by
  have hadd : ∃ b, ({ tableMetadata := flatTable } : ScanMetadataBuilder).addEntries mixedEntries = .ok b :=
    ⟨builderOf flatTable mixedEntries, addEntries_ok_iff.mpr ⟨by decide, rfl⟩⟩
  obtain ⟨b, hb⟩ := hadd
  have hbo : b = builderOf flatTable mixedEntries := (addEntries_ok_iff.mp hb).2
  have hres : ∃ result, b.getResult = .ok result := by
    rw [hbo]
    exact ⟨_, rfl⟩
  obtain ⟨result, hr⟩ := hres
  have hrange : ∀ e ∈ mixedEntries, (minMaxReferencedPath e.dataFile).all (fun r => decide (r.1 ≤ r.2)) = true := by
    decide
  refine ⟨b, result, hb, hr, scan_plan_law flatTable mixedEntries b result hb (by decide) ?_ hr⟩
  intro e he min max hm
  have hall := hrange e he
  rw [hm] at hall
  simpa using hall

end IcebergCxx.Proofs

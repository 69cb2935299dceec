import IcebergCxx.Proofs.Scan

/-!
# The optimizer preserves what applies to every data file

Redistribution is a run of single appends, each into the bucket of its path. A bucket ends up
with exactly the appends of its own in order, so a data file keeps the deletes that came
after it and share its bucket; a delete in range of the file always does.
-/

namespace IcebergCxx.Proofs

open Lib

def tierOf (layer : LayerWithExtraInfo) : Tier DataEntry PositionalDeleteWithExtraInfo EqualityDeleteInfo :=
  ⟨layer.dataEntries, layer.positionalDeleteEntries, layer.equalityDeleteEntries⟩

/-- Every data file of a partition with the deletes in its own layer or a later one. -/
def layersReach (layers : List LayerWithExtraInfo) :
    Multiset (Reach DataEntry PositionalDeleteWithExtraInfo EqualityDeleteInfo) :=
  reach (layers.map tierOf)

/-! ### Appends -/

/-- One append of `RedistributeDataIntoBuckets`. -/
abbrev Op := DataEntry ⊕ PositionalDeleteWithExtraInfo

def opsOf (partition : List LayerWithExtraInfo) : List Op :=
  partition.flatMap (fun layer => layer.dataEntries.map .inl ++ layer.positionalDeleteEntries.map .inr)

lemma opsOf_cons (layer : LayerWithExtraInfo) (partition : List LayerWithExtraInfo) :
    opsOf (layer :: partition) =
      layer.dataEntries.map .inl ++ layer.positionalDeleteEntries.map .inr ++ opsOf partition := rfl

def appendOp (bucket : List LayerWithExtraInfo) : Op → List LayerWithExtraInfo
  | .inl data => appendDataFileToBucket bucket data
  | .inr del => appendDeleteFileToBucket bucket del

def opDeletes : List Op → Multiset PositionalDeleteWithExtraInfo
  | [] => 0
  | .inl _ :: ops => opDeletes ops
  | .inr del :: ops => del ::ₘ opDeletes ops

def opData : List Op → Multiset DataEntry
  | [] => 0
  | .inl data :: ops => data ::ₘ opData ops
  | .inr _ :: ops => opData ops

/-- Every appended data file with the deletes appended after it. -/
def opReach : List Op → Multiset (Reach DataEntry PositionalDeleteWithExtraInfo EqualityDeleteInfo)
  | [] => 0
  | .inl data :: ops => ⟨data, opDeletes ops, 0⟩ ::ₘ opReach ops
  | .inr _ :: ops => opReach ops

lemma opDeletes_append (a b : List Op) : opDeletes (a ++ b) = opDeletes a + opDeletes b := by
  induction a with
  | nil => simp [opDeletes]
  | cons op a ih => cases op <;> simp [opDeletes, ih]

lemma opData_append (a b : List Op) : opData (a ++ b) = opData a + opData b := by
  induction a with
  | nil => simp [opData]
  | cons op a ih => cases op <;> simp [opData, ih]

lemma opReach_append (a b : List Op) :
    opReach (a ++ b) = (opReach a).map (Reach.extend (opDeletes b) 0) + opReach b := by
  induction a with
  | nil => simp [opReach]
  | cons op a ih => cases op <;> simp [opReach, ih, opDeletes_append, Reach.extend]

lemma opDeletes_inl (data : List DataEntry) : opDeletes (data.map .inl) = 0 := by
  induction data with
  | nil => rfl
  | cons d data ih => simpa [opDeletes] using ih

lemma opDeletes_inr (dels : List PositionalDeleteWithExtraInfo) : opDeletes (dels.map .inr) = dels := by
  induction dels with
  | nil => rfl
  | cons d dels ih => rw [List.map_cons, opDeletes, ih]; rfl

lemma opData_inl (data : List DataEntry) : opData (data.map .inl) = data := by
  induction data with
  | nil => rfl
  | cons d data ih => rw [List.map_cons, opData, ih]; rfl

lemma opData_inr (dels : List PositionalDeleteWithExtraInfo) : opData (dels.map .inr) = 0 := by
  induction dels with
  | nil => rfl
  | cons d dels ih => simpa [opData] using ih

lemma opReach_inl (data : List DataEntry) :
    opReach (data.map .inl) = (data : Multiset DataEntry).map (fun d => ⟨d, 0, 0⟩) := by
  induction data with
  | nil => rfl
  | cons d data ih => rw [List.map_cons, opReach, ih, opDeletes_inl]; rfl

lemma opReach_inr (dels : List PositionalDeleteWithExtraInfo) : opReach (dels.map .inr) = 0 := by
  induction dels with
  | nil => rfl
  | cons d dels ih => simpa [opReach] using ih

/-! ### The layers of a partition as a run of appends -/

lemma opDeletes_opsOf (partition : List LayerWithExtraInfo) :
    opDeletes (opsOf partition) = deletesOf partition := by
  induction partition with
  | nil => rfl
  | cons layer partition ih =>
    rw [opsOf_cons, opDeletes_append, opDeletes_append, opDeletes_inl, opDeletes_inr, zero_add, ih, Multiset.coe_add]
    rfl

lemma opData_opsOf (partition : List LayerWithExtraInfo) : opData (opsOf partition) = dataOf partition := by
  induction partition with
  | nil => rfl
  | cons layer partition ih =>
    rw [opsOf_cons, opData_append, opData_append, opData_inl, opData_inr, add_zero, ih, Multiset.coe_add]
    rfl

lemma firsts_tiers (layers : List LayerWithExtraInfo) : firsts (layers.map tierOf) = deletesOf layers := by
  induction layers with
  | nil => rfl
  | cons layer layers ih =>
    rw [List.map_cons, firsts, ih]
    exact Multiset.coe_add _ _

lemma items_tiers (layers : List LayerWithExtraInfo) : items (layers.map tierOf) = dataOf layers := by
  induction layers with
  | nil => rfl
  | cons layer layers ih =>
    rw [List.map_cons, items, ih]
    exact Multiset.coe_add _ _

/-- A partition without equality deletes. -/
def NoEquality (layers : List LayerWithExtraInfo) : Prop := ∀ layer ∈ layers, layer.equalityDeleteEntries = []

lemma NoEquality.seconds {layers : List LayerWithExtraInfo} (h : NoEquality layers) :
    seconds (layers.map tierOf) = 0 := by
  induction layers with
  | nil => rfl
  | cons layer layers ih =>
    rw [List.map_cons, Lib.seconds, ih (fun l hl => h l (List.mem_cons_of_mem _ hl))]
    simp [tierOf, h layer List.mem_cons_self]

lemma opReach_opsOf {partition : List LayerWithExtraInfo} (h : NoEquality partition) :
    opReach (opsOf partition) = layersReach partition := by
  induction partition with
  | nil => rfl
  | cons layer partition ih =>
    have hrest : NoEquality partition := fun l hl => h l (List.mem_cons_of_mem _ hl)
    have hfirsts : firsts ((layer :: partition).map tierOf) =
        layer.positionalDeleteEntries + opDeletes (opsOf partition) := by
      rw [opDeletes_opsOf, ← firsts_tiers]
      rfl
    rw [opsOf_cons, opReach_append, opReach_append, opReach_inl, opReach_inr, opDeletes_inr, add_zero, ih hrest,
      layersReach, layersReach, List.map_cons, reach, ← List.map_cons (f := tierOf), hfirsts, h.seconds,
      Multiset.map_map, Multiset.map_map]
    congr 1

/-! ### One bucket -/

lemma layersReach_appendData {bucket : List LayerWithExtraInfo} (h : NoEquality bucket) (data : DataEntry) :
    NoEquality (appendDataFileToBucket bucket data) ∧
      layersReach (appendDataFileToBucket bucket data) = layersReach bucket + {⟨data, 0, 0⟩} ∧
      (deletesOf (appendDataFileToBucket bucket data) : Multiset PositionalDeleteWithExtraInfo) = deletesOf bucket := by
  unfold appendDataFileToBucket
  split
  · rename_i hl
    rw [List.getLast?_eq_none_iff.mp hl]
    exact ⟨by simp [NoEquality], rfl, rfl⟩
  · rename_i back hl
    obtain ⟨init, rfl⟩ := List.getLast?_eq_some_iff.mp hl
    have hback : back.equalityDeleteEntries = [] := h back (by simp)
    have hinit : NoEquality init := fun l hm => h l (List.mem_append_left _ hm)
    split_ifs with hp
    · have hpos : back.positionalDeleteEntries = [] := List.isEmpty_iff.mp hp
      rw [List.dropLast_concat]
      refine ⟨?_, ?_, ?_⟩
      · intro l hm
        rcases List.mem_append.mp hm with hm | hm
        · exact hinit l hm
        · rw [List.mem_singleton.mp hm]; exact hback
      · rw [layersReach, layersReach, List.map_append, List.map_append, reach_append, reach_append]
        simp [reach, tierOf, firsts, Lib.seconds, hpos, hback, add_assoc, ← Multiset.coe_add]
      · simp [deletesOf]
    · refine ⟨?_, ?_, ?_⟩
      · intro l hm
        rcases List.mem_append.mp hm with hm | hm
        · exact h l hm
        · rw [List.mem_singleton.mp hm]
      · rw [layersReach, List.map_append, reach_append]
        simp [reach, tierOf, firsts, Lib.seconds, layersReach]
      · simp [deletesOf]

lemma layersReach_appendDelete {bucket : List LayerWithExtraInfo} (h : NoEquality bucket)
    (del : PositionalDeleteWithExtraInfo) :
    NoEquality (appendDeleteFileToBucket bucket del) ∧
      layersReach (appendDeleteFileToBucket bucket del) = (layersReach bucket).map (Reach.extend {del} 0) ∧
      (deletesOf (appendDeleteFileToBucket bucket del) : Multiset PositionalDeleteWithExtraInfo) =
        deletesOf bucket + {del} := by
  unfold appendDeleteFileToBucket
  split
  · rename_i hl
    rw [List.getLast?_eq_none_iff.mp hl]
    exact ⟨by simp [NoEquality], rfl, rfl⟩
  · rename_i back hl
    obtain ⟨init, rfl⟩ := List.getLast?_eq_some_iff.mp hl
    have hback : back.equalityDeleteEntries = [] := h back (by simp)
    rw [List.dropLast_concat]
    refine ⟨?_, ?_, ?_⟩
    · intro l hm
      rcases List.mem_append.mp hm with hm | hm
      · exact h l (List.mem_append_left _ hm)
      · rw [List.mem_singleton.mp hm]; exact hback
    · rw [layersReach, layersReach, List.map_append, List.map_append, reach_append, reach_append, Multiset.map_add,
        Multiset.map_map, Reach.extend_comp]
      simp [reach, tierOf, firsts, Lib.seconds, hback, Reach.extend, Function.comp_def, ← Multiset.coe_add]
    · simp [deletesOf, ← Multiset.coe_add, add_assoc]

/-- A bucket built by a run of appends. -/
lemma layersReach_foldl_appendOp (ops : List Op) :
    NoEquality (ops.foldl appendOp []) ∧ layersReach (ops.foldl appendOp []) = opReach ops ∧
      (deletesOf (ops.foldl appendOp []) : Multiset PositionalDeleteWithExtraInfo) = opDeletes ops := by
  induction ops using List.reverseRecOn with
  | nil => exact ⟨by simp [NoEquality], rfl, rfl⟩
  | append_singleton ops op ih =>
    obtain ⟨hne, hreach, hdel⟩ := ih
    rw [List.foldl_append, List.foldl_cons, List.foldl_nil, opReach_append, opDeletes_append]
    cases op with
    | inl data =>
      obtain ⟨h1, h2, h3⟩ := layersReach_appendData hne data
      refine ⟨h1, ?_, ?_⟩
      · rw [appendOp, h2, hreach]
        simp [opReach, opDeletes]
      · rw [appendOp, h3, hdel]
        simp [opDeletes]
    | inr del =>
      obtain ⟨h1, h2, h3⟩ := layersReach_appendDelete hne del
      refine ⟨h1, ?_, ?_⟩
      · rw [appendOp, h2, hreach]
        simp [opReach, opDeletes]
      · rw [appendOp, h3, hdel]
        simp [opDeletes]

/-! ### All buckets -/

/-- The bucket of an append, by path. -/
def bucketOf (bounds : List Bytes) : Op → Nat
  | .inl data => upperBound bounds data.path - 1
  | .inr del => upperBound bounds (rangeOf del).1 - 1

/-- Boundaries that fit the appends of a partition: every path is at or after the first one
and no range crosses one. -/
structure Fits (bounds : List Bytes) (ops : List Op) : Prop where
  data : ∀ data, .inl data ∈ ops → 0 < upperBound bounds data.path
  start : ∀ del, .inr del ∈ ops → 0 < upperBound bounds (rangeOf del).1
  bounded : ∀ del, .inr del ∈ ops → WellBounded del
  crossed : ∀ del, .inr del ∈ ops → ∀ b ∈ bounds, ¬((rangeOf del).1 < b ∧ b ≤ (rangeOf del).2)

lemma Fits.upperBound_eq {bounds : List Bytes} {ops : List Op} (h : Fits bounds ops)
    {del : PositionalDeleteWithExtraInfo} (hdel : .inr del ∈ ops) {x : Bytes} (hmin : (rangeOf del).1 ≤ x)
    (hmax : x ≤ (rangeOf del).2) : upperBound bounds (rangeOf del).1 = upperBound bounds x :=
  Lib.upperBound_eq hmin (fun b hb hbx => h.crossed del hdel b hb ⟨hbx.1, hbx.2.trans hmax⟩)

lemma Fits.bucketOf_lt {bounds : List Bytes} {ops : List Op} (h : Fits bounds ops) {op : Op} (hop : op ∈ ops) :
    bucketOf bounds op < bounds.length := by
  cases op with
  | inl data =>
    have h1 := h.data data hop
    have h2 := upperBound_le_length bounds data.path
    simp only [bucketOf]
    omega
  | inr del =>
    have h1 := h.start del hop
    have h2 := upperBound_le_length bounds (rangeOf del).1
    simp only [bucketOf]
    omega

def appendToBucket (bounds : List Bytes) (buckets : List (List LayerWithExtraInfo)) (op : Op) :
    List (List LayerWithExtraInfo) :=
  buckets.modify (bucketOf bounds op) (fun bucket => appendOp bucket op)

lemma calculateBucketByPath_ok {bounds : List Bytes} {path : Bytes} (h : 0 < upperBound bounds path) :
    calculateBucketByPath bounds path = .ok (upperBound bounds path - 1) := by
  have hne : upperBound bounds path ≠ 0 := by omega
  simp [calculateBucketByPath, ensure, hne]

lemma redistributeDelete_ok {bounds : List Bytes} {ops : List Op} (h : Fits bounds ops)
    {del : PositionalDeleteWithExtraInfo} (hdel : .inr del ∈ ops) (buckets : List (List LayerWithExtraInfo)) :
    redistributeDelete bounds buckets del = .ok (appendToBucket bounds buckets (.inr del)) := by
  obtain ⟨hr, hle⟩ := (h.bounded del hdel).range
  have heq := h.upperBound_eq hdel hle le_rfl
  have hpos := h.start del hdel
  unfold redistributeDelete
  rw [hr]
  simp only
  rw [calculateBucketByPath_ok hpos, calculateBucketByPath_ok (heq ▸ hpos), heq]
  simp [ensure, appendToBucket, bucketOf, appendOp, heq]

/-- The loops over layers, data files and deletes as one run of appends. -/
lemma foldl_layers_appendToBucket (bounds : List Bytes) (layers : List LayerWithExtraInfo)
    (buckets : List (List LayerWithExtraInfo)) :
    layers.foldl (fun buckets layer => layer.positionalDeleteEntries.foldl
        (fun buckets del => appendToBucket bounds buckets (.inr del))
        (layer.dataEntries.foldl (fun buckets data => appendToBucket bounds buckets (.inl data)) buckets)) buckets =
      (opsOf layers).foldl (appendToBucket bounds) buckets := by
  induction layers generalizing buckets with
  | nil => rfl
  | cons layer layers ih =>
    rw [List.foldl_cons, ih, opsOf_cons, List.foldl_append, List.foldl_append, List.foldl_map, List.foldl_map]

lemma redistributeDataIntoBuckets_ok {bounds : List Bytes} {partition : List LayerWithExtraInfo}
    (h : Fits bounds (opsOf partition)) :
    redistributeDataIntoBuckets bounds partition =
      .ok ((opsOf partition).foldl (appendToBucket bounds) (List.replicate bounds.length [])) := by
  rw [← foldl_layers_appendToBucket]
  refine foldlM_ok (fun layer hlayer buckets => ?_) _
  have hdata : ∀ data ∈ layer.dataEntries, .inl data ∈ opsOf partition := by
    intro data hd
    exact List.mem_flatMap.mpr ⟨layer, hlayer, by simp [hd]⟩
  have hdels : ∀ del ∈ layer.positionalDeleteEntries, .inr del ∈ opsOf partition := by
    intro del hd
    exact List.mem_flatMap.mpr ⟨layer, hlayer, by simp [hd]⟩
  rw [foldlM_ok (g := fun buckets data => appendToBucket bounds buckets (.inl data)), ok_bind,
    foldlM_ok (g := fun buckets del => appendToBucket bounds buckets (.inr del))]
  · exact fun del hd bs => redistributeDelete_ok h (hdels del hd) bs
  · intro data hd bs
    rw [redistributeData, calculateBucketByPath_ok (h.data data (hdata data hd))]
    rfl

lemma calculateBucketByPath_inv {bounds : List Bytes} {path : Bytes} {i : Nat}
    (h : calculateBucketByPath bounds path = .ok i) : i = upperBound bounds path - 1 ∧ i < bounds.length := by
  obtain ⟨u, hu, h⟩ := bind_ok h
  cases h
  have hne := ensure_ok hu
  have hle := upperBound_le_length bounds path
  simp only [ne_eq, decide_not, Bool.not_eq_true', decide_eq_false_iff_not] at hne
  omega

/-- Whatever the ranges, a redistribution that succeeds is a run of appends into existing buckets. -/
lemma redistributeDataIntoBuckets_inv {bounds : List Bytes} {partition : List LayerWithExtraInfo}
    {buckets : List (List LayerWithExtraInfo)} (h : redistributeDataIntoBuckets bounds partition = .ok buckets) :
    (∀ op ∈ opsOf partition, bucketOf bounds op < bounds.length) ∧
      buckets = (opsOf partition).foldl (appendToBucket bounds) (List.replicate bounds.length []) := by
  have hlayers := foldlM_ok_inv (P := fun layer =>
      (∀ data ∈ layer.dataEntries, bucketOf bounds (.inl data) < bounds.length) ∧
      (∀ del ∈ layer.positionalDeleteEntries, bucketOf bounds (.inr del) < bounds.length))
    (g := fun buckets layer => layer.positionalDeleteEntries.foldl
      (fun buckets del => appendToBucket bounds buckets (.inr del))
      (layer.dataEntries.foldl (fun buckets data => appendToBucket bounds buckets (.inl data)) buckets)) ?_ h
  · refine ⟨fun op hop => ?_, by rw [hlayers.2, foldl_layers_appendToBucket]⟩
    obtain ⟨layer, hl, hop⟩ := List.mem_flatMap.mp hop
    rcases List.mem_append.mp hop with hop | hop
    · obtain ⟨data, hd, rfl⟩ := List.mem_map.mp hop
      exact (hlayers.1 layer hl).1 data hd
    · obtain ⟨del, hd, rfl⟩ := List.mem_map.mp hop
      exact (hlayers.1 layer hl).2 del hd
  · intro layer _ bs bs' hstep
    obtain ⟨bs₁, h1, h2⟩ := bind_ok hstep
    have hdata := foldlM_ok_inv (P := fun data => bucketOf bounds (.inl data) < bounds.length)
      (g := fun buckets data => appendToBucket bounds buckets (.inl data)) ?_ h1
    · have hdels := foldlM_ok_inv (P := fun del => bucketOf bounds (.inr del) < bounds.length)
        (g := fun buckets del => appendToBucket bounds buckets (.inr del)) ?_ h2
      · exact ⟨⟨hdata.1, hdels.1⟩, by rw [hdels.2, hdata.2]⟩
      · intro del _ s s' hs
        unfold redistributeDelete at hs
        split at hs
        · cases hs
        · rename_i min max hr
          obtain ⟨b1, hb1, hs⟩ := bind_ok hs
          obtain ⟨b2, -, hs⟩ := bind_ok hs
          obtain ⟨-, -, hs⟩ := bind_ok hs
          cases hs
          obtain ⟨rfl, hlt⟩ := calculateBucketByPath_inv hb1
          have hmin : (rangeOf del).1 = min := by simp [rangeOf, hr]
          simp only [bucketOf, appendToBucket, hmin]
          exact ⟨hlt, rfl⟩
    · intro data _ s s' hs
      obtain ⟨i, hi, hs⟩ := bind_ok hs
      cases hs
      obtain ⟨rfl, hlt⟩ := calculateBucketByPath_inv hi
      exact ⟨hlt, rfl⟩

/-- A bucket holds the appends of its own, in order. -/
lemma foldl_appendToBucket (bounds : List Bytes) (ops : List Op) (buckets : List (List LayerWithExtraInfo)) (i : Nat) :
    (ops.foldl (appendToBucket bounds) buckets)[i]? =
      buckets[i]?.map ((ops.filter (fun op => bucketOf bounds op = i)).foldl appendOp) := by
  induction ops generalizing buckets with
  | nil => simp
  | cons op ops ih =>
    rw [List.foldl_cons, ih, appendToBucket, List.getElem?_modify]
    by_cases hi : bucketOf bounds op = i
    · simp [hi, Function.comp_def]
    · simp [hi]

/-- The appends of one bucket. -/
def opsAt (bounds : List Bytes) (ops : List Op) (i : Nat) : List Op := ops.filter (fun op => bucketOf bounds op = i)

@[simp] lemma opsAt_nil (bounds : List Bytes) (i : Nat) : opsAt bounds [] i = [] := rfl

lemma opsAt_cons_of_eq {bounds : List Bytes} {op : Op} {i : Nat} (h : bucketOf bounds op = i) (ops : List Op) :
    opsAt bounds (op :: ops) i = op :: opsAt bounds ops i :=
  List.filter_cons_of_pos (by simpa using h)

lemma opsAt_cons_of_ne {bounds : List Bytes} {op : Op} {i : Nat} (h : bucketOf bounds op ≠ i) (ops : List Op) :
    opsAt bounds (op :: ops) i = opsAt bounds ops i :=
  List.filter_cons_of_neg (by simpa using h)

def bucketAt (bounds : List Bytes) (ops : List Op) (i : Nat) : List LayerWithExtraInfo :=
  (opsAt bounds ops i).foldl appendOp []

lemma foldl_appendToBucket_eq (bounds : List Bytes) (ops : List Op) :
    ops.foldl (appendToBucket bounds) (List.replicate bounds.length []) =
      (List.range bounds.length).map (bucketAt bounds ops) := by
  apply List.ext_getElem?
  intro i
  rw [foldl_appendToBucket]
  by_cases hi : i < bounds.length
  · simp [hi, bucketAt, opsAt]
  · simp [hi]

section Sums

variable {β : Type}

/-- A list indexed by the numbers below `n`, as a sum. -/
lemma sum_range_single {n j : Nat} (hj : j < n) (f : Nat → Multiset β) (x : Multiset β) :
    ((List.range n).map (fun i => (if j = i then x else 0) + f i)).sum = x + ((List.range n).map f).sum := by
  have hsum : ∀ g : Nat → Multiset β, ((List.range n).map g).sum = ∑ i ∈ Finset.range n, g i := fun g => by
    simp [Finset.sum, Multiset.range]
  rw [hsum, hsum, Finset.sum_add_distrib, Finset.sum_ite_eq, if_pos (Finset.mem_range.mpr hj)]

end Sums

variable {bounds : List Bytes}

/-- What is collected from the appends is collected bucket by bucket. -/
lemma sum_buckets {β : Type} {f : List Op → Multiset β} (hf : ∀ a b, f (a ++ b) = f a + f b) {ops : List Op}
    (h : ∀ op ∈ ops, bucketOf bounds op < bounds.length) :
    ((List.range bounds.length).map (fun i => f (opsAt bounds ops i))).sum = f ops := by
  have hnil : f [] = 0 := by
    have h0 := hf [] []
    rwa [List.append_nil, left_eq_add] at h0
  induction ops with
  | nil => simp [hnil]
  | cons op ops ih =>
    have hop := h op List.mem_cons_self
    rw [show f (op :: ops) = f [op] + f ops from hf [op] ops,
      ← ih (fun o ho => h o (List.mem_cons_of_mem _ ho)), ← sum_range_single hop]
    congr 2
    funext i
    by_cases hi : bucketOf bounds op = i
    · rw [opsAt_cons_of_eq hi, if_pos hi]
      exact hf [op] _
    · rw [opsAt_cons_of_ne hi, if_neg hi, zero_add]

/-- The deletes of an item's own bucket. -/
def restrictToBucket (bounds : List Bytes) (r : Reach DataEntry PositionalDeleteWithExtraInfo EqualityDeleteInfo) :
    Reach DataEntry PositionalDeleteWithExtraInfo EqualityDeleteInfo :=
  ⟨r.item, r.first.filter (fun del => bucketOf bounds (.inr del) = bucketOf bounds (.inl r.item)), r.second⟩

lemma opDeletes_filter (ops : List Op) (i : Nat) :
    opDeletes (opsAt bounds ops i) =
      (opDeletes ops).filter (fun del => bucketOf bounds (.inr del) = i) := by
  induction ops with
  | nil => rfl
  | cons op ops ih =>
    by_cases hi : bucketOf bounds op = i
    · rw [opsAt_cons_of_eq hi]
      cases op with
      | inl data => simpa [opDeletes] using ih
      | inr del => simp [opDeletes, hi, ih]
    · rw [opsAt_cons_of_ne hi]
      cases op with
      | inl data => simpa [opDeletes] using ih
      | inr del => simp [opDeletes, hi, ih]

lemma sum_opReach {ops : List Op} (h : ∀ op ∈ ops, bucketOf bounds op < bounds.length) :
    ((List.range bounds.length).map (fun i => opReach (opsAt bounds ops i))).sum =
      (opReach ops).map (restrictToBucket bounds) := by
  induction ops with
  | nil => simp [opReach]
  | cons op ops ih =>
    have hop := h op List.mem_cons_self
    have hrest := ih (fun o ho => h o (List.mem_cons_of_mem _ ho))
    cases op with
    | inl data =>
      rw [opReach, Multiset.map_cons, ← hrest, ← Multiset.singleton_add, ← sum_range_single hop]
      congr 2
      funext i
      by_cases hi : bucketOf bounds (.inl data) = i
      · rw [opsAt_cons_of_eq hi, if_pos hi, opReach, opDeletes_filter, restrictToBucket]
        subst hi
        rfl
      · rw [opsAt_cons_of_ne hi, if_neg hi, zero_add]
    | inr del =>
      rw [opReach, ← hrest]
      congr 2
      funext i
      by_cases hi : bucketOf bounds (.inr del) = i
      · rw [opsAt_cons_of_eq hi, opReach]
      · rw [opsAt_cons_of_ne hi]

/-! ### The optimizer -/

/-- A path in the range of a delete; a delete without a range may reach every path. -/
def covers (del : PositionalDeleteWithExtraInfo) (path : Bytes) : Bool :=
  match del.minMaxReferencedPath with
  | none => true
  | some (min, max) => min ≤ path && path ≤ max

/-- What the rewrite of a partition into buckets keeps. -/
structure SameMeaning (partition : List LayerWithExtraInfo) (buckets : List (List LayerWithExtraInfo)) : Prop where
  data : (buckets.map (fun bucket => (dataOf bucket : Multiset DataEntry))).sum = dataOf partition
  deletes : (buckets.map (fun bucket => (deletesOf bucket : Multiset PositionalDeleteWithExtraInfo))).sum =
    deletesOf partition
  noEquality : ∀ bucket ∈ buckets, NoEquality bucket
  reached : Multiset.Rel (fun before after => after.item = before.item ∧ after.second = before.second ∧
      after.first ≤ before.first ∧
      ∀ del, covers del before.item.path = true → after.first.count del = before.first.count del)
    (layersReach partition) (buckets.map layersReach).sum
  apart : ∀ (i j : Nat) (bucket bucket' : List LayerWithExtraInfo), i ≠ j → buckets[i]? = some bucket →
    buckets[j]? = some bucket' → ∀ d ∈ dataOf bucket, ∀ d' ∈ dataOf bucket', ∀ del ∈ deletesOf partition,
      ¬(covers del d.path = true ∧ covers del d'.path = true)

lemma mem_opsOf_inl {partition : List LayerWithExtraInfo} {data : DataEntry} :
    (.inl data : Op) ∈ opsOf partition ↔ data ∈ dataOf partition := by
  simp [opsOf, dataOf]

lemma mem_opsOf_inr {partition : List LayerWithExtraInfo} {del : PositionalDeleteWithExtraInfo} :
    (.inr del : Op) ∈ opsOf partition ↔ del ∈ deletesOf partition := by
  simp [opsOf, deletesOf]

lemma mem_opData {ops : List Op} {data : DataEntry} : data ∈ opData ops ↔ .inl data ∈ ops := by
  induction ops with
  | nil => simp [opData]
  | cons op ops ih => cases op <;> simp [opData, ih]

lemma mem_opDeletes {ops : List Op} {del : PositionalDeleteWithExtraInfo} : del ∈ opDeletes ops ↔ .inr del ∈ ops := by
  induction ops with
  | nil => simp [opDeletes]
  | cons op ops ih => cases op <;> simp [opDeletes, ih]

lemma first_le_opDeletes {ops : List Op} {r : Reach DataEntry PositionalDeleteWithExtraInfo EqualityDeleteInfo}
    (h : r ∈ opReach ops) : r.first ≤ opDeletes ops := by
  induction ops with
  | nil => exact absurd h (Multiset.notMem_zero r)
  | cons op ops ih =>
    cases op with
    | inl data =>
      rcases Multiset.mem_cons.mp h with rfl | h
      · exact le_rfl
      · exact ih h
    | inr del => exact (ih h).trans (Multiset.le_cons_self _ _)

lemma fits_of_findBucketLowerBounds {partition : List LayerWithExtraInfo}
    (h : ∀ del ∈ deletesOf partition, WellBounded del) :
    ∃ bounds, findBucketLowerBounds partition = .ok bounds ∧ Fits bounds (opsOf partition) := by
  obtain ⟨bounds, hb, hcross, hpos⟩ := findBucketLowerBounds_ok h
  refine ⟨bounds, hb, ?_, ?_, ?_, ?_⟩
  · intro data hdata
    exact hpos _ (mem_eventsOf.mpr (.inr ⟨data, mem_opsOf_inl.mp hdata, rfl⟩))
  · intro del hdel
    exact hpos ⟨.opening, (rangeOf del).1⟩
      (mem_eventsOf.mpr (.inl ⟨del, mem_opsOf_inr.mp hdel, by simp [deleteEvents]⟩))
  · exact fun del hdel => h del (mem_opsOf_inr.mp hdel)
  · exact fun del hdel b hbb => hcross b hbb del (mem_opsOf_inr.mp hdel)

lemma Fits.bucket_of_covers {ops : List Op} (h : Fits bounds ops) {del : PositionalDeleteWithExtraInfo}
    (hdel : .inr del ∈ ops) {data : DataEntry} (hc : covers del data.path = true) :
    bucketOf bounds (.inr del) = bucketOf bounds (.inl data) := by
  have hr := (h.bounded del hdel).range.1
  rw [covers, hr] at hc
  simp only [Bool.and_eq_true, decide_eq_true_eq] at hc
  simp only [bucketOf, h.upperBound_eq hdel hc.1 hc.2]

lemma map_item_opReach (ops : List Op) : (opReach ops).map Reach.item = opData ops := by
  induction ops with
  | nil => rfl
  | cons op ops ih => cases op <;> simp [opReach, opData, ih]

lemma dataOf_bucketAt (ops : List Op) (i : Nat) :
    (dataOf (bucketAt bounds ops i) : Multiset DataEntry) = opData (opsAt bounds ops i) := by
  rw [← items_tiers, items_eq_map_reach, ← map_item_opReach]
  exact congrArg _ (layersReach_foldl_appendOp (opsAt bounds ops i)).2.1

lemma bucketOf_of_mem_bucketAt {ops : List Op} {i : Nat} {data : DataEntry}
    (h : data ∈ dataOf (bucketAt bounds ops i)) : bucketOf bounds (.inl data) = i := by
  rw [← Multiset.mem_coe, dataOf_bucketAt, mem_opData, opsAt, List.mem_filter] at h
  simpa using h.2

/-- What a data file loses by moving into its bucket is out of range. -/
lemma restrictToBucket_count {ops : List Op} (h : Fits bounds ops)
    {r : Reach DataEntry PositionalDeleteWithExtraInfo EqualityDeleteInfo} (hr : r ∈ opReach ops)
    {del : PositionalDeleteWithExtraInfo} (hdel : covers del r.item.path = true) :
    (restrictToBucket bounds r).first.count del = r.first.count del := by
  rw [restrictToBucket, Multiset.count_filter]
  split_ifs with hsame
  · rfl
  · rw [eq_comm, Multiset.count_eq_zero]
    intro hmem
    exact hsame (h.bucket_of_covers (mem_opDeletes.mp (Multiset.mem_of_le (first_le_opDeletes hr) hmem)) hdel)

/-- What reaches the data files of all buckets together. -/
lemma sum_layersReach_bucketAt {partition : List LayerWithExtraInfo} (hne : NoEquality partition)
    (hlt : ∀ op ∈ opsOf partition, bucketOf bounds op < bounds.length) :
    (((List.range bounds.length).map (bucketAt bounds (opsOf partition))).map layersReach).sum =
      (layersReach partition).map (restrictToBucket bounds) := by
  rw [← opReach_opsOf hne, ← sum_opReach hlt, List.map_map]
  exact congrArg List.sum (List.map_congr_left (fun i _ =>
    (layersReach_foldl_appendOp (opsAt bounds (opsOf partition) i)).2.1))

/-- Whatever the ranges, the optimizer gives no data file a delete it did not have. -/
lemma optimizePartition_shrinks {partition : List LayerWithExtraInfo} (hne : NoEquality partition)
    {buckets : List (List LayerWithExtraInfo)} (h : optimizePartition partition = .ok buckets) :
    Multiset.Rel (fun before after => after.item = before.item ∧ after.second = before.second ∧
      after.first ≤ before.first) (layersReach partition) (buckets.map layersReach).sum := by
  obtain ⟨bounds, -, h⟩ := bind_ok h
  obtain ⟨hlt, rfl⟩ := redistributeDataIntoBuckets_inv h
  rw [foldl_appendToBucket_eq, sum_layersReach_bucketAt hne hlt, Multiset.rel_map_right]
  exact Multiset.rel_refl_of_refl_on (fun r _ => ⟨rfl, rfl, Multiset.filter_le _ _⟩)

/-- The buckets of a partition whose deletes all have a range: no check fires and nothing changes for any file. -/
lemma optimizePartition_sameMeaning {partition : List LayerWithExtraInfo} (hne : NoEquality partition)
    (h : ∀ del ∈ deletesOf partition, WellBounded del) :
    ∃ buckets, optimizePartition partition = .ok buckets ∧ SameMeaning partition buckets := by
  obtain ⟨bounds, hb, hfits⟩ := fits_of_findBucketLowerBounds h
  have hlt : ∀ op ∈ opsOf partition, bucketOf bounds op < bounds.length := fun op hop => hfits.bucketOf_lt hop
  have hbuild := fun i => layersReach_foldl_appendOp (opsAt bounds (opsOf partition) i)
  refine ⟨(List.range bounds.length).map (bucketAt bounds (opsOf partition)), ?_, ?_, ?_, ?_, ?_, ?_⟩
  · rw [optimizePartition, hb, ok_bind, redistributeDataIntoBuckets_ok hfits, foldl_appendToBucket_eq]
  · rw [List.map_map, ← opData_opsOf, ← sum_buckets opData_append hlt]
    exact congrArg List.sum (List.map_congr_left (fun i _ => dataOf_bucketAt _ i))
  · rw [List.map_map, ← opDeletes_opsOf, ← sum_buckets opDeletes_append hlt]
    exact congrArg List.sum (List.map_congr_left (fun i _ => (hbuild i).2.2))
  · intro bucket hbucket
    obtain ⟨i, -, rfl⟩ := List.mem_map.mp hbucket
    exact (hbuild i).1
  · rw [sum_layersReach_bucketAt hne hlt, Multiset.rel_map_right]
    refine Multiset.rel_refl_of_refl_on (fun r hr => ⟨rfl, rfl, Multiset.filter_le _ _, fun del hdel => ?_⟩)
    rw [← opReach_opsOf hne] at hr
    exact restrictToBucket_count hfits hr hdel
  · intro i j bucket bucket' hij hi hj d hd d' hd' del hdel hc
    have hat : ∀ {k : Nat} {bk : List LayerWithExtraInfo},
        ((List.range bounds.length).map (bucketAt bounds (opsOf partition)))[k]? = some bk →
        bk = bucketAt bounds (opsOf partition) k := by
      intro k bk hk
      obtain ⟨hlen, rfl⟩ := List.getElem?_eq_some_iff.mp hk
      simp
    have hin := mem_opsOf_inr.mpr hdel
    have h1 := hfits.bucket_of_covers hin hc.1
    have h2 := hfits.bucket_of_covers hin hc.2
    rw [hat hi] at hd
    rw [hat hj] at hd'
    rw [bucketOf_of_mem_bucketAt hd] at h1
    rw [bucketOf_of_mem_bucketAt hd'] at h2
    exact hij (h1.symm.trans h2)

lemma canOptimizePartition_iff {partition : List LayerWithExtraInfo} :
    canOptimizePartition partition = true ↔ deletesOf partition ≠ [] ∧
      (∀ del ∈ deletesOf partition, del.minMaxReferencedPath.isSome) ∧ NoEquality partition := by
  have h1 : partition.any (fun layer => !layer.positionalDeleteEntries.isEmpty) = true ↔
      deletesOf partition ≠ [] := by
    simp [deletesOf, List.flatMap_eq_nil_iff]
  have h2 : (!partition.any (fun layer => layer.positionalDeleteEntries.any (fun entry =>
      entry.minMaxReferencedPath.isNone))) = true ↔
      ∀ del ∈ deletesOf partition, del.minMaxReferencedPath.isSome = true := by
    simp only [deletesOf, Bool.not_eq_true', List.any_eq_false, List.any_eq_true, List.mem_flatMap, not_exists, not_and,
      forall_exists_index, and_imp, Option.isNone_iff_eq_none, Option.isSome_iff_ne_none]
    exact ⟨fun h del l hl hd => h l hl del hd, fun h l hl del hd => h del l hl hd⟩
  have h3 : (!partition.any (fun layer => !layer.equalityDeleteEntries.isEmpty)) = true ↔ NoEquality partition := by
    simp [NoEquality]
  rw [canOptimizePartition, Bool.and_eq_true, Bool.and_eq_true, h1, h2, h3, and_assoc]

/-- `Optimize` works on one partition at a time. -/
lemma optimize_ok_iff {partitions : List (List LayerWithExtraInfo)} {result : List (List LayerWithExtraInfo)} :
    optimize partitions = .ok result ↔ ∃ pieces, result = pieces.flatten ∧
      List.Forall₂ (fun partition piece =>
        (if canOptimizePartition partition then optimizePartition partition else .ok [partition]) = .ok piece)
        partitions pieces := by
  induction partitions generalizing result with
  | nil =>
    constructor
    · intro h
      cases h
      exact ⟨[], rfl, .nil⟩
    · rintro ⟨pieces, rfl, hp⟩
      cases hp
      rfl
  | cons partition partitions ih =>
    constructor
    · intro h
      obtain ⟨piece, hpiece, h⟩ := bind_ok h
      obtain ⟨rest, hrest, h⟩ := bind_ok h
      cases h
      obtain ⟨pieces, rfl, hp⟩ := ih.mp hrest
      exact ⟨piece :: pieces, rfl, .cons hpiece hp⟩
    · rintro ⟨pieces, rfl, hp⟩
      cases hp with
      | cons hpiece hp =>
        simp only [optimize]
        rw [hpiece, ok_bind, ih.mpr ⟨_, rfl, hp⟩]
        rfl

/-- The positional delete optimizer preserves meaning. Partitions it cannot optimize stay as
they are; where every optimized partition has deletes with ranges that are not inverted it
does not fail, and its buckets mean the same as the partition. -/
theorem optimize_preserves_meaning (partitions : List (List LayerWithExtraInfo)) :
    (∀ result, optimize partitions = .ok result → ∃ pieces, result = pieces.flatten ∧
      List.Forall₂ (fun partition piece => canOptimizePartition partition = false → piece = [partition])
        partitions pieces) ∧
    ((∀ partition ∈ partitions, canOptimizePartition partition = true →
        ∀ del ∈ deletesOf partition, WellBounded del) →
      ∃ pieces, optimize partitions = .ok pieces.flatten ∧
        List.Forall₂ (fun partition piece =>
          if canOptimizePartition partition then SameMeaning partition piece else piece = [partition])
          partitions pieces) := by
  constructor
  · intro result h
    obtain ⟨pieces, rfl, hp⟩ := optimize_ok_iff.mp h
    refine ⟨pieces, rfl, hp.imp (fun partition piece hpiece hcan => ?_)⟩
    rw [hcan] at hpiece
    exact (Except.ok.inj hpiece).symm
  · intro hbounded
    have hpieces : ∃ pieces, List.Forall₂ (fun partition piece =>
        (if canOptimizePartition partition then optimizePartition partition else .ok [partition]) = .ok piece ∧
        if canOptimizePartition partition then SameMeaning partition piece else piece = [partition])
        partitions pieces := by
      induction partitions with
      | nil => exact ⟨[], .nil⟩
      | cons partition partitions ih =>
        obtain ⟨pieces, hp⟩ := ih (fun p hm => hbounded p (List.mem_cons_of_mem _ hm))
        cases hcan : canOptimizePartition partition with
        | true =>
          obtain ⟨piece, hpiece, hmean⟩ := optimizePartition_sameMeaning (canOptimizePartition_iff.mp hcan).2.2
            (hbounded partition List.mem_cons_self hcan)
          exact ⟨piece :: pieces, .cons (by simp [hcan, hpiece, hmean]) hp⟩
        | false => exact ⟨[partition] :: pieces, .cons (by simp [hcan]) hp⟩
    obtain ⟨pieces, hp⟩ := hpieces
    exact ⟨pieces, optimize_ok_iff.mpr ⟨pieces, rfl, hp.imp (fun _ _ h => h.1)⟩, hp.imp (fun _ _ h => h.2)⟩

end IcebergCxx.Proofs

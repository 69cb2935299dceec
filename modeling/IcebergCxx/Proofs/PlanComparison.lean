import IcebergCxx.Proofs.Representation

/-!
# The comparison of plans against their equivalence

Two plans are equivalent when they read the same bytes of the same files under the same deletes. The
comparison decides this on clean plans: no delete is needed from the data file's own layer, a file
of one entry has its segments united, and the entries of a file agree on its deletion vector.
-/

namespace IcebergCxx.Proofs

open Lib

/-! ### Equivalent plans -/

/-- A delete of the file's partition in a layer not before the file's. -/
def Applies {α : Type} (entries : Layer → List α) (plan : ScanMetadata) (path : Bytes) (d : α) : Prop :=
  ∃ partition ∈ plan.partitions, ∃ (i k : Nat) (layer layer' : Layer), i ≤ k ∧ partition[i]? = some layer ∧
    partition[k]? = some layer' ∧ HasFile layer path ∧ d ∈ entries layer'

/-- The bytes of a file that the plan reads. -/
def fileCover (plan : ScanMetadata) (path : Bytes) : Set Int := {x | ∃ entry ∈ fileEntries plan path, x ∈ cover entry.parts}

/-- The deletion vectors of a file. -/
def fileVectors (plan : ScanMetadata) (path : Bytes) : Set (Option DeletionVectorInfo) :=
  {dv | ∃ entry ∈ fileEntries plan path, entry.dv = dv}

structure Equivalent (a b : ScanMetadata) : Prop where
  schema : a.schema = b.schema
  files : ∀ path, fileEntries a path = [] ↔ fileEntries b path = []
  covers : ∀ path, fileCover a path = fileCover b path
  vectors : ∀ path, fileVectors a path = fileVectors b path
  positional : ∀ path d, Applies Layer.positionalDeleteEntries a path d ↔ Applies Layer.positionalDeleteEntries b path d
  equality : ∀ path d, Applies Layer.equalityDeleteEntries a path d ↔ Applies Layer.equalityDeleteEntries b path d

/-- The plans that are compared: a file is in one layer of one partition, and segments are sorted. -/
structure Planned (plan : ScanMetadata) : Prop where
  oneLayer : ∀ (i j i' j' : Nat) (partition partition' : Partition) (layer layer' : Layer) (path : Bytes),
    plan.partitions[i]? = some partition → partition[j]? = some layer → HasFile layer path →
    plan.partitions[i']? = some partition' → partition'[j']? = some layer' → HasFile layer' path → i = i' ∧ j = j'
  sorted : ∀ entry ∈ plan.dataEntries, entry.parts.Pairwise (fun s t => s.offset ≤ t.offset)
  proper : ∀ entry ∈ plan.dataEntries, Proper entry.parts

/-- The segments of a file with one entry are united. -/
def SinglesUnited (plan : ScanMetadata) : Prop := ∀ path entry, fileEntries plan path = [entry] → Canonical entry.parts

/-- The entries of a file have the same deletion vector. -/
def OneVector (plan : ScanMetadata) : Prop :=
  ∀ entry ∈ plan.dataEntries, ∀ other ∈ plan.dataEntries, entry.path = other.path → entry.dv = other.dv

/-- A delete that applies to a file is in a later layer than the file. -/
def NoOwnLayer {α : Type} (entries : Layer → List α) (plan : ScanMetadata) : Prop :=
  ∀ path d, Applies entries plan path d → Later entries plan path d

structure Clean (plan : ScanMetadata) : Prop where
  positional : NoOwnLayer Layer.positionalDeleteEntries plan
  equality : NoOwnLayer Layer.equalityDeleteEntries plan
  singles : SinglesUnited plan
  vectors : OneVector plan

lemma applies_of_later {α : Type} {entries : Layer → List α} {plan : ScanMetadata} {path : Bytes} {d : α}
    (h : Later entries plan path d) : Applies entries plan path d := by
  obtain ⟨partition, hp, i, k, layer, layer', hik, hi, hk, hfile, hd⟩ := h
  exact ⟨partition, hp, i, k, layer, layer', hik.le, hi, hk, hfile, hd⟩

lemma NoOwnLayer.later_iff {α : Type} {entries : Layer → List α} {plan : ScanMetadata} (h : NoOwnLayer entries plan)
    (path : Bytes) (d : α) : Later entries plan path d ↔ Applies entries plan path d :=
  ⟨applies_of_later, h path d⟩

lemma mem_fileEntries {plan : ScanMetadata} {path : Bytes} {entry : DataEntry} :
    entry ∈ fileEntries plan path ↔ entry ∈ plan.dataEntries ∧ entry.path = path := by
  simp [fileEntries]

/-! ### What the comparison sees -/

lemma makeRepresentation_ok (sort : SegmentSort) (plan : ScanMetadata) :
    ∃ r, makeRepresentation sort plan = .ok r ∧ r.schema = plan.schema ∧
      r.positionalDeletesPerFile = (positionalKind.project (plan.partitions.foldl addPartitionDeletes {})).2 ∧
      r.equalityDeletesPerFile = (equalityKind.project (plan.partitions.foldl addPartitionDeletes {})).2 ∧
      ∀ path, r.dataEntriesPerFile.find? path = unitedEntry sort (fileEntries plan path) := by
  obtain ⟨files, hfiles, hfind⟩ := @foldlM_addDataEntry sort plan.dataEntries ∅ (fun path entry h => by cases h)
  unfold makeRepresentation
  rw [hfiles]
  exact ⟨_, rfl, rfl, rfl, rfl, hfind⟩

lemma deletesPerFile_eq_iff {α : Type} [DecidableEq α] (kind : DeleteKind α) (hinit : (kind.project {}).2 = ∅)
    (a b : ScanMetadata) :
    (kind.project (a.partitions.foldl addPartitionDeletes {})).2 =
        (kind.project (b.partitions.foldl addPartitionDeletes {})).2 ↔
      ∀ path d, Later kind.entries a path d ↔ Later kind.entries b path d := by
  have hempty : NoEmptySet (kind.project {}).2 := by
    rw [hinit]
    intro path h
    cases h
  have hnone : ∀ path d, d ∉ deletesAt (kind.project {}).2 path := by
    intro path d
    rw [hinit]
    simp [deletesAt, OrdMap.find?_empty]
  rw [(noEmptySet_foldl kind hempty).ext (noEmptySet_foldl kind hempty)]
  simp only [mem_deletesAt_foldl, hnone, false_or, Later]

/-- The comparison sees the deletes of later layers and the united entries. -/
lemma areScanMetadataEqual_iff (sort : SegmentSort) (a b : ScanMetadata) :
    areScanMetadataEqual sort a b = .ok true ↔ a.schema = b.schema ∧
      (∀ path d, Later Layer.positionalDeleteEntries a path d ↔ Later Layer.positionalDeleteEntries b path d) ∧
      (∀ path d, Later Layer.equalityDeleteEntries a path d ↔ Later Layer.equalityDeleteEntries b path d) ∧
      ∀ path, unitedEntry sort (fileEntries a path) = unitedEntry sort (fileEntries b path) := by
  obtain ⟨ra, hra, ha1, ha2, ha3, ha4⟩ := makeRepresentation_ok sort a
  obtain ⟨rb, hrb, hb1, hb2, hb3, hb4⟩ := makeRepresentation_ok sort b
  have hequal : areScanMetadataEqual sort a b = .ok (decide (ra = rb)) := by
    unfold areScanMetadataEqual
    rw [hra, hrb]
    rfl
  rw [hequal, Except.ok.injEq, decide_eq_true_eq, ← ha1, ← hb1]
  rw [show (∀ path d, Later Layer.positionalDeleteEntries a path d ↔ Later Layer.positionalDeleteEntries b path d) ↔
    ra.positionalDeletesPerFile = rb.positionalDeletesPerFile by
      rw [ha2, hb2]
      exact (deletesPerFile_eq_iff positionalKind rfl a b).symm]
  rw [show (∀ path d, Later Layer.equalityDeleteEntries a path d ↔ Later Layer.equalityDeleteEntries b path d) ↔
    ra.equalityDeletesPerFile = rb.equalityDeletesPerFile by
      rw [ha3, hb3]
      exact (deletesPerFile_eq_iff equalityKind rfl a b).symm]
  have hfiles : (∀ path, unitedEntry sort (fileEntries a path) = unitedEntry sort (fileEntries b path)) ↔
      ra.dataEntriesPerFile = rb.dataEntriesPerFile := by
    constructor
    · intro h
      apply OrdMap.ext_find
      intro path
      rw [ha4, hb4, h]
    · intro h path
      rw [← ha4, ← hb4, h]
  rw [hfiles]
  cases ra
  cases rb
  simp

/-- The united entry of a file: its path, one of its vectors, and its bytes in canonical form. -/
lemma unitedEntry_spec (sort : SegmentSort) {plan : ScanMetadata} (hproper : ∀ entry ∈ plan.dataEntries, Proper entry.parts)
    {path : Bytes} (hpath : fileEntries plan path ≠ []) :
    ∃ entry, unitedEntry sort (fileEntries plan path) = some entry ∧ entry.path = path ∧
      some entry.dv = (fileEntries plan path).head?.map DataEntry.dv ∧
      cover entry.parts = fileCover plan path ∧
      (SinglesUnited plan → Canonical entry.parts) := by
  have hmem : ∀ entry ∈ fileEntries plan path, entry ∈ plan.dataEntries ∧ entry.path = path :=
    fun entry h => mem_fileEntries.mp h
  have hsingle : SinglesUnited plan → ∀ entry, fileEntries plan path = [entry] → Canonical entry.parts :=
    fun h entry => h path entry
  unfold fileCover
  cases hentries : fileEntries plan path with
  | nil => exact absurd hentries hpath
  | cons entry entries =>
    rw [hentries] at hmem hsingle
    obtain ⟨hentry, hep⟩ := hmem entry List.mem_cons_self
    obtain ⟨h1, h2, h3, h4⟩ := foldl_uniteEntries_spec sort (hproper entry hentry)
      (fun other hother => hproper other (hmem other (List.mem_cons_of_mem _ hother)).1)
    refine ⟨_, rfl, h1.trans hep, congrArg some h2, Set.ext h4, fun hsingles => h3 ?_⟩
    by_cases hnil : entries = []
    · subst hnil
      exact .inr (hsingle hsingles entry rfl)
    · exact .inl hnil

lemma OneVector.fileVectors_eq {plan : ScanMetadata} (h : OneVector plan) {path : Bytes} {dv : Option DeletionVectorInfo}
    (hdv : some dv = (fileEntries plan path).head?.map DataEntry.dv) : fileVectors plan path = {dv} := by
  obtain ⟨first, hfirst, rfl⟩ := Option.map_eq_some_iff.mp hdv.symm
  have hmem := mem_fileEntries.mp (List.mem_of_mem_head? hfirst)
  ext dv
  constructor
  · rintro ⟨entry, hentry, rfl⟩
    have hentry := mem_fileEntries.mp hentry
    exact h entry hentry.1 first hmem.1 (hentry.2.trans hmem.2.symm)
  · rintro rfl
    exact ⟨first, List.mem_of_mem_head? hfirst, rfl⟩

lemma unitedEntry_eq_none {sort : SegmentSort} {entries : List DataEntry} :
    unitedEntry sort entries = none ↔ entries = [] := by
  cases entries <;> simp [unitedEntry]

/-- On clean plans the united entries of a file are the same when its bytes and vectors are. -/
lemma unitedEntry_eq_iff (sort : SegmentSort) {a b : ScanMetadata} (ha : Planned a) (hb : Planned b) (ca : Clean a)
    (cb : Clean b) (path : Bytes) :
    unitedEntry sort (fileEntries a path) = unitedEntry sort (fileEntries b path) ↔
      (fileEntries a path = [] ↔ fileEntries b path = []) ∧ fileCover a path = fileCover b path ∧
        fileVectors a path = fileVectors b path := by
  by_cases hna : fileEntries a path = []
  · by_cases hnb : fileEntries b path = []
    · simp [fileCover, fileVectors, hna, hnb]
    · simp only [hna, hnb, iff_false, not_true_eq_false, false_and]
      intro h
      exact hnb (unitedEntry_eq_none.mp h.symm)
  · by_cases hnb : fileEntries b path = []
    · simp only [hna, hnb, iff_true, false_and, iff_false]
      intro h
      exact hna (unitedEntry_eq_none.mp h)
    · obtain ⟨ea, hea, hpa, hdva, hcova, hcana⟩ := unitedEntry_spec sort ha.proper hna
      obtain ⟨eb, heb, hpb, hdvb, hcovb, hcanb⟩ := unitedEntry_spec sort hb.proper hnb
      rw [hea, heb, Option.some_inj, ca.vectors.fileVectors_eq hdva, cb.vectors.fileVectors_eq hdvb, ← hcova, ← hcovb]
      simp only [hna, hnb, true_and, Set.singleton_eq_singleton_iff]
      constructor
      · rintro rfl
        exact ⟨rfl, rfl⟩
      · rintro ⟨hcover, hdv⟩
        have hparts := (hcana ca.singles).eq_of_cover (hcanb cb.singles) hcover
        cases ea
        cases eb
        simp only at hpa hpb hdv hparts
        simp [hpa, hpb, hdv, hparts]

/-- The comparison decides the equivalence of clean plans. -/
lemma areScanMetadataEqual_of_clean (sort : SegmentSort) {a b : ScanMetadata} (ha : Planned a) (hb : Planned b)
    (ca : Clean a) (cb : Clean b) : areScanMetadataEqual sort a b = .ok true ↔ Equivalent a b := by
  rw [areScanMetadataEqual_iff]
  simp only [ca.positional.later_iff, cb.positional.later_iff, ca.equality.later_iff, cb.equality.later_iff,
    unitedEntry_eq_iff sort ha hb ca cb]
  constructor
  · rintro ⟨hschema, hpos, heq, hfiles⟩
    exact ⟨hschema, fun path => (hfiles path).1, fun path => (hfiles path).2.1, fun path => (hfiles path).2.2, hpos, heq⟩
  · intro h
    exact ⟨h.schema, h.positional, h.equality, fun path => ⟨h.files path, h.covers path, h.vectors path⟩⟩

/-! ### A clean plan for given files -/

section
open Classical

/-- The deletes of one kind in the plan that satisfy a predicate. -/
noncomputable def selectDeletes {α : Type} (entries : Layer → List α) (plan : ScanMetadata) (p : α → Prop) : List α :=
  (plan.partitions.flatten.flatMap entries).filter (fun d => p d)

/-- The data files of the plan. -/
def dataFilesOf (plan : ScanMetadata) : List Bytes := (plan.dataEntries.map DataEntry.path).dedup

/-- A partition for one data file, with its deletes in a layer of their own. -/
def filePartition (entry : DataEntry) (positional : List PositionalDeleteInfo) (equality : List EqualityDeleteInfo) :
    Partition :=
  [{ dataEntries := [entry] }, { positionalDeleteEntries := positional, equalityDeleteEntries := equality }]

/-- A plan with the files of another one, one entry for each of them and a choice of deletes. -/
noncomputable def rebuilt (plan : ScanMetadata) (entry : Bytes → DataEntry) (positional : Bytes → PositionalDeleteInfo → Prop)
    (equality : Bytes → EqualityDeleteInfo → Prop) : ScanMetadata where
  schema := plan.schema
  partitions := (dataFilesOf plan).map (fun path => filePartition (entry path)
    (selectDeletes Layer.positionalDeleteEntries plan (positional path))
    (selectDeletes Layer.equalityDeleteEntries plan (equality path)))

end

lemma mem_dataFilesOf {plan : ScanMetadata} {path : Bytes} : path ∈ dataFilesOf plan ↔ fileEntries plan path ≠ [] := by
  simp [dataFilesOf, fileEntries, List.filter_eq_nil_iff]

lemma hasFile_of_applies {α : Type} {entries : Layer → List α} {plan : ScanMetadata} {path : Bytes} {d : α}
    (h : Applies entries plan path d) : path ∈ dataFilesOf plan ∧ d ∈ plan.partitions.flatten.flatMap entries := by
  obtain ⟨partition, hp, i, k, layer, layer', -, hi, hk, ⟨entry, hentry, rfl⟩, hd⟩ := h
  constructor
  · rw [dataFilesOf, List.mem_dedup]
    apply List.mem_map_of_mem
    exact List.mem_flatMap.mpr ⟨partition, hp, List.mem_flatMap.mpr ⟨layer, List.mem_of_getElem? hi, hentry⟩⟩
  · exact List.mem_flatMap.mpr ⟨layer', List.mem_flatten.mpr ⟨partition, hp, List.mem_of_getElem? hk⟩, hd⟩

section
variable {plan : ScanMetadata} {entry : Bytes → DataEntry} {positional : Bytes → PositionalDeleteInfo → Prop}
  {equality : Bytes → EqualityDeleteInfo → Prop}

lemma rebuilt_dataEntries : (rebuilt plan entry positional equality).dataEntries = (dataFilesOf plan).map entry := by
  simp [ScanMetadata.dataEntries, rebuilt, filePartition, List.flatMap_map, ← List.map_eq_flatMap]

lemma rebuilt_fileEntries (hentry : ∀ path, (entry path).path = path) (path : Bytes) :
    fileEntries (rebuilt plan entry positional equality) path = if path ∈ dataFilesOf plan then [entry path] else [] := by
  have hfilter : (dataFilesOf plan).filter (fun path' => decide (path' = path)) = if path ∈ dataFilesOf plan then [path] else [] := by
    have hnodup : (dataFilesOf plan).Nodup := List.nodup_dedup _
    rw [List.filter_eq, hnodup.count]
    split_ifs <;> rfl
  rw [fileEntries, rebuilt_dataEntries, List.filter_map]
  simp only [Function.comp_def, hentry, hfilter]
  split_ifs <;> rfl

lemma mem_selectDeletes {α : Type} {entries : Layer → List α} {p : α → Prop} {d : α} :
    d ∈ selectDeletes entries plan p ↔ d ∈ plan.partitions.flatten.flatMap entries ∧ p d := by
  simp [selectDeletes]

/-- The layer of deletes of a rebuilt file. -/
noncomputable def deletesLayer (plan : ScanMetadata) (positional : Bytes → PositionalDeleteInfo → Prop)
    (equality : Bytes → EqualityDeleteInfo → Prop) (path : Bytes) : Layer where
  positionalDeleteEntries := selectDeletes Layer.positionalDeleteEntries plan (positional path)
  equalityDeleteEntries := selectDeletes Layer.equalityDeleteEntries plan (equality path)

lemma mem_of_rebuilt_applies {α : Type} {entries : Layer → List α} (hentry : ∀ path, (entry path).path = path)
    (hdata : ∀ e, entries { dataEntries := [e] } = []) {path : Bytes} {d : α}
    (h : Applies entries (rebuilt plan entry positional equality) path d) :
    path ∈ dataFilesOf plan ∧ d ∈ entries (deletesLayer plan positional equality path) := by
  obtain ⟨partition, hp, i, k, layer, layer', -, hi, hk, ⟨e, he, hpath⟩, hd⟩ := h
  obtain ⟨path', hpath', rfl⟩ := List.mem_map.mp hp
  -- the data entry is in the first layer, the delete in the second
  have hlayer : layer = { dataEntries := [entry path'] } := by
    rcases i with - | i | i
    · exact (Option.some_inj.mp hi).symm
    · obtain rfl := Option.some_inj.mp hi
      simp at he
    · simp [filePartition] at hi
  have hlayer' : layer' = deletesLayer plan positional equality path' := by
    rcases k with - | k | k
    · obtain rfl := Option.some_inj.mp hk
      rw [hdata] at hd
      cases hd
    · exact (Option.some_inj.mp hk).symm
    · simp [filePartition] at hk
  subst hlayer hlayer'
  obtain rfl := List.mem_singleton.mp he
  rw [hentry] at hpath
  subst hpath
  exact ⟨hpath', hd⟩

lemma rebuilt_later {α : Type} {entries : Layer → List α} (hentry : ∀ path, (entry path).path = path) {path : Bytes}
    {d : α} (hpath : path ∈ dataFilesOf plan) (hd : d ∈ entries (deletesLayer plan positional equality path)) :
    Later entries (rebuilt plan entry positional equality) path d :=
  ⟨_, List.mem_map_of_mem hpath, 0, 1, _, _, by omega, rfl, rfl, ⟨_, List.mem_singleton_self _, hentry path⟩, hd⟩

lemma rebuilt_later_iff {α : Type} {entries : Layer → List α} (hentry : ∀ path, (entry path).path = path)
    (hdata : ∀ e, entries { dataEntries := [e] } = []) {path : Bytes} {d : α} :
    Later entries (rebuilt plan entry positional equality) path d ↔
      path ∈ dataFilesOf plan ∧ d ∈ entries (deletesLayer plan positional equality path) :=
  ⟨fun h => mem_of_rebuilt_applies hentry hdata (applies_of_later h), fun h => rebuilt_later hentry h.1 h.2⟩

lemma rebuilt_noOwnLayer {α : Type} {entries : Layer → List α} (hentry : ∀ path, (entry path).path = path)
    (hdata : ∀ e, entries { dataEntries := [e] } = []) :
    NoOwnLayer entries (rebuilt plan entry positional equality) := by
  intro path d h
  obtain ⟨h1, h2⟩ := mem_of_rebuilt_applies hentry hdata h
  exact rebuilt_later hentry h1 h2

lemma Canonical.sorted {l : List Segment} (h : Canonical l) : l.Pairwise (fun s t => s.offset ≤ t.offset) := by
  induction l with
  | nil => exact List.Pairwise.nil
  | cons s l ih =>
    refine List.pairwise_cons.mpr ⟨fun t ht => ?_, ih h.tail⟩
    have := h.after t ht
    omega

lemma rebuilt_planned (hentry : ∀ path, (entry path).path = path) (hcan : ∀ path ∈ dataFilesOf plan, Canonical (entry path).parts) :
    Planned (rebuilt plan entry positional equality) where
  oneLayer := by
    intro i j i' j' partition partition' layer layer' path hi hj hfile hi' hj' hfile'
    have hlocate : ∀ (i j : Nat) (partition : Partition) (layer : Layer),
        (rebuilt plan entry positional equality).partitions[i]? = some partition → partition[j]? = some layer →
        HasFile layer path → (dataFilesOf plan)[i]? = some path ∧ j = 0 := by
      intro i j partition layer hi hj hfile
      rw [rebuilt, List.getElem?_map, Option.map_eq_some_iff] at hi
      obtain ⟨path', hpath', rfl⟩ := hi
      obtain ⟨e, he, hpath⟩ := hfile
      rcases j with - | j | j
      · obtain rfl := Option.some_inj.mp hj
        obtain rfl := List.mem_singleton.mp he
        rw [← hpath, hentry]
        exact ⟨hpath', rfl⟩
      · obtain rfl := Option.some_inj.mp hj
        simp at he
      · simp [filePartition] at hj
    obtain ⟨h1, rfl⟩ := hlocate i j partition layer hi hj hfile
    obtain ⟨h2, rfl⟩ := hlocate i' j' partition' layer' hi' hj' hfile'
    obtain ⟨hlt, h1⟩ := List.getElem?_eq_some_iff.mp h1
    obtain ⟨hlt', h2⟩ := List.getElem?_eq_some_iff.mp h2
    refine ⟨?_, rfl⟩
    exact (List.Nodup.getElem_inj_iff (List.nodup_dedup _)).mp (h1.trans h2.symm)
  sorted := by
    intro e he
    rw [rebuilt_dataEntries] at he
    obtain ⟨path, hpath, rfl⟩ := List.mem_map.mp he
    exact (hcan path hpath).sorted
  proper := by
    intro e he
    rw [rebuilt_dataEntries] at he
    obtain ⟨path, hpath, rfl⟩ := List.mem_map.mp he
    exact (hcan path hpath).proper

lemma rebuilt_clean (hentry : ∀ path, (entry path).path = path) (hcan : ∀ path ∈ dataFilesOf plan, Canonical (entry path).parts) :
    Clean (rebuilt plan entry positional equality) where
  positional := rebuilt_noOwnLayer hentry (fun _ => rfl)
  equality := rebuilt_noOwnLayer hentry (fun _ => rfl)
  singles := by
    intro path e he
    rw [rebuilt_fileEntries hentry] at he
    split_ifs at he with hpath
    obtain rfl := List.singleton_inj.mp he
    exact hcan path hpath
  vectors := by
    intro e he other hother hpath
    rw [rebuilt_dataEntries] at he hother
    obtain ⟨path, -, rfl⟩ := List.mem_map.mp he
    obtain ⟨path', -, rfl⟩ := List.mem_map.mp hother
    rw [hentry, hentry] at hpath
    rw [hpath]

end

/-! ### Plans that are compared right with every clean plan -/

/-- One entry for all the bytes of a file. -/
def fileEntry (sort : SegmentSort) (plan : ScanMetadata) (path : Bytes) : DataEntry where
  path := path
  parts := united (sort.sort ((fileEntries plan path).flatMap DataEntry.parts))
  dv := (fileEntries plan path).head?.bind DataEntry.dv

lemma fileEntry_spec (sort : SegmentSort) {plan : ScanMetadata} (h : Planned plan) (path : Bytes) :
    Canonical (fileEntry sort plan path).parts ∧ cover (fileEntry sort plan path).parts = fileCover plan path := by
  have hproper : Proper ((fileEntries plan path).flatMap DataEntry.parts) := by
    intro s hs
    obtain ⟨entry, hentry, hs⟩ := List.mem_flatMap.mp hs
    exact h.proper entry (mem_fileEntries.mp hentry).1 s hs
  obtain ⟨h1, h2⟩ := united_sort_spec sort hproper
  refine ⟨h1, h2.trans ?_⟩
  ext x
  constructor
  · rintro ⟨s, hs, hx⟩
    obtain ⟨entry, hentry, hs⟩ := List.mem_flatMap.mp hs
    exact ⟨entry, hentry, s, hs, hx⟩
  · rintro ⟨entry, hentry, s, hs, hx⟩
    exact ⟨s, List.mem_flatMap.mpr ⟨entry, hentry, hs⟩, hx⟩

lemma fileEntry_dv {sort : SegmentSort} {plan : ScanMetadata} {path : Bytes} (h : path ∈ dataFilesOf plan) :
    some (fileEntry sort plan path).dv = (fileEntries plan path).head?.map DataEntry.dv := by
  have hne := mem_dataFilesOf.mp h
  unfold fileEntry
  cases hentries : fileEntries plan path with
  | nil => exact absurd hentries hne
  | cons entry entries => rfl

/-- The plan with one entry for each file and the given deletes. -/
noncomputable def normalized (sort : SegmentSort) (plan : ScanMetadata) (positional : Bytes → PositionalDeleteInfo → Prop)
    (equality : Bytes → EqualityDeleteInfo → Prop) : ScanMetadata :=
  rebuilt plan (fileEntry sort plan) positional equality

section
variable {sort : SegmentSort} {plan : ScanMetadata} {positional : Bytes → PositionalDeleteInfo → Prop}
  {equality : Bytes → EqualityDeleteInfo → Prop}

lemma normalized_planned (h : Planned plan) : Planned (normalized sort plan positional equality) :=
  rebuilt_planned (fun _ => rfl) (fun path _ => (fileEntry_spec sort h path).1)

lemma normalized_clean (h : Planned plan) : Clean (normalized sort plan positional equality) :=
  rebuilt_clean (fun _ => rfl) (fun path _ => (fileEntry_spec sort h path).1)

lemma normalized_fileEntries (path : Bytes) :
    fileEntries (normalized sort plan positional equality) path =
      if path ∈ dataFilesOf plan then [fileEntry sort plan path] else [] :=
  rebuilt_fileEntries (fun _ => rfl) path

lemma normalized_later_positional (h : ∀ path d, positional path d → Applies Layer.positionalDeleteEntries plan path d)
    (path : Bytes) (d : PositionalDeleteInfo) :
    Later Layer.positionalDeleteEntries (normalized sort plan positional equality) path d ↔ positional path d := by
  rw [normalized, rebuilt_later_iff (fun _ => rfl) (fun _ => rfl)]
  change _ ∧ d ∈ selectDeletes _ _ _ ↔ _
  rw [mem_selectDeletes, ← and_assoc]
  exact and_iff_right_of_imp (fun hd => hasFile_of_applies (h path d hd))

lemma normalized_later_equality (h : ∀ path d, equality path d → Applies Layer.equalityDeleteEntries plan path d)
    (path : Bytes) (d : EqualityDeleteInfo) :
    Later Layer.equalityDeleteEntries (normalized sort plan positional equality) path d ↔ equality path d := by
  rw [normalized, rebuilt_later_iff (fun _ => rfl) (fun _ => rfl)]
  change _ ∧ d ∈ selectDeletes _ _ _ ↔ _
  rw [mem_selectDeletes, ← and_assoc]
  exact and_iff_right_of_imp (fun hd => hasFile_of_applies (h path d hd))

lemma normalized_fileCover (h : Planned plan) (path : Bytes) :
    fileCover (normalized sort plan positional equality) path = fileCover plan path := by
  by_cases hpath : path ∈ dataFilesOf plan
  · rw [← (fileEntry_spec sort h path).2, fileCover, normalized_fileEntries, if_pos hpath]
    simp
  · have hnil : fileEntries plan path = [] := not_not.mp ((not_congr mem_dataFilesOf).mp hpath)
    rw [fileCover, fileCover, normalized_fileEntries, if_neg hpath, hnil]

lemma normalized_fileVectors {path : Bytes} (hpath : path ∈ dataFilesOf plan) :
    fileVectors (normalized sort plan positional equality) path = {(fileEntry sort plan path).dv} := by
  rw [fileVectors, normalized_fileEntries, if_pos hpath]
  ext dv
  simp [eq_comm]

lemma normalized_fileVectors_of_notMem {path : Bytes} (hpath : path ∉ dataFilesOf plan) :
    fileVectors (normalized sort plan positional equality) path = fileVectors plan path := by
  have hnil : fileEntries plan path = [] := not_not.mp ((not_congr mem_dataFilesOf).mp hpath)
  rw [fileVectors, fileVectors, normalized_fileEntries, if_neg hpath, hnil]

/-- With the deletes that apply, a plan of one vector for each file is equivalent to its normal form. -/
lemma equivalent_normalized (sort : SegmentSort) (h : Planned plan) (hv : OneVector plan) :
    Equivalent plan (normalized sort plan (Applies Layer.positionalDeleteEntries plan)
      (Applies Layer.equalityDeleteEntries plan)) where
  schema := rfl
  files path := by
    rw [normalized_fileEntries]
    split_ifs with hpath
    · simpa using mem_dataFilesOf.mp hpath
    · simpa using (not_congr mem_dataFilesOf).mp hpath
  covers path := (normalized_fileCover h path).symm
  vectors path := by
    by_cases hpath : path ∈ dataFilesOf plan
    · rw [normalized_fileVectors hpath, hv.fileVectors_eq (fileEntry_dv hpath)]
    · rw [normalized_fileVectors_of_notMem hpath]
  positional path d := by
    rw [← (normalized_clean h).positional.later_iff, normalized_later_positional (fun _ _ h => h)]
  equality path d := by
    rw [← (normalized_clean h).equality.later_iff, normalized_later_equality (fun _ _ h => h)]

/-- With the deletes of later layers, the comparison takes a plan for its normal form. -/
lemma equal_normalized (h : Planned plan) (hs : SinglesUnited plan) :
    areScanMetadataEqual sort plan (normalized sort plan (Later Layer.positionalDeleteEntries plan)
      (Later Layer.equalityDeleteEntries plan)) = .ok true := by
  rw [areScanMetadataEqual_iff]
  refine ⟨rfl, fun path d => ?_, fun path d => ?_, fun path => ?_⟩
  · rw [normalized_later_positional (fun _ _ h => applies_of_later h)]
  · rw [normalized_later_equality (fun _ _ h => applies_of_later h)]
  · rw [normalized_fileEntries]
    split_ifs with hpath
    · obtain ⟨e, he, hpe, hdv, hcover, hcan⟩ := unitedEntry_spec sort h.proper (mem_dataFilesOf.mp hpath)
      have hparts : e.parts = (fileEntry sort plan path).parts := by
        apply (hcan hs).eq_of_cover (fileEntry_spec sort h path).1
        rw [hcover, (fileEntry_spec sort h path).2]
      have hvector : e.dv = (fileEntry sort plan path).dv := by
        rw [← Option.some_inj, hdv, fileEntry_dv hpath]
      rw [he]
      change some e = some (fileEntry sort plan path)
      rw [Option.some_inj]
      cases e
      simp only at hpe hparts hvector
      rw [hpe, hparts, hvector]
      rfl
    · rw [not_not.mp ((not_congr mem_dataFilesOf).mp hpath)]

end

lemma OneVector.of_equivalent {a b : ScanMetadata} (h : Equivalent a b) (hb : OneVector b) : OneVector a := by
  intro entry hentry other hother hpath
  have h1 : entry.dv ∈ fileVectors b entry.path := by
    rw [← h.vectors]
    exact ⟨entry, mem_fileEntries.mpr ⟨hentry, rfl⟩, rfl⟩
  have h2 : other.dv ∈ fileVectors b entry.path := by
    rw [← h.vectors]
    exact ⟨other, mem_fileEntries.mpr ⟨hother, hpath.symm⟩, rfl⟩
  obtain ⟨e, he, he'⟩ := h1
  obtain ⟨o, ho, ho'⟩ := h2
  have he := mem_fileEntries.mp he
  have ho := mem_fileEntries.mp ho
  rw [← he', ← ho']
  exact hb e he.1 o ho.1 (he.2.trans ho.2.symm)

lemma SinglesUnited.of_equal {sort : SegmentSort} {a b : ScanMetadata} (hb : Planned b) (hs : SinglesUnited b)
    (h : areScanMetadataEqual sort a b = .ok true) : SinglesUnited a := by
  intro path entry hentry
  have hfile := ((areScanMetadataEqual_iff sort a b).mp h).2.2.2 path
  rw [hentry] at hfile
  have hne : fileEntries b path ≠ [] := by
    intro hnil
    rw [hnil] at hfile
    cases hfile
  obtain ⟨e, he, -, -, -, hcan⟩ := unitedEntry_spec sort hb.proper hne
  obtain rfl : entry = e := Option.some_inj.mp (hfile.trans he)
  exact hcan hs

/-- A stable sort by offset. -/
def offsetSort : SegmentSort where
  sort l := l.insertionSort (fun a b => a.offset ≤ b.offset)
  perm l := List.perm_insertionSort _ l
  sorted l := by
    have : Std.Total (fun a b : Segment => a.offset ≤ b.offset) := ⟨fun a b => le_total a.offset b.offset⟩
    have : IsTrans Segment (fun a b => a.offset ≤ b.offset) := ⟨fun a b c => le_trans⟩
    exact List.pairwise_insertionSort _ l

/-- One data file in one layer, with the given positional deletes in the same layer. -/
def ownLayerPlan (deletes : List PositionalDeleteInfo) : ScanMetadata where
  schema := ⟨0, []⟩
  partitions := [[{ dataEntries := [⟨bytes "data.parquet", [⟨4, 0⟩], none⟩], positionalDeleteEntries := deletes }]]

lemma ownLayerPlan_planned (deletes : List PositionalDeleteInfo) : Planned (ownLayerPlan deletes) where
  oneLayer := by
    intro i j i' j' partition partition' layer layer' path hi hj _ hi' hj' _
    rcases i with - | i <;> rcases i' with - | i' <;> simp [ownLayerPlan] at hi hi'
    subst hi hi'
    rcases j with - | j <;> rcases j' with - | j' <;> simp at hj hj'
    simp
  sorted := by simp [ownLayerPlan, ScanMetadata.dataEntries]
  proper := by simp [ownLayerPlan, ScanMetadata.dataEntries, Proper]

lemma ownLayerPlan_not_later {α : Type} {entries : Layer → List α} {deletes : List PositionalDeleteInfo} {path : Bytes}
    {d : α} : ¬Later entries (ownLayerPlan deletes) path d := by
  rintro ⟨partition, hp, i, k, layer, layer', hik, -, hk, -⟩
  obtain rfl := List.mem_singleton.mp hp
  obtain ⟨k, rfl⟩ : ∃ k', k = k' + 1 := ⟨k - 1, by omega⟩
  simp at hk

lemma noDeletes_clean : Clean (ownLayerPlan []) where
  positional := by
    rintro path d ⟨partition, hp, i, k, layer, layer', -, -, hk, -, hd⟩
    obtain rfl := List.mem_singleton.mp hp
    obtain rfl := List.mem_singleton.mp (List.mem_of_getElem? hk)
    cases hd
  equality := by
    rintro path d ⟨partition, hp, i, k, layer, layer', -, -, hk, -, hd⟩
    obtain rfl := List.mem_singleton.mp hp
    obtain rfl := List.mem_singleton.mp (List.mem_of_getElem? hk)
    cases hd
  singles := by
    intro path entry h
    have hmem : entry ∈ (ownLayerPlan []).dataEntries := (mem_fileEntries.mp (h ▸ List.mem_singleton_self entry)).1
    obtain rfl := List.mem_singleton.mp hmem
    exact le_rfl
  vectors := by
    intro entry hentry other hother _
    obtain rfl := List.mem_singleton.mp hentry
    obtain rfl := List.mem_singleton.mp hother
    rfl

end IcebergCxx.Proofs

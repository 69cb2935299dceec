import IcebergCxx.Lib.Rearrange
import IcebergCxx.Proofs.RowGroups

/-!
# The split offsets of a written file

A writer puts the file offsets of the row groups into the manifest entry, planning cuts the file at them, and a reader
takes the row groups that start in its segments. One reader of all segments takes every row group. Several readers take
each row group once exactly when no two row groups have the same file offset, as they have when it is not set.
-/

namespace IcebergCxx.Proofs

open Lib

/-! ### Segments between offsets that may be equal -/

lemma wrapInt64_sub {a b : Int} (ha : 0 ≤ a) (hab : a ≤ b) (hb : b ≤ int64Max) : wrapInt64 (b - a) = b - a := by
  apply wrapInt64_of_inInt64
  constructor
  · simp only [int64Min]
    omega
  · omega

section
variable {first : Int} {offsets : List Int}

/-- Offsets in a file, in order. -/
structure SortedOffsets (offsets : List Int) : Prop where
  sorted : offsets.Pairwise (· ≤ ·)
  inFile : ∀ offset ∈ offsets, 0 ≤ offset ∧ offset ≤ int64Max

lemma SortedOffsets.tail (h : SortedOffsets (first :: offsets)) : SortedOffsets offsets where
  sorted := (List.pairwise_cons.mp h.sorted).2
  inFile := fun offset hoffset => h.inFile offset (List.mem_cons_of_mem _ hoffset)

/-- The first segment ends at the next offset, or has no end when the next offset is the same. -/
lemma SortedOffsets.segments {next : Int} (h : SortedOffsets (first :: next :: offsets)) :
    first ≤ next ∧ segmentsOfOffsets (first :: next :: offsets) =
      ⟨first, next - first⟩ :: segmentsOfOffsets (next :: offsets) := by
  have hle : first ≤ next := (List.pairwise_cons.mp h.sorted).1 next List.mem_cons_self
  have hfirst := (h.inFile first List.mem_cons_self).1
  have hnext := (h.inFile next (List.mem_cons_of_mem _ List.mem_cons_self)).2
  exact ⟨hle, by rw [segmentsOfOffsets, wrapInt64_sub hfirst hle hnext]⟩

/-- The segments cover everything from the first offset on, in order of the offsets. -/
lemma SortedOffsets.cover_iff (h : SortedOffsets (first :: offsets)) :
    (∀ x, x ∈ cover (segmentsOfOffsets (first :: offsets)) ↔ first ≤ x) ∧
      Proper (segmentsOfOffsets (first :: offsets)) ∧ SortedByOffset (segmentsOfOffsets (first :: offsets)) := by
  induction offsets generalizing first with
  | nil =>
    exact ⟨by simp [cover, Covers, segmentsOfOffsets], by simp [Proper, segmentsOfOffsets],
      by simp [SortedByOffset, segmentsOfOffsets]⟩
  | cons next offsets ih =>
    obtain ⟨hcover, hproper, hsorted⟩ := ih h.tail
    obtain ⟨hle, hsegments⟩ := h.segments
    rw [hsegments]
    refine ⟨fun x => ?_, fun s hs => ?_, .cons (fun s hs => ?_) hsorted⟩
    · rw [mem_cover_cons, hcover]
      unfold Covers
      dsimp only
      omega
    · rcases List.mem_cons.mp hs with rfl | hs
      · dsimp only
        omega
      · exact hproper s hs
    · have hfrom := (hcover s.offset).mp ⟨s, hs, covers_offset (hproper s hs)⟩
      dsimp only
      omega

/-- With an offset that is there twice, everything from it on is in two segments. -/
lemma SortedOffsets.cover_twice (h : SortedOffsets (first :: offsets)) (hdup : ¬(first :: offsets).Nodup) :
    ∃ d ∈ first :: offsets, ∀ x, d ≤ x → ∃ (j k : Nat) (s t : Segment), j ≠ k ∧
      (segmentsOfOffsets (first :: offsets))[j]? = some s ∧ (segmentsOfOffsets (first :: offsets))[k]? = some t ∧
      Covers s x ∧ Covers t x := by
  induction offsets generalizing first with
  | nil => exact absurd (List.nodup_singleton first) hdup
  | cons next offsets ih =>
    obtain ⟨hle, hsegments⟩ := h.segments
    rw [hsegments]
    by_cases hnext : first = next
    · -- the first segment has no end, and the others start where it does
      subst hnext
      refine ⟨first, List.mem_cons_self, fun x hx => ?_⟩
      obtain ⟨t, ht, hcovers⟩ := (h.tail.cover_iff.1 x).mpr hx
      obtain ⟨k, hk⟩ := List.mem_iff_getElem?.mp ht
      exact ⟨0, k + 1, _, t, by omega, rfl, hk, ⟨hx, .inl (sub_self first)⟩, hcovers⟩
    · have hfresh : first ∉ next :: offsets := by
        intro hmem
        rcases List.mem_cons.mp hmem with hmem | hmem
        · exact hnext hmem
        · have hlater := (List.pairwise_cons.mp h.tail.sorted).1 first hmem
          omega
      have hrest : ¬(next :: offsets).Nodup := fun hnodup => hdup (List.nodup_cons.mpr ⟨hfresh, hnodup⟩)
      obtain ⟨d, hd, htwice⟩ := ih h.tail hrest
      refine ⟨d, List.mem_cons_of_mem _ hd, fun x hx => ?_⟩
      obtain ⟨j, k, s, t, hne, hj, hk, hs, ht⟩ := htwice x hx
      exact ⟨j + 1, k + 1, s, t, by omega, hj, hk, hs, ht⟩

end

/-! ### One reader -/

/-- Where the segments cover everything from a row group on, it is taken, and they do so behind it. -/
lemma mapRowGroup_of_cover {l : List Segment} {x : Int} (hsorted : SortedByOffset l)
    (hcover : ∀ y, x ≤ y → y ∈ cover l) : (mapRowGroup x l).1 = true ∧ SortedByOffset (mapRowGroup x l).2 ∧
      ∀ y, x ≤ y → y ∈ cover (mapRowGroup x l).2 := by
  induction l with
  | nil =>
    obtain ⟨s, hs, -⟩ := hcover x le_rfl
    cases hs
  | cons s l ih =>
    obtain ⟨hfirst, hrest⟩ := List.pairwise_cons.mp hsorted
    rw [mapRowGroup]
    split_ifs with hin hend
    · exact ⟨rfl, hsorted, hcover⟩
    · apply ih hrest
      intro y hy
      refine (mem_cover_cons.mp (hcover y hy)).resolve_left ?_
      unfold Covers
      omega
    · exfalso
      rcases mem_cover_cons.mp (hcover x le_rfl) with hcov | ⟨t, ht, hcov⟩
      · unfold Covers at hcov
        omega
      · have hle := hfirst t ht
        have hfrom := hcov.1
        omega

lemma rowGroupsFrom_all {metadata : List RowGroupMetaData} {offsets : List Int}
    (hoffsets : List.Forall₂ (fun rgMeta offset => rowGroupMetaToFileOffset rgMeta = .ok offset) metadata offsets)
    (hsorted : offsets.Pairwise (· ≤ ·)) {l : List Segment} (hl : SortedByOffset l)
    (hcover : ∀ offset ∈ offsets, ∀ y, offset ≤ y → y ∈ cover l) (i : Nat) :
    rowGroupsFrom i l metadata = .ok (List.range' i metadata.length) := by
  induction hoffsets generalizing l i with
  | nil => rfl
  | @cons rgMeta offset metadata offsets hoffset _ ih =>
    obtain ⟨hfirst, hsorted⟩ := List.pairwise_cons.mp hsorted
    obtain ⟨htaken, hl', hcover'⟩ := mapRowGroup_of_cover hl (hcover offset List.mem_cons_self)
    have hrest := ih hsorted hl' (fun later hlater y hy => hcover' y ((hfirst later hlater).trans hy)) (i + 1)
    rw [rowGroupsFrom, hoffset, ok_bind]
    dsimp only
    rw [hrest, ok_bind, if_pos htaken, List.length_cons, List.range'_succ]
    rfl

/-! ### The offsets in a footer -/

/-- The offsets of the row groups that a Parquet file has in its footer: those a reader goes by are sorted. -/
structure FooterOffsets (metadata : List RowGroupMetaData) (offsets : List Int) : Prop where
  read : metadata.mapM rowGroupMetaToFileOffset = .ok offsets
  sorted : offsets.Pairwise (· ≤ ·)
  inFile : ∀ rgMeta ∈ metadata, 0 ≤ rgMeta.fileOffset ∧ rgMeta.fileOffset ≤ int64Max ∧ 0 ≤ rgMeta.dataPageOffset

lemma rowGroupMetaToFileOffset_set {rgMeta : RowGroupMetaData} (h : rgMeta.fileOffset ≠ 0) :
    rowGroupMetaToFileOffset rgMeta = .ok rgMeta.fileOffset := by
  rw [rowGroupMetaToFileOffset, if_neg h]

/-- A reader goes by an offset that is not before the file offset. -/
lemma le_rowGroupMetaToFileOffset {rgMeta : RowGroupMetaData} {offset : Int} (hpage : 0 ≤ rgMeta.dataPageOffset)
    (h : rowGroupMetaToFileOffset rgMeta = .ok offset) : rgMeta.fileOffset ≤ offset := by
  by_cases hset : rgMeta.fileOffset = 0
  · by_cases hpages : rgMeta.dataPageOffset = 0
    · simp [rowGroupMetaToFileOffset, hset, hpages, ensure] at h
    · have hoffset : rgMeta.dataPageOffset = offset := by simpa [rowGroupMetaToFileOffset, hset, hpages, ensure] using h
      omega
  · have hoffset := Except.ok.inj ((rowGroupMetaToFileOffset_set hset).symm.trans h)
    omega

section
variable {metadata : List RowGroupMetaData} {offsets : List Int}

lemma mem_splitOffsets {offset : Int} :
    offset ∈ splitOffsets metadata ↔ ∃ rgMeta ∈ metadata, rgMeta.fileOffset = offset := by
  rw [splitOffsets, List.mem_insertionSort, List.mem_map]

lemma splitOffsets_nodup : (splitOffsets metadata).Nodup ↔ (metadata.map RowGroupMetaData.fileOffset).Nodup :=
  (List.perm_insertionSort (· ≤ ·) _).nodup_iff

lemma FooterOffsets.splitOffsets_sorted (h : FooterOffsets metadata offsets) :
    SortedOffsets (splitOffsets metadata) where
  sorted := List.pairwise_insertionSort (· ≤ ·) _
  inFile := by
    intro offset hoffset
    obtain ⟨rgMeta, hrgMeta, rfl⟩ := mem_splitOffsets.mp hoffset
    exact ⟨(h.inFile rgMeta hrgMeta).1, (h.inFile rgMeta hrgMeta).2.1⟩

/-- Different file offsets are strictly increasing when they are sorted. -/
lemma FooterOffsets.splitOffsets_increasing (h : FooterOffsets metadata offsets)
    (hnodup : (metadata.map RowGroupMetaData.fileOffset).Nodup) : SplitOffsets (splitOffsets metadata) where
  increasing := by
    have hdistinct : (splitOffsets metadata).Pairwise (· ≠ ·) := splitOffsets_nodup.mpr hnodup
    exact (h.splitOffsets_sorted.sorted.and hdistinct).imp fun hab => lt_of_le_of_ne hab.1 hab.2
  inFile := h.splitOffsets_sorted.inFile

lemma FooterOffsets.forall₂ (h : FooterOffsets metadata offsets) :
    List.Forall₂ (fun rgMeta offset => rowGroupMetaToFileOffset rgMeta = .ok offset) metadata offsets :=
  mapM_ok_iff.mp h.read

/-- The split offsets start before every row group. -/
lemma FooterOffsets.first_le (h : FooterOffsets metadata offsets) {first : Int} {rest : List Int}
    (hsplit : splitOffsets metadata = first :: rest) {offset : Int} (hoffset : offset ∈ offsets) : first ≤ offset := by
  obtain ⟨i, hi⟩ := List.mem_iff_getElem?.mp hoffset
  obtain ⟨rgMeta, hrgMeta, hread⟩ := forall₂_getElem? h.forall₂.flip hi
  have hmem := List.mem_of_getElem? hrgMeta
  have hle := le_rowGroupMetaToFileOffset (h.inFile rgMeta hmem).2.2 hread
  have hin : rgMeta.fileOffset ∈ first :: rest := hsplit ▸ mem_splitOffsets.mpr ⟨rgMeta, hmem, rfl⟩
  have hsorted := hsplit ▸ h.splitOffsets_sorted.sorted
  rcases List.mem_cons.mp hin with heq | hlater
  · omega
  · exact ((List.pairwise_cons.mp hsorted).1 _ hlater).trans hle

/-- A file offset that is in the split offsets is not behind the last row group. -/
lemma FooterOffsets.le_last (h : FooterOffsets metadata offsets) {d : Int} (hd : d ∈ splitOffsets metadata) :
    ∃ offset ∈ offsets, d ≤ offset := by
  obtain ⟨rgMeta, hrgMeta, rfl⟩ := mem_splitOffsets.mp hd
  obtain ⟨i, hi⟩ := List.mem_iff_getElem?.mp hrgMeta
  obtain ⟨offset, hoffset, hread⟩ := forall₂_getElem? h.forall₂ hi
  exact ⟨offset, List.mem_of_getElem? hoffset, le_rowGroupMetaToFileOffset (h.inFile rgMeta hrgMeta).2.2 hread⟩

/-- A reader of ranges takes the row groups that start in them. -/
lemma FooterOffsets.getRowGroupsToRetrieve_mem (h : FooterOffsets metadata offsets) {segments : List Segment}
    (hsegments : Ranges segments) : ∃ rowGroups, getRowGroupsToRetrieve metadata segments = .ok rowGroups ∧
      ∀ i offset, offsets[i]? = some offset → (i ∈ rowGroups ↔ offset ∈ cover segments) := by
  obtain ⟨rowGroups, hread, -, hmem⟩ := rowGroupsFrom_spec h.forall₂ h.sorted hsegments 0
  refine ⟨rowGroups, hread, fun i offset hi => ?_⟩
  rw [hmem]
  constructor
  · rintro ⟨k, later, rfl, hk, hcov⟩
    rw [Nat.zero_add, hk] at hi
    exact Option.some.inj hi ▸ hcov
  · intro hcov
    exact ⟨i, offset, (Nat.zero_add i).symm, hi, hcov⟩

/-- The segments of a written file cover everything from each row group on. -/
lemma FooterOffsets.cover_segmentsOfFile (h : FooterOffsets metadata offsets) {file : ContentFile}
    (hfile : file.splitOffsets = splitOffsets metadata) (hne : metadata ≠ []) :
    SortedByOffset (segmentsOfFile file) ∧ ∀ offset ∈ offsets, ∀ y, offset ≤ y → y ∈ cover (segmentsOfFile file) := by
  cases hsplit : splitOffsets metadata with
  | nil =>
    obtain ⟨rgMeta, hrgMeta⟩ := List.exists_mem_of_ne_nil metadata hne
    have hmem : rgMeta.fileOffset ∈ splitOffsets metadata := mem_splitOffsets.mpr ⟨rgMeta, hrgMeta, rfl⟩
    rw [hsplit] at hmem
    cases hmem
  | cons first rest =>
    have hsegments : segmentsOfFile file = segmentsOfOffsets (first :: rest) := by
      unfold segmentsOfFile
      rw [hfile, hsplit]
      rfl
    obtain ⟨hcover, -, hsorted⟩ := (hsplit ▸ h.splitOffsets_sorted).cover_iff
    rw [hsegments]
    exact ⟨hsorted, fun offset hoffset y hy => (hcover y).mpr ((h.first_le hsplit hoffset).trans hy)⟩

end

/-! ### Readers of a written file -/

/-- The reader with the number `k` takes the row group with the number `i`. -/
def Takes (metadata : List RowGroupMetaData) (readers : List (List Segment)) (k i : Nat) : Prop :=
  ∃ part rowGroups, readers[k]? = some part ∧ getRowGroupsToRetrieve metadata part = .ok rowGroups ∧ i ∈ rowGroups

section
variable {metadata : List RowGroupMetaData} {offsets : List Int} {file : ContentFile} {readers : List (List Segment)}

lemma FooterOffsets.takes_iff (h : FooterOffsets metadata offsets)
    (hranges : ∀ part ∈ readers, Ranges part) {i : Nat} {offset : Int} (hi : offsets[i]? = some offset) (k : Nat) :
    Takes metadata readers k i ↔ ∃ part, readers[k]? = some part ∧ offset ∈ cover part := by
  constructor
  · rintro ⟨part, rowGroups, hk, hread, hmem⟩
    obtain ⟨rowGroups', hread', hiff⟩ := h.getRowGroupsToRetrieve_mem (hranges part (List.mem_of_getElem? hk))
    obtain rfl := Except.ok.inj (hread.symm.trans hread')
    exact ⟨part, hk, (hiff i offset hi).mp hmem⟩
  · rintro ⟨part, hk, hcov⟩
    obtain ⟨rowGroups, hread, hiff⟩ := h.getRowGroupsToRetrieve_mem (hranges part (List.mem_of_getElem? hk))
    exact ⟨part, rowGroups, hk, hread, (hiff i offset hi).mpr hcov⟩

/-- One reader for each segment. -/
lemma shares_singletons (file : ContentFile) : Shares file ((segmentsOfFile file).map fun s => [s]) where
  all := by
    have hflatten : ((segmentsOfFile file).map fun s => [s]).flatten = segmentsOfFile file := by
      rw [← List.flatMap_def, List.flatMap_singleton']
    rw [hflatten]
  sorted := by
    intro part hpart
    obtain ⟨s, -, rfl⟩ := List.mem_map.mp hpart
    exact List.pairwise_singleton _ _

lemma ranges_singleton {s : Segment} (h : 0 ≤ s.length) : Ranges [s] where
  proper := by
    intro t ht
    obtain rfl := List.mem_singleton.mp ht
    exact h
  sorted := List.pairwise_singleton _ _
  separate := List.pairwise_singleton _ _

/-- Two segments with the same row group are two readers that take it. -/
lemma FooterOffsets.takes_singleton (h : FooterOffsets metadata offsets) (hproper : Proper (segmentsOfFile file))
    {i : Nat} {offset : Int} (hi : offsets[i]? = some offset) {k : Nat} {s : Segment}
    (hk : (segmentsOfFile file)[k]? = some s) (hcov : Covers s offset) :
    Takes metadata ((segmentsOfFile file).map fun s => [s]) k i := by
  rw [h.takes_iff _ hi]
  · refine ⟨[s], by rw [List.getElem?_map, hk, Option.map_some], s, List.mem_singleton_self s, hcov⟩
  · intro part hpart
    obtain ⟨t, ht, rfl⟩ := List.mem_map.mp hpart
    exact ranges_singleton (hproper t ht)

/-- With different file offsets, each row group has one reader. -/
lemma FooterOffsets.existsUnique_takes (h : FooterOffsets metadata offsets)
    (hfile : file.splitOffsets = splitOffsets metadata) (hnodup : (metadata.map RowGroupMetaData.fileOffset).Nodup)
    (hshares : Shares file readers) {i : Nat} (hi : i < metadata.length) : ∃! k, Takes metadata readers k i := by
  have hsplit : SplitOffsets file.splitOffsets := hfile ▸ h.splitOffsets_increasing hnodup
  have hranges := (segmentsOfFile_spec hsplit).1
  obtain ⟨offset, hoffset, -⟩ := forall₂_getElem? h.forall₂ (List.getElem?_eq_getElem hi)
  have hne : metadata ≠ [] := List.ne_nil_of_length_pos (Nat.zero_lt_of_lt hi)
  have hcov := (h.cover_segmentsOfFile hfile hne).2 offset (List.mem_of_getElem? hoffset) offset le_rfl
  obtain ⟨k, hk, hunique⟩ := hshares.existsUnique hranges hcov
  have htakes := h.takes_iff (fun part hpart => hshares.ranges hranges hpart) hoffset
  exact ⟨k, (htakes k).mpr hk, fun k' hk' => hunique k' ((htakes k').mp hk')⟩

/-- With a file offset that is there twice, a row group has two readers when each segment has its own. -/
lemma FooterOffsets.takes_twice (h : FooterOffsets metadata offsets)
    (hfile : file.splitOffsets = splitOffsets metadata) (hdup : ¬(metadata.map RowGroupMetaData.fileOffset).Nodup) :
    ∃ i < metadata.length, ∃ j k, j ≠ k ∧ Takes metadata ((segmentsOfFile file).map fun s => [s]) j i ∧
      Takes metadata ((segmentsOfFile file).map fun s => [s]) k i := by
  cases hsplit : splitOffsets metadata with
  | nil =>
    have hnodup : (splitOffsets metadata).Nodup := hsplit ▸ List.nodup_nil
    exact absurd (splitOffsets_nodup.mp hnodup) hdup
  | cons first rest =>
    have hsegments : segmentsOfFile file = segmentsOfOffsets (first :: rest) := by
      unfold segmentsOfFile
      rw [hfile, hsplit]
      rfl
    have hsorted : SortedOffsets (first :: rest) := hsplit ▸ h.splitOffsets_sorted
    have hproper : Proper (segmentsOfFile file) := hsegments ▸ hsorted.cover_iff.2.1
    have hdup' : ¬(first :: rest).Nodup := by rwa [← hsplit, splitOffsets_nodup]
    obtain ⟨d, hd, htwice⟩ := hsorted.cover_twice hdup'
    obtain ⟨offset, hoffset, hle⟩ := h.le_last (hsplit ▸ hd)
    obtain ⟨j, k, s, t, hne, hj, hk, hs, ht⟩ := htwice offset hle
    rw [← hsegments] at hj hk
    obtain ⟨i, hi⟩ := List.mem_iff_getElem?.mp hoffset
    obtain ⟨rgMeta, hrgMeta, -⟩ := forall₂_getElem? h.forall₂.flip hi
    exact ⟨i, (List.getElem?_eq_some_iff.mp hrgMeta).1, j, k, hne, h.takes_singleton hproper hi hj hs,
      h.takes_singleton hproper hi hk ht⟩

end

/-- One reader of all segments of a written file takes every row group. Readers that share them take each row group
once, however they share them, exactly when no two row groups have the same file offset. -/
theorem splitOffsets_readOnce_iff (metadata : List RowGroupMetaData) (offsets : List Int)
    (h : FooterOffsets metadata offsets) (file : ContentFile) (hfile : file.splitOffsets = splitOffsets metadata) :
    getRowGroupsToRetrieve metadata (segmentsOfFile file) = .ok (List.range metadata.length) ∧
      ((∀ readers, Shares file readers → ∀ i < metadata.length, ∃! k, Takes metadata readers k i) ↔
        (metadata.map RowGroupMetaData.fileOffset).Nodup) := by
  constructor
  · rw [List.range_eq_range']
    by_cases hne : metadata = []
    · subst hne
      rfl
    · obtain ⟨hsorted, hcover⟩ := h.cover_segmentsOfFile hfile hne
      exact rowGroupsFrom_all h.forall₂ h.sorted hsorted hcover 0
  · constructor
    · intro hreaders
      by_contra hdup
      obtain ⟨i, hi, j, k, hne, hj, hk⟩ := h.takes_twice hfile hdup
      exact hne ((hreaders _ (shares_singletons file) i hi).unique hj hk)
    · intro hnodup readers hshares i hi
      exact h.existsUnique_takes hfile hnodup hshares hi

/-- Two row groups of a file written without file offsets. -/
def unsetOffsets : List RowGroupMetaData := [⟨0, 4⟩, ⟨0, 400⟩]

theorem unsetOffsets_readTwice :
    getRowGroupsToRetrieve unsetOffsets (segmentsOfFile { splitOffsets := splitOffsets unsetOffsets }) = .ok [0, 1] ∧
      ((∀ readers, Shares { splitOffsets := splitOffsets unsetOffsets } readers →
        ∀ i < unsetOffsets.length, ∃! k, Takes unsetOffsets readers k i) ↔
        (unsetOffsets.map RowGroupMetaData.fileOffset).Nodup) :=
  splitOffsets_readOnce_iff unsetOffsets [4, 400] ⟨rfl, by decide, by simp [unsetOffsets, int64Max]⟩ _ rfl

end IcebergCxx.Proofs

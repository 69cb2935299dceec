import IcebergCxx.RowGroups
import IcebergCxx.Proofs.DataEntrySum

/-!
# Every row group is read once

The segments that the inner loop leaves behind end before the row group, so no later row group
starts in them: the walk takes exactly the row groups that start in a segment. The segments of a
data file do not overlap, and the last one has no end; whoever gets them, one reader takes a row
group.
-/

namespace IcebergCxx.Proofs

open Lib

/-- No byte is in both segments. -/
def Separate (a b : Segment) : Prop := ∀ x, ¬(Covers a x ∧ Covers b x)

/-- Ranges of bytes sorted by offset that do not overlap. -/
structure Ranges (l : List Segment) : Prop where
  proper : Proper l
  sorted : SortedByOffset l
  separate : l.Pairwise Separate

lemma Separate.symm {a b : Segment} (h : Separate a b) : Separate b a := fun x hx => h x hx.symm

lemma Ranges.tail {s : Segment} {l : List Segment} (h : Ranges (s :: l)) : Ranges l where
  proper t ht := h.proper t (List.mem_cons_of_mem _ ht)
  sorted := (List.pairwise_cons.mp h.sorted).2
  separate := (List.pairwise_cons.mp h.separate).2

/-- A segment with others behind it has an end, and they start there or later. -/
lemma Ranges.end_le {s t : Segment} {l : List Segment} (h : Ranges (s :: l)) (ht : t ∈ l) :
    0 < s.length ∧ s.offset + s.length ≤ t.offset := by
  have hle : s.offset ≤ t.offset := (List.pairwise_cons.mp h.sorted).1 t ht
  have hs := h.proper s List.mem_cons_self
  have hsep := (List.pairwise_cons.mp h.separate).1 t ht t.offset
  have hcov := covers_offset (h.proper t (List.mem_cons_of_mem _ ht))
  unfold Covers at hsep hcov
  omega

/-! ### The walk -/

/-- The inner loop takes a row group that starts in a segment, and leaves no segment behind that a
later row group could start in. -/
lemma mapRowGroup_spec {l : List Segment} (h : Ranges l) (x : Int) :
    ((mapRowGroup x l).1 = true ↔ x ∈ cover l) ∧ Ranges (mapRowGroup x l).2 ∧
      ∀ y, x ≤ y → (y ∈ cover (mapRowGroup x l).2 ↔ y ∈ cover l) := by
  induction l with
  | nil => exact ⟨by simp [mapRowGroup, cover], h, fun y _ => Iff.rfl⟩
  | cons s l ih =>
    have hs := h.proper s List.mem_cons_self
    rw [mapRowGroup]
    split_ifs with hin hend
    · refine ⟨⟨fun _ => mem_cover_cons.mpr (.inl ⟨hin.1, hin.2.symm⟩), fun _ => rfl⟩, h, fun y _ => Iff.rfl⟩
    · -- the segment ends before the row group
      have hbefore : ∀ y, x ≤ y → ¬Covers s y := by
        intro y hy hcov
        unfold Covers at hcov
        omega
      obtain ⟨h1, h2, h3⟩ := ih h.tail
      refine ⟨?_, h2, fun y hy => ?_⟩
      · rw [h1, mem_cover_cons, or_iff_right (hbefore x le_rfl)]
      · rw [h3 y hy, mem_cover_cons, or_iff_right (hbefore y hy)]
    · -- the row group starts before the segment, and so before all others
      refine ⟨⟨fun h => absurd h (by decide), ?_⟩, h, fun y _ => Iff.rfl⟩
      intro hx
      exfalso
      rcases mem_cover_cons.mp hx with hcov | ⟨t, ht, hcov⟩
      · unfold Covers at hcov
        omega
      · have hle := (h.end_le ht).2
        have hfrom := hcov.1
        omega

lemma rowGroupsFrom_spec {metadata : List RowGroupMetaData} {offsets : List Int}
    (hoffsets : List.Forall₂ (fun rgMeta offset => rowGroupMetaToFileOffset rgMeta = .ok offset) metadata offsets)
    (hsorted : offsets.Pairwise (· ≤ ·)) {l : List Segment} (h : Ranges l) (i : Nat) :
    ∃ rowGroups, rowGroupsFrom i l metadata = .ok rowGroups ∧ rowGroups.Pairwise (· < ·) ∧
      ∀ j, j ∈ rowGroups ↔ ∃ k offset, j = i + k ∧ offsets[k]? = some offset ∧ offset ∈ cover l := by
  induction hoffsets generalizing l i with
  | nil => exact ⟨[], rfl, .nil, by simp⟩
  | @cons rgMeta offset metadata offsets hoffset _ ih =>
    obtain ⟨hfirst, hsorted⟩ := List.pairwise_cons.mp hsorted
    obtain ⟨h1, h2, h3⟩ := mapRowGroup_spec h offset
    obtain ⟨rest, hrest, hpair, hmem⟩ := ih hsorted h2 (i + 1)
    have hlater : ∀ j, j ∈ rest ↔ ∃ k later, j = i + (k + 1) ∧ offsets[k]? = some later ∧ later ∈ cover l := by
      intro j
      rw [hmem]
      constructor
      · rintro ⟨k, later, hj, hk, hcov⟩
        exact ⟨k, later, by omega, hk, (h3 later (hfirst later (List.mem_of_getElem? hk))).mp hcov⟩
      · rintro ⟨k, later, hj, hk, hcov⟩
        exact ⟨k, later, by omega, hk, (h3 later (hfirst later (List.mem_of_getElem? hk))).mpr hcov⟩
    have hafter : ∀ j ∈ rest, i < j := by
      intro j hj
      obtain ⟨k, -, rfl, -⟩ := (hlater j).mp hj
      omega
    rw [rowGroupsFrom, hoffset, ok_bind]
    dsimp only
    rw [hrest, ok_bind]
    refine ⟨_, rfl, ?_, ?_⟩
    · split_ifs
      · exact .cons hafter hpair
      · exact hpair
    · intro j
      have hhere : (∃ k later, j = i + k ∧ (offset :: offsets)[k]? = some later ∧ later ∈ cover l) ↔
          (j = i ∧ offset ∈ cover l) ∨ j ∈ rest := by
        rw [hlater]
        constructor
        · rintro ⟨k, later, hj, hk, hcov⟩
          cases k with
          | zero =>
            obtain rfl := Option.some.inj hk
            exact .inl ⟨hj, hcov⟩
          | succ k => exact .inr ⟨k, later, hj, hk, hcov⟩
        · rintro (⟨hj, hcov⟩ | ⟨k, later, hj, hk, hcov⟩)
          · exact ⟨0, offset, hj, rfl, hcov⟩
          · exact ⟨k + 1, later, hj, hk, hcov⟩
      rw [hhere, ← h1]
      split_ifs with htaken
      · simp [htaken]
      · simp [htaken]

/-! ### The segments of a data file -/

/-- Offsets in a file, strictly increasing. -/
structure SplitOffsets (offsets : List Int) : Prop where
  increasing : offsets.Pairwise (· < ·)
  inFile : ∀ offset ∈ offsets, 0 ≤ offset ∧ offset ≤ int64Max

/-- Where the segments of a data file start. -/
def firstOffset (file : ContentFile) : Int := file.splitOffsets.head?.getD 4

lemma SplitOffsets.tail {offset : Int} {offsets : List Int} (h : SplitOffsets (offset :: offsets)) :
    SplitOffsets offsets where
  increasing := (List.pairwise_cons.mp h.increasing).2
  inFile o ho := h.inFile o (List.mem_cons_of_mem _ ho)

/-- The segments between strictly increasing offsets are ranges that cover everything from the
first offset on. -/
lemma segmentsOfOffsets_spec {first : Int} {offsets : List Int} (h : SplitOffsets (first :: offsets)) :
    Ranges (segmentsOfOffsets (first :: offsets)) ∧
      ∀ x, x ∈ cover (segmentsOfOffsets (first :: offsets)) ↔ first ≤ x := by
  induction offsets generalizing first with
  | nil =>
    refine ⟨⟨by simp [Proper, segmentsOfOffsets], by simp [SortedByOffset, segmentsOfOffsets], by
      simp [segmentsOfOffsets]⟩, ?_⟩
    simp [cover, Covers, segmentsOfOffsets]
  | cons next rest ih =>
    obtain ⟨hranges, hcover⟩ := ih h.tail
    have hlt : first < next := (List.pairwise_cons.mp h.increasing).1 next List.mem_cons_self
    have hfirst := (h.inFile first List.mem_cons_self).1
    have hnext := (h.inFile next (List.mem_cons_of_mem _ List.mem_cons_self)).2
    have hlength : wrapInt64 (next - first) = next - first := by
      apply wrapInt64_of_inInt64
      constructor
      · simp only [int64Min]
        omega
      · omega
    rw [segmentsOfOffsets, hlength]
    have hnone : ∀ s ∈ segmentsOfOffsets (next :: rest), next ≤ s.offset := by
      intro s hs
      rw [← hcover]
      exact ⟨s, hs, covers_offset (hranges.proper s hs)⟩
    refine ⟨⟨?_, ?_, ?_⟩, fun x => ?_⟩
    · intro s hs
      rcases List.mem_cons.mp hs with rfl | hs
      · dsimp only
        omega
      · exact hranges.proper s hs
    · apply List.Pairwise.cons _ hranges.sorted
      intro s hs
      have hle := hnone s hs
      dsimp only
      omega
    · apply List.Pairwise.cons _ hranges.separate
      intro s hs x hx
      have hle := hnone s hs
      unfold Covers at hx
      dsimp only at hx
      omega
    · rw [mem_cover_cons, hcover]
      unfold Covers
      dsimp only
      omega

lemma segmentsOfFile_spec {file : ContentFile} (h : SplitOffsets file.splitOffsets) :
    Ranges (segmentsOfFile file) ∧ ∀ x, x ∈ cover (segmentsOfFile file) ↔ firstOffset file ≤ x := by
  unfold segmentsOfFile firstOffset
  cases hoffsets : file.splitOffsets with
  | nil =>
    have hdefault : SplitOffsets [4] := ⟨List.pairwise_singleton _ _, by simp [int64Max]⟩
    exact segmentsOfOffsets_spec hdefault
  | cons first offsets => exact segmentsOfOffsets_spec (hoffsets ▸ h)

/-! ### Readers -/

/-- The readers of a file get its segments, each in order of the offsets. -/
structure Shares (file : ContentFile) (readers : List (List Segment)) : Prop where
  all : readers.flatten.Perm (segmentsOfFile file)
  sorted : ∀ part ∈ readers, SortedByOffset part

lemma Shares.ranges {file : ContentFile} {readers : List (List Segment)} (hfile : Ranges (segmentsOfFile file))
    (h : Shares file readers) {part : List Segment} (hpart : part ∈ readers) : Ranges part where
  proper s hs := hfile.proper s (h.all.mem_iff.mp (List.mem_flatten.mpr ⟨part, hpart, hs⟩))
  sorted := h.sorted part hpart
  separate := by
    have hpair := (h.all.pairwise_iff (fun hab => Separate.symm hab)).mpr hfile.separate
    exact (List.pairwise_flatten.mp hpair).1 part hpart

/-- A byte of the file is in the segments of one reader. -/
lemma Shares.existsUnique {file : ContentFile} {readers : List (List Segment)} (hfile : Ranges (segmentsOfFile file))
    (h : Shares file readers) {x : Int} (hx : x ∈ cover (segmentsOfFile file)) :
    ∃! k : Nat, ∃ part, readers[k]? = some part ∧ x ∈ cover part := by
  obtain ⟨s, hs, hcov⟩ := hx
  obtain ⟨part, hpart, hs⟩ := List.mem_flatten.mp (h.all.mem_iff.mpr hs)
  obtain ⟨k, hk⟩ := List.mem_iff_getElem?.mp hpart
  refine ⟨k, ⟨part, hk, s, hs, hcov⟩, ?_⟩
  rintro k' ⟨part', hk', s', hs', hcov'⟩
  have hpair := (h.all.pairwise_iff (fun hab => Separate.symm hab)).mpr hfile.separate
  have hparts := List.pairwise_iff_getElem.mp (List.pairwise_flatten.mp hpair).2
  obtain ⟨hlt, rfl⟩ := List.getElem?_eq_some_iff.mp hk
  obtain ⟨hlt', rfl⟩ := List.getElem?_eq_some_iff.mp hk'
  rcases Nat.lt_trichotomy k k' with hless | heq | hless
  · exact absurd ⟨hcov, hcov'⟩ (hparts k k' hlt hlt' hless s hs s' hs' x)
  · exact heq.symm
  · exact absurd ⟨hcov', hcov⟩ (hparts k' k hlt' hlt hless s' hs' s hs x)

/-- Three row groups at the split offsets 4, 100 and 200, the first one without `file_offset`. -/
def threeRowGroups : List RowGroupMetaData := [⟨0, 4⟩, ⟨100, 120⟩, ⟨200, 220⟩]

end IcebergCxx.Proofs

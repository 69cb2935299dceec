import IcebergCxx.Proofs.DeletionVector

/-!
# Ranges of deletion vectors

`Cardinality(l, r)` is a difference of ranks in `uint64_t`, so it counts the positions from `l` to `r`
modulo `2 ^ 64`, and only the range of everything can hold that many.
-/

namespace IcebergCxx.Proofs

open Lib

/-! ### The elements of a range -/

lemma mem_dropWhile_of_increasing {l : List Nat} (h : l.Pairwise (· < ·)) (a x : Nat) :
    x ∈ l.dropWhile (fun y => y < a) ↔ x ∈ l ∧ a ≤ x := by
  induction l with
  | nil => simp
  | cons y l ih =>
    obtain ⟨hfirst, hrest⟩ := List.pairwise_cons.mp h
    rw [List.dropWhile_cons]
    by_cases hy : y < a
    · rw [if_pos (by simpa using hy), ih hrest, List.mem_cons]
      constructor
      · exact fun hx => ⟨.inr hx.1, hx.2⟩
      · rintro ⟨rfl | hx, ha⟩
        · omega
        · exact ⟨hx, ha⟩
    · rw [if_neg (by simpa using hy)]
      refine ⟨fun hx => ⟨hx, ?_⟩, fun hx => hx.1⟩
      rcases List.mem_cons.mp hx with rfl | hx
      · omega
      · have := hfirst x hx
        omega

lemma mem_takeWhile_of_increasing {l : List Nat} (h : l.Pairwise (· < ·)) (b x : Nat) :
    x ∈ l.takeWhile (fun y => y ≤ b) ↔ x ∈ l ∧ x ≤ b := by
  induction l with
  | nil => simp
  | cons y l ih =>
    obtain ⟨hfirst, hrest⟩ := List.pairwise_cons.mp h
    rw [List.takeWhile_cons]
    by_cases hy : y ≤ b
    · rw [if_pos (by simpa using hy), List.mem_cons, ih hrest, List.mem_cons]
      constructor
      · rintro (rfl | hx)
        · exact ⟨.inl rfl, hy⟩
        · exact ⟨.inr hx.1, hx.2⟩
      · rintro ⟨rfl | hx, hb⟩
        · exact .inl rfl
        · exact .inr ⟨hx, hb⟩
    · rw [if_neg (by simpa using hy)]
      refine ⟨fun hx => absurd hx List.not_mem_nil, ?_⟩
      rintro ⟨hx, hb⟩
      rcases List.mem_cons.mp hx with rfl | hx
      · omega
      · have := hfirst x hx
        omega

variable {roaring : RoaringLibrary} {dv : DeletionVector roaring}

lemma card_le_add (s : Finset UInt64) {l r : UInt64} (h : l ≤ r) :
    (s.filter (· ≤ r)).card + (if l ∈ s then 1 else 0) =
      (s.filter (· ≤ l)).card + (s.filter (fun x => l ≤ x ∧ x ≤ r)).card := by
  have hunion : s.filter (· ≤ l) ∪ s.filter (fun x => l ≤ x ∧ x ≤ r) = s.filter (· ≤ r) := by
    ext x
    simp only [Finset.mem_union, Finset.mem_filter, UInt64.le_iff_toNat_le] at h ⊢
    constructor
    · rintro (⟨hx, hle⟩ | ⟨hx, -, hle⟩)
      · exact ⟨hx, hle.trans h⟩
      · exact ⟨hx, hle⟩
    · rintro ⟨hx, hle⟩
      rcases le_total x.toNat l.toNat with hl | hl
      · exact .inl ⟨hx, hl⟩
      · exact .inr ⟨hx, hl, hle⟩
  have hinter : s.filter (· ≤ l) ∩ s.filter (fun x => l ≤ x ∧ x ≤ r) = s.filter (· = l) := by
    ext x
    simp only [Finset.mem_inter, Finset.mem_filter, UInt64.le_iff_toNat_le, ← UInt64.toNat_inj] at h ⊢
    constructor
    · rintro ⟨⟨hx, hle⟩, -, hge, -⟩
      exact ⟨hx, by omega⟩
    · rintro ⟨hx, heq⟩
      exact ⟨⟨hx, by omega⟩, hx, by omega, by omega⟩
  have hpoint : (s.filter (· = l)).card = if l ∈ s then 1 else 0 := by
    rw [Finset.filter_eq']
    split_ifs
    · exact Finset.card_singleton l
    · exact Finset.card_empty
  rw [← Finset.card_union_add_card_inter, hunion, hinter, hpoint]

/-- The positions of the vector. -/
def vectorPositions (dv : DeletionVector roaring) : Finset Nat := (roaring.elems dv.bitmap).image UInt64.toNat

/-- Those of a closed range. -/
def rangePositions (dv : DeletionVector roaring) (l r : UInt64) : Finset Nat :=
  (vectorPositions dv).filter (fun x => l.toNat ≤ x ∧ x ≤ r.toNat)

lemma card_rangePositions (l r : UInt64) :
    (rangePositions dv l r).card = ((roaring.elems dv.bitmap).filter (fun x => l ≤ x ∧ x ≤ r)).card := by
  have himage : rangePositions dv l r =
      ((roaring.elems dv.bitmap).filter (fun x => l ≤ x ∧ x ≤ r)).image UInt64.toNat := by
    rw [rangePositions, vectorPositions, Finset.filter_image]
    simp only [UInt64.le_iff_toNat_le]
  rw [himage, Finset.card_image_of_injective _ (fun x y h => UInt64.toNat_inj.mp h)]

lemma rangePositions_subset (l r : UInt64) : rangePositions dv l r ⊆ Finset.Icc l.toNat r.toNat := by
  intro x hx
  rw [Finset.mem_Icc]
  exact (Finset.mem_filter.mp hx).2

lemma card_rangePositions_le (l r : UInt64) : (rangePositions dv l r).card ≤ r.toNat + 1 - l.toNat := by
  have hcard := Finset.card_le_card (@rangePositions_subset roaring dv l r)
  rwa [Nat.card_Icc] at hcard

/-- The difference of the ranks may wrap. -/
lemma cardinality_toNat_mod {l r : UInt64} (h : l ≤ r) :
    (dv.cardinality l r).toNat = (rangePositions dv l r).card % 2 ^ 64 := by
  have hadd := card_le_add (roaring.elems dv.bitmap) h
  rw [card_rangePositions]
  simp only [DeletionVector.cardinality, RoaringLibrary.rank, RoaringLibrary.contains, decide_eq_true_eq]
  split_ifs at hadd ⊢
  · rw [UInt64.toNat_add, UInt64.toNat_sub, UInt64.toNat_ofNat', UInt64.toNat_ofNat', UInt64.toNat_one]
    omega
  · rw [UInt64.toNat_add, UInt64.toNat_sub, UInt64.toNat_ofNat', UInt64.toNat_ofNat', UInt64.toNat_zero]
    omega

/-- All positions there are, asked for at once. -/
def WholeRange (dv : DeletionVector roaring) (l r : UInt64) : Prop :=
  l = 0 ∧ r = -1 ∧ ∀ x, x ∈ roaring.elems dv.bitmap

lemma mem_vectorPositions {x : UInt64} : x.toNat ∈ vectorPositions dv ↔ x ∈ roaring.elems dv.bitmap := by
  rw [vectorPositions, Finset.mem_image]
  constructor
  · rintro ⟨y, hy, heq⟩
    rwa [← UInt64.toNat_inj.mp heq]
  · exact fun hx => ⟨x, hx, rfl⟩

lemma toNat_allOnes : (-1 : UInt64).toNat = 2 ^ 64 - 1 := rfl

lemma card_of_wholeRange {l r : UInt64} (h : WholeRange dv l r) : (rangePositions dv l r).card = 2 ^ 64 := by
  obtain ⟨rfl, rfl, hall⟩ := h
  have hrange : rangePositions dv 0 (-1) = Finset.range (2 ^ 64) := by
    ext x
    rw [rangePositions, Finset.mem_filter, Finset.mem_range, UInt64.toNat_zero, toNat_allOnes]
    constructor
    · rintro ⟨-, -, hx⟩
      omega
    · intro hx
      have hmem := mem_vectorPositions.mpr (hall (UInt64.ofNat x))
      rw [UInt64.toNat_ofNat', Nat.mod_eq_of_lt hx] at hmem
      exact ⟨hmem, by omega, by omega⟩
  rw [hrange, Finset.card_range]

lemma wholeRange_of_card {l r : UInt64} (h : 2 ^ 64 ≤ (rangePositions dv l r).card) : WholeRange dv l r := by
  have hle := @card_rangePositions_le roaring dv l r
  have hr := r.toNat_lt
  have hl : l = 0 := UInt64.toNat_inj.mp (by rw [UInt64.toNat_zero]; omega)
  have hr' : r = -1 := UInt64.toNat_inj.mp (by rw [toNat_allOnes]; omega)
  refine ⟨hl, hr', fun x => ?_⟩
  have hfull : rangePositions dv l r = Finset.Icc l.toNat r.toNat := by
    refine Finset.eq_of_subset_of_card_le (rangePositions_subset l r) ?_
    rw [Nat.card_Icc]
    omega
  have hx : x.toNat ∈ rangePositions dv l r := by
    rw [hfull, hl, hr', Finset.mem_Icc, UInt64.toNat_zero, toNat_allOnes]
    have := x.toNat_lt
    omega
  exact mem_vectorPositions.mp (Finset.mem_filter.mp hx).1

/-- The walk of the iterator, as the sorted positions of the range. -/
lemma sort_rangePositions (l r : UInt64) :
    (((vectorPositions dv).sort).dropWhile (fun x => x < l.toNat)).takeWhile (fun x => x ≤ r.toNat) =
      (rangePositions dv l r).sort := by
  have hsorted : ((vectorPositions dv).sort).Pairwise (· < ·) := (Finset.sortedLT_sort _).pairwise
  have hdropped : (((vectorPositions dv).sort).dropWhile (fun x => x < l.toNat)).Pairwise (· < ·) :=
    hsorted.sublist (List.dropWhile_sublist _)
  have htaken := hdropped.sublist (List.takeWhile_sublist (fun x => decide (x ≤ r.toNat)))
  rw [← (List.toFinset_sort (r := (· ≤ ·)) htaken.nodup).mpr (htaken.imp le_of_lt)]
  congr 1
  ext x
  rw [List.mem_toFinset, mem_takeWhile_of_increasing hdropped, mem_dropWhile_of_increasing hsorted, Finset.mem_sort,
    rangePositions, Finset.mem_filter, and_assoc]

/-- `GetElems` of a range with as many positions as a vector can hold. -/
lemma getElems_eq {l r : UInt64} (h : l ≤ r) (hsize : (rangePositions dv l r).card ≤ DeletionVector.maxVectorSize) :
    dv.getElems l r = .ok (rangePositions dv l r).sort := by
  have hcard : (dv.cardinality l r).toNat ≤ DeletionVector.maxVectorSize :=
    (cardinality_toNat_mod h).trans_le ((Nat.mod_le _ _).trans hsize)
  have hwalk := @sort_rangePositions roaring dv l r
  rw [vectorPositions] at hwalk
  rw [DeletionVector.getElems, decide_eq_true hcard, ensure_true, ok_bind]
  simp only [hwalk, Finset.length_sort]
  rw [decide_eq_true hsize, ensure_true]
  rfl

lemma getElems_error {l r : UInt64} (hsize : DeletionVector.maxVectorSize < (rangePositions dv l r).card) :
    ∃ message, dv.getElems l r = .error message := by
  have hwalk := @sort_rangePositions roaring dv l r
  rw [vectorPositions] at hwalk
  rw [DeletionVector.getElems]
  simp only [hwalk, Finset.length_sort]
  cases hreserve : ensure (decide ((dv.cardinality l r).toNat ≤ DeletionVector.maxVectorSize)) "vector::reserve" with
  | error message => exact ⟨message, rfl⟩
  | ok _ =>
    rw [decide_eq_false (not_le.mpr hsize)]
    exact ⟨_, rfl⟩

/-- A range of less than `2 ^ 31` positions never has too many. -/
lemma getElems_ok {l r : UInt64} (h : l ≤ r) (hrange : r.toNat - l.toNat < 2 ^ 31) :
    ∃ elems, dv.getElems l r = .ok elems ∧ elems.Pairwise (· < ·) ∧
      ∀ x, x ∈ elems ↔ x ∈ vectorPositions dv ∧ l.toNat ≤ x ∧ x ≤ r.toNat := by
  have hsize : (rangePositions dv l r).card ≤ DeletionVector.maxVectorSize := by
    have hle := @card_rangePositions_le roaring dv l r
    unfold DeletionVector.maxVectorSize
    omega
  refine ⟨_, getElems_eq h hsize, (Finset.sortedLT_sort _).pairwise, ?_⟩
  intro x
  rw [Finset.mem_sort, rangePositions, Finset.mem_filter]

/-- `Cardinality` and `GetElems` give the number of the positions in a range and their ascending list,
unless there are more than a `uint64_t`, or a vector, can hold. -/
theorem rangeQueries_exact (roaring : RoaringLibrary) (dv : DeletionVector roaring) (l r : UInt64) (h : l ≤ r) :
    (¬WholeRange dv l r → (dv.cardinality l r).toNat = (rangePositions dv l r).card) ∧
      ((rangePositions dv l r).card ≤ DeletionVector.maxVectorSize →
        dv.getElems l r = .ok (rangePositions dv l r).sort ∧
          (rangePositions dv l r).sort.length = (dv.cardinality l r).toNat) ∧
      (DeletionVector.maxVectorSize < (rangePositions dv l r).card → ∃ message, dv.getElems l r = .error message) := by
  refine ⟨?_, fun hsize => ⟨getElems_eq h hsize, ?_⟩, getElems_error⟩
  · intro hnot
    rw [cardinality_toNat_mod h, Nat.mod_eq_of_lt]
    exact lt_of_not_ge (fun hcard => hnot (wholeRange_of_card hcard))
  · rw [Finset.length_sort, cardinality_toNat_mod h, Nat.mod_eq_of_lt]
    unfold DeletionVector.maxVectorSize at hsize
    omega

/-- Two positions on one side of `2 ^ 63` and one on the other. -/
def threePositions : DeletionVector listRoaring :=
  { properties := ∅
    fields := []
    bitmap := [11, 4, 18446744073709551615] }

theorem threePositions_counted : (threePositions.cardinality 4 11).toNat = 2 ∧
    threePositions.getElems 4 11 = .ok (rangePositions threePositions 4 11).sort := by
  have h := rangeQueries_exact listRoaring threePositions 4 11 (by decide)
  have hcard : (rangePositions threePositions 4 11).card = 2 := by decide +kernel
  refine ⟨(h.1 ?_).trans hcard, (h.2.1 ?_).1⟩
  · rintro ⟨hzero, -, -⟩
    exact absurd hzero (by decide)
  · rw [hcard]
    decide

/-- Every position is deleted. -/
def allPositions : DeletionVector listRoaring :=
  { properties := ∅
    fields := []
    bitmap := (List.range (2 ^ 64)).map UInt64.ofNat }

lemma allPositions_whole : WholeRange allPositions 0 (-1) := by
  refine ⟨rfl, rfl, fun x => ?_⟩
  simp only [listRoaring, allPositions, List.mem_toFinset, List.mem_map, List.mem_range]
  exact ⟨x.toNat, x.toNat_lt, UInt64.ofNat_toNat⟩

/-- The number of all positions is `0` as a `uint64_t`. -/
theorem allPositions_uncounted : (rangePositions allPositions 0 (-1)).card = 2 ^ 64 ∧
    (allPositions.cardinality 0 (-1)).toNat = 0 ∧ ∃ message, allPositions.getElems 0 (-1) = .error message := by
  have hcard := card_of_wholeRange allPositions_whole
  refine ⟨hcard, ?_, getElems_error ?_⟩
  · rw [cardinality_toNat_mod (by decide), hcard, Nat.mod_self]
  · rw [hcard]
    decide

end IcebergCxx.Proofs

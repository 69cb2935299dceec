import IcebergCxx.Optimizer
import IcebergCxx.Lib.Layered

/-!
# Bucket boundaries

The events of a partition are the brackets of its delete ranges. The scan over them fails
nowhere, no range crosses a boundary it finds, and every path of the partition lies at or
after the first boundary.
-/

namespace IcebergCxx.Proofs

open Lib

/-- The positional deletes of a partition, layer by layer. -/
def deletesOf (partition : List LayerWithExtraInfo) : List PositionalDeleteWithExtraInfo :=
  partition.flatMap LayerWithExtraInfo.positionalDeleteEntries

/-- The data files of a partition, layer by layer. -/
def dataOf (partition : List LayerWithExtraInfo) : List DataEntry :=
  partition.flatMap LayerWithExtraInfo.dataEntries

/-- A delete with a range that is not inverted. -/
def WellBounded (del : PositionalDeleteWithExtraInfo) : Prop :=
  ∃ min max, del.minMaxReferencedPath = some (min, max) ∧ min ≤ max

def rangeOf (del : PositionalDeleteWithExtraInfo) : Bytes × Bytes := del.minMaxReferencedPath.getD ([], [])

lemma WellBounded.range {del : PositionalDeleteWithExtraInfo} (h : WellBounded del) :
    del.minMaxReferencedPath = some (rangeOf del) ∧ (rangeOf del).1 ≤ (rangeOf del).2 := by
  obtain ⟨min, max, hr, hle⟩ := h
  simp [rangeOf, hr, hle]

/-- The two events of a delete. -/
def deleteEvents (del : PositionalDeleteWithExtraInfo) : List Event :=
  [⟨.opening, (rangeOf del).1⟩, ⟨.closing, (rangeOf del).2⟩]

lemma mapM_createFromDelete {dels : List PositionalDeleteWithExtraInfo} (h : ∀ del ∈ dels, WellBounded del) :
    ∃ pairs, dels.mapM createFromDelete = .ok pairs ∧
      pairs.flatMap (fun (start, finish) => [start, finish]) = dels.flatMap deleteEvents := by
  induction dels with
  | nil => exact ⟨[], rfl, rfl⟩
  | cons del dels ih =>
    obtain ⟨pairs, hp, he⟩ := ih (fun d hd => h d (List.mem_cons_of_mem _ hd))
    have hr := (h del List.mem_cons_self).range.1
    refine ⟨(⟨.opening, (rangeOf del).1⟩, ⟨.closing, (rangeOf del).2⟩) :: pairs, ?_, ?_⟩
    · simp [List.mapM_cons, createFromDelete, hr, hp]
    · simp [deleteEvents, he]

/-- The events of a partition, unsorted. -/
def eventsOf : List LayerWithExtraInfo → List Event
  | [] => []
  | layer :: partition =>
    layer.positionalDeleteEntries.flatMap deleteEvents ++ layer.dataEntries.map createFromData ++ eventsOf partition

lemma getEventsInPartition_ok {partition : List LayerWithExtraInfo} (h : ∀ del ∈ deletesOf partition, WellBounded del) :
    getEventsInPartition partition = .ok (eventsOf partition) := by
  induction partition with
  | nil => rfl
  | cons layer partition ih =>
    have hrest := ih (fun del hdel => h del (List.mem_append_right _ hdel))
    obtain ⟨pairs, hp, he⟩ := @mapM_createFromDelete layer.positionalDeleteEntries
      (fun del hdel => h del (List.mem_append_left _ hdel))
    simp only [getEventsInPartition, hp, hrest, ok_bind, he, eventsOf]

lemma positions_opening_deleteEvents (dels : List PositionalDeleteWithExtraInfo) :
    positions .opening (dels.flatMap deleteEvents) = dels.map (fun del => (rangeOf del).1) := by
  induction dels with
  | nil => rfl
  | cons del dels ih =>
    rw [List.flatMap_cons, positions_append, ih]
    rfl

lemma positions_closing_deleteEvents (dels : List PositionalDeleteWithExtraInfo) :
    positions .closing (dels.flatMap deleteEvents) = dels.map (fun del => (rangeOf del).2) := by
  induction dels with
  | nil => rfl
  | cons del dels ih =>
    rw [List.flatMap_cons, positions_append, ih]
    rfl

lemma positions_data {m : Mark} (hm : m ≠ .point) (data : List DataEntry) :
    positions m (data.map createFromData) = [] := by
  simp [positions, createFromData, List.filter_eq_nil_iff, Ne.symm hm]

lemma positions_opening_eventsOf (partition : List LayerWithExtraInfo) :
    positions .opening (eventsOf partition) = ((deletesOf partition).map rangeOf).map Prod.fst := by
  induction partition with
  | nil => rfl
  | cons layer partition ih =>
    rw [eventsOf, positions_append, positions_append, positions_opening_deleteEvents, positions_data (by decide), ih]
    simp [deletesOf]

lemma positions_closing_eventsOf (partition : List LayerWithExtraInfo) :
    positions .closing (eventsOf partition) = ((deletesOf partition).map rangeOf).map Prod.snd := by
  induction partition with
  | nil => rfl
  | cons layer partition ih =>
    rw [eventsOf, positions_append, positions_append, positions_closing_deleteEvents, positions_data (by decide), ih]
    simp [deletesOf]

lemma mem_eventsOf {partition : List LayerWithExtraInfo} {e : Event} :
    e ∈ eventsOf partition ↔
      (∃ del ∈ deletesOf partition, e ∈ deleteEvents del) ∨ (∃ data ∈ dataOf partition, e = createFromData data) := by
  induction partition with
  | nil => simp [eventsOf, deletesOf, dataOf]
  | cons layer partition ih =>
    simp only [eventsOf, List.mem_append, ih, List.mem_flatMap, List.mem_map, deletesOf, dataOf, List.flatMap_cons]
    constructor
    · rintro ((⟨del, hd, he⟩ | ⟨data, hd, rfl⟩) | (⟨del, hd, he⟩ | ⟨data, hd, rfl⟩))
      · exact .inl ⟨del, .inl hd, he⟩
      · exact .inr ⟨data, .inl hd, rfl⟩
      · exact .inl ⟨del, .inr hd, he⟩
      · exact .inr ⟨data, .inr hd, rfl⟩
    · rintro (⟨del, hd | hd, he⟩ | ⟨data, hd | hd, rfl⟩)
      · exact .inl (.inl ⟨del, hd, he⟩)
      · exact .inr (.inl ⟨del, hd, he⟩)
      · exact .inl (.inr ⟨data, hd, rfl⟩)
      · exact .inr (.inr ⟨data, hd, rfl⟩)

lemma sortedEvents_brackets {partition : List LayerWithExtraInfo} (h : ∀ del ∈ deletesOf partition, WellBounded del) :
    Brackets ((eventsOf partition).insertionSort ScanEvent.le) ((deletesOf partition).map rangeOf) where
  sorted := List.pairwise_insertionSort _ _
  opens := by
    rw [← positions_opening_eventsOf]
    exact positions_perm (List.perm_insertionSort _ _)
  closes := by
    rw [← positions_closing_eventsOf]
    exact positions_perm (List.perm_insertionSort _ _)
  bounded := by
    intro i hi
    obtain ⟨del, hdel, rfl⟩ := List.mem_map.mp hi
    exact (h del hdel).range.2

/-! ### The scan -/

/-- One run of the scan from a prefix on: no check fires, and the boundaries it adds are crossed by no range. -/
lemma scanEvents_run {events : List Event} {intervals : List (Bytes × Bytes)} (hb : Brackets events intervals)
    {pre post : List Event} (hs : events = pre ++ post) {balance : Nat}
    (hbal : balance + (positions .closing pre).length = (positions .opening pre).length) (acc : List Bytes) :
    ∃ more, scanEvents post balance acc = .ok (acc ++ more) ∧
      (∀ b ∈ more, ∀ i ∈ intervals, ¬(i.1 < b ∧ b ≤ i.2)) ∧
      (balance = 0 → more.head? = post.head?.map ScanEvent.position) := by
  induction post generalizing pre balance acc with
  | nil =>
    have htotal := hb.balanced
    rw [hs, List.append_nil] at htotal
    have hzero : balance = 0 := by omega
    subst hzero
    exact ⟨[], by simp [scanEvents, ensure], by simp, fun _ => rfl⟩
  | cons e post ih =>
    have hs' : events = (pre ++ [e]) ++ post := by simp [hs]
    obtain ⟨acc', new, hacc, hnew, hhead⟩ : ∃ acc' new,
        (if balance = 0 then acc ++ [e.position] else acc) = acc' ∧ acc' = acc ++ new ∧
        new = if balance = 0 then [e.position] else [] := by
      by_cases h0 : balance = 0
      · exact ⟨_, [e.position], rfl, by simp [h0], by simp [h0]⟩
      · exact ⟨_, [], rfl, by simp [h0], by simp [h0]⟩
    have hcross : e.mark ≠ .closing → ∀ b ∈ new, ∀ i ∈ intervals, ¬(i.1 < b ∧ b ≤ i.2) := by
      intro he b hbn i hi
      rw [hhead] at hbn
      split_ifs at hbn with h0
      · rw [List.mem_singleton.mp hbn]
        exact hb.not_crossed hs he (by omega) hi
      · exact absurd hbn List.not_mem_nil
    have hnext : ∀ {balance' : Nat} (he : e.mark = .closing → new = []),
        balance' + (positions .closing (pre ++ [e])).length = (positions .opening (pre ++ [e])).length →
        ∃ more, scanEvents post balance' acc' = .ok (acc ++ more) ∧
          (∀ b ∈ more, ∀ i ∈ intervals, ¬(i.1 < b ∧ b ≤ i.2)) ∧
          (balance = 0 → more.head? = (e :: post).head?.map ScanEvent.position) := by
      intro balance' he hbal'
      obtain ⟨more, hrun, hmore, -⟩ := ih hs' hbal' acc'
      refine ⟨new ++ more, by rw [hrun, hnew, List.append_assoc], ?_, ?_⟩
      · intro b hbm
        rcases List.mem_append.mp hbm with hbm | hbm
        · by_cases hcl : e.mark = .closing
          · rw [he hcl] at hbm
            exact absurd hbm List.not_mem_nil
          · exact hcross hcl b hbm
        · exact hmore b hbm
      · intro h0
        rw [hhead, if_pos h0]
        rfl
    simp only [scanEvents, hacc]
    cases hm : e.mark with
    | opening =>
      refine hnext (by simp [hm]) ?_
      simp only [positions_append, positions_cons, hm, List.length_append, positions_nil, reduceCtorEq, if_false,
        if_true, List.length_cons, List.length_nil]
      omega
    | point =>
      refine hnext (by simp [hm]) ?_
      simp only [positions_append, positions_cons, hm, List.length_append, positions_nil, reduceCtorEq, if_false,
        List.length_nil]
      omega
    | closing =>
      have hpos : 0 < balance := by
        have := hb.closing_lt_opening hs hm
        omega
      have hens : ensure (decide (0 < balance)) "FindBucketLowerBounds: internal error" = .ok () := by
        simp [ensure, hpos]
      rw [hens, ok_bind]
      refine hnext (fun _ => by rw [hhead, if_neg (by omega)]) ?_
      simp only [positions_append, positions_cons, hm, List.length_append, positions_nil, reduceCtorEq, if_false,
        if_true, List.length_cons, List.length_nil]
      omega

/-- The boundaries of a partition with well-bounded deletes. -/
lemma findBucketLowerBounds_ok {partition : List LayerWithExtraInfo}
    (h : ∀ del ∈ deletesOf partition, WellBounded del) :
    ∃ bounds, findBucketLowerBounds partition = .ok bounds ∧
      (∀ b ∈ bounds, ∀ del ∈ deletesOf partition, ¬((rangeOf del).1 < b ∧ b ≤ (rangeOf del).2)) ∧
      (∀ e ∈ eventsOf partition, 0 < upperBound bounds e.position) := by
  have hb := sortedEvents_brackets h
  obtain ⟨bounds, hrun, hcross, hfirst⟩ := @scanEvents_run _ _ hb [] _ (List.nil_append _).symm 0 rfl []
  refine ⟨bounds, ?_, ?_, ?_⟩
  · rw [findBucketLowerBounds, getEventsInPartition_ok h, ok_bind, hrun, List.nil_append]
  · intro b hbb del hdel
    exact hcross b hbb _ (List.mem_map_of_mem hdel)
  · intro e he
    have hsorted := hb.sorted
    have hmem : e ∈ (eventsOf partition).insertionSort ScanEvent.le := (List.mem_insertionSort _).mpr he
    have hhead := hfirst rfl
    cases hl : (eventsOf partition).insertionSort ScanEvent.le with
    | nil => rw [hl] at hmem; exact absurd hmem List.not_mem_nil
    | cons e₀ rest =>
      rw [hl] at hmem hhead hsorted
      cases bounds with
      | nil => simp at hhead
      | cons b bs =>
        simp only [List.head?_cons, Option.map_some, Option.some.injEq] at hhead
        rw [hhead]
        apply upperBound_pos
        rcases List.mem_cons.mp hmem with rfl | hmem
        · exact le_rfl
        · exact ScanEvent.le_position ((List.pairwise_cons.mp hsorted).1 e hmem)

end IcebergCxx.Proofs

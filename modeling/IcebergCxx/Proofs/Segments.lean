import IcebergCxx.Representation

/-!
# Segments and the bytes they cover

Canonical segments are apart from each other and in order. `UniteSegments` makes segments canonical
and keeps the bytes they cover, and canonical segments that cover the same bytes are the same.
-/

namespace IcebergCxx.Proofs

open Lib

/-- The byte at a position is in the segment. -/
def Covers (s : Segment) (x : Int) : Prop := s.offset ≤ x ∧ (s.length = 0 ∨ x < s.offset + s.length)

/-- The bytes of the segments. -/
def cover (l : List Segment) : Set Int := {x | ∃ s ∈ l, Covers s x}

/-- Lengths are not negative. -/
def Proper (l : List Segment) : Prop := ∀ s ∈ l, 0 ≤ s.length

/-- Each segment ends before the next one starts, with a gap; only the last may have no end. -/
def Canonical : List Segment → Prop
  | [] => True
  | [s] => 0 ≤ s.length
  | a :: b :: l => 0 < a.length ∧ a.offset + a.length < b.offset ∧ Canonical (b :: l)

lemma mem_cover_cons {s : Segment} {l : List Segment} {x : Int} : x ∈ cover (s :: l) ↔ Covers s x ∨ x ∈ cover l := by
  simp [cover]

lemma Canonical.tail {s : Segment} {l : List Segment} (h : Canonical (s :: l)) : Canonical l := by
  cases l with
  | nil => trivial
  | cons b l => exact h.2.2

lemma Canonical.nonneg {s : Segment} {l : List Segment} (h : Canonical (s :: l)) : 0 ≤ s.length := by
  cases l with
  | nil => exact h
  | cons b l => exact h.1.le

/-- All later segments start after the end of the first one. -/
lemma Canonical.after {s : Segment} {l : List Segment} (h : Canonical (s :: l)) :
    ∀ t ∈ l, 0 < s.length ∧ s.offset + s.length < t.offset := by
  induction l generalizing s with
  | nil => simp
  | cons b l ih =>
    intro t ht
    obtain ⟨h1, h2, h3⟩ := h
    rcases List.mem_cons.mp ht with rfl | ht
    · exact ⟨h1, h2⟩
    · obtain ⟨h4, h5⟩ := ih h3 t ht
      exact ⟨h1, by omega⟩

lemma Canonical.proper {l : List Segment} (h : Canonical l) : Proper l := by
  induction l with
  | nil => simp [Proper]
  | cons s l ih =>
    intro t ht
    rcases List.mem_cons.mp ht with rfl | ht
    · exact h.nonneg
    · exact ih h.tail t ht

lemma covers_offset {s : Segment} (h : 0 ≤ s.length) : Covers s s.offset :=
  ⟨le_rfl, by omega⟩

/-! ### Uniting -/

/-- The loop unites the back segment with what follows. -/
lemma uniteFrom_spec {back : Segment} {l : List Segment} (hback : 0 ≤ back.length) (hl : Proper l)
    (hsorted : (back :: l).Pairwise (fun a b => a.offset ≤ b.offset)) :
    Canonical (uniteFrom back l) ∧ cover (uniteFrom back l) = cover (back :: l) ∧
      ∃ head rest, uniteFrom back l = head :: rest ∧ head.offset = back.offset := by
  induction l generalizing back with
  | nil => exact ⟨hback, rfl, back, [], rfl, rfl⟩
  | cons part l ih =>
    have hpart : 0 ≤ part.length := hl part List.mem_cons_self
    have hl' : Proper l := fun s hs => hl s (List.mem_cons_of_mem _ hs)
    rw [List.pairwise_cons] at hsorted
    obtain ⟨hfirst, hsorted⟩ := hsorted
    have hle := hfirst part List.mem_cons_self
    -- the back segment is replaced by one that covers both
    have hjoin : ∀ joined : Segment, 0 ≤ joined.length → joined.offset = back.offset →
        (∀ x, Covers joined x ↔ Covers back x ∨ Covers part x) →
        Canonical (uniteFrom joined l) ∧ cover (uniteFrom joined l) = cover (back :: part :: l) ∧
          ∃ head rest, uniteFrom joined l = head :: rest ∧ head.offset = back.offset := by
      intro joined hjoined hoffset hcovers
      have hpair : (joined :: l).Pairwise (fun a b => a.offset ≤ b.offset) := by
        rw [List.pairwise_cons]
        exact ⟨fun s hs => hoffset ▸ hfirst s (List.mem_cons_of_mem _ hs), (List.pairwise_cons.mp hsorted).2⟩
      obtain ⟨h1, h2, h3⟩ := ih hjoined hl' hpair
      refine ⟨h1, ?_, hoffset ▸ h3⟩
      rw [h2]
      ext x
      rw [mem_cover_cons, mem_cover_cons, mem_cover_cons, hcovers, or_assoc]
    rw [uniteFrom]
    split_ifs with hzero hreach hlen
    · refine ⟨hback, ?_, back, [], rfl, rfl⟩
      ext x
      rw [mem_cover_cons, mem_cover_cons]
      refine ⟨Or.imp_right (by simp [cover]), fun h => .inl ?_⟩
      rcases h with h | h
      · exact h
      · obtain ⟨s, hs, hx⟩ := h
        exact ⟨(hfirst s hs).trans hx.1, .inl hzero⟩
    · apply hjoin
      · change 0 ≤ max (back.offset + back.length) (part.offset + part.length) - back.offset
        omega
      · rfl
      · intro x
        unfold Covers
        dsimp only
        omega
    · apply hjoin
      · exact le_rfl
      · rfl
      · intro x
        unfold Covers
        dsimp only
        omega
    · obtain ⟨h1, h2, head, rest, h3, h4⟩ := ih hpart hl' hsorted
      refine ⟨?_, ?_, back, _, rfl, rfl⟩
      · rw [h3] at h1 ⊢
        exact ⟨by omega, by omega, h1⟩
      · ext x
        rw [mem_cover_cons, h2, mem_cover_cons, mem_cover_cons, mem_cover_cons]

/-- The result of `UniteSegments`. -/
def united : List Segment → List Segment
  | [] => []
  | back :: l => uniteFrom back l

lemma validateSegments_of_sorted {l : List Segment} (h : l.Pairwise (fun a b => a.offset ≤ b.offset)) :
    validateSegments l = true := by
  induction l with
  | nil => rfl
  | cons a l ih =>
    cases l with
    | nil => rfl
    | cons b l =>
      rw [List.pairwise_cons] at h
      have hab := h.1 b List.mem_cons_self
      rw [validateSegments, ih h.2]
      simpa using hab

lemma uniteSegments_of_sorted {l : List Segment} (h : l.Pairwise (fun a b => a.offset ≤ b.offset)) :
    uniteSegments l = .ok (united l) := by
  unfold uniteSegments
  rw [validateSegments_of_sorted h]
  cases l <;> rfl

lemma united_spec {l : List Segment} (hl : Proper l) (h : l.Pairwise (fun a b => a.offset ≤ b.offset)) :
    Canonical (united l) ∧ cover (united l) = cover l := by
  cases l with
  | nil => exact ⟨trivial, rfl⟩
  | cons back l =>
    obtain ⟨h1, h2, -⟩ := uniteFrom_spec (hl back List.mem_cons_self) (fun s hs => hl s (List.mem_cons_of_mem _ hs)) h
    exact ⟨h1, h2⟩

/-! ### Canonical segments are determined by their bytes -/

section
variable {a b : Segment} {l l' : List Segment}

lemma Canonical.offset_le (h : Canonical (a :: l)) {x : Int} (hx : x ∈ cover (a :: l)) : a.offset ≤ x := by
  rcases mem_cover_cons.mp hx with hx | ⟨s, hs, hx⟩
  · exact hx.1
  · have := h.after s hs
    have := hx.1
    omega

/-- The byte after the first segment is in none. -/
lemma Canonical.end_notMem (h : Canonical (a :: l)) (ha : 0 < a.length) : a.offset + a.length ∉ cover (a :: l) := by
  intro hx
  rcases mem_cover_cons.mp hx with hx | ⟨s, hs, hx⟩
  · have := hx.2
    omega
  · have := h.after s hs
    have := hx.1
    omega

lemma Canonical.head_eq (h : Canonical (a :: l)) (h' : Canonical (b :: l')) (hc : cover (a :: l) = cover (b :: l')) :
    a = b := by
  have ha := h.nonneg
  have hb := h'.nonneg
  have hoffset : a.offset = b.offset := by
    apply le_antisymm
    · apply h.offset_le
      rw [hc]
      exact mem_cover_cons.mpr (.inl (covers_offset hb))
    · apply h'.offset_le
      rw [← hc]
      exact mem_cover_cons.mpr (.inl (covers_offset ha))
  have hend : 0 < a.length → ¬Covers b (a.offset + a.length) := by
    intro hpos hcov
    apply h.end_notMem hpos
    rw [hc]
    exact mem_cover_cons.mpr (.inl hcov)
  have hend' : 0 < b.length → ¬Covers a (b.offset + b.length) := by
    intro hpos hcov
    apply h'.end_notMem hpos
    rw [← hc]
    exact mem_cover_cons.mpr (.inl hcov)
  have hlength : a.length = b.length := by
    unfold Covers at hend hend'
    omega
  cases a
  cases b
  simp only [Segment.mk.injEq]
  exact ⟨hoffset, hlength⟩

lemma Canonical.cover_tail (h : Canonical (a :: l)) : cover l = {x | x ∈ cover (a :: l) ∧ ¬Covers a x} := by
  ext x
  simp only [Set.mem_ofPred_eq, mem_cover_cons]
  refine ⟨fun hx => ⟨.inr hx, fun hcov => ?_⟩, fun hx => hx.1.resolve_left hx.2⟩
  obtain ⟨s, hs, hxs⟩ := hx
  have h1 := h.after s hs
  have h2 := hxs.1
  have h3 := hcov.2
  omega

theorem Canonical.eq_of_cover (h : Canonical l) (h' : Canonical l') (hc : cover l = cover l') : l = l' := by
  induction l generalizing l' with
  | nil =>
    cases l' with
    | nil => rfl
    | cons b l' =>
      exfalso
      have hb : b.offset ∈ cover ([] : List Segment) := by
        rw [hc]
        exact mem_cover_cons.mpr (.inl (covers_offset h'.nonneg))
      obtain ⟨s, hs, -⟩ := hb
      cases hs
  | cons a l ih =>
    cases l' with
    | nil =>
      exfalso
      have ha : a.offset ∈ cover ([] : List Segment) := by
        rw [← hc]
        exact mem_cover_cons.mpr (.inl (covers_offset h.nonneg))
      obtain ⟨s, hs, -⟩ := ha
      cases hs
    | cons b l' =>
      obtain rfl := h.head_eq h' hc
      rw [ih h.tail h'.tail]
      rw [h.cover_tail, h'.cover_tail, hc]

end

end IcebergCxx.Proofs

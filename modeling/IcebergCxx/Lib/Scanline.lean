import Mathlib

/-!
# Scanning a line with intervals

Intervals on a linear order open and close at events, points are marked by events of their
own. Scanning the events in order, the balance of open intervals never goes below zero, and
a position reached with balance zero is crossed by no interval.
-/

namespace IcebergCxx.Lib

inductive Mark
  | opening | point | closing
  deriving DecidableEq

/-- At equal positions intervals open before a point is seen and close after it. -/
def Mark.rank : Mark → Nat
  | .opening => 0
  | .point => 1
  | .closing => 2

structure ScanEvent (α : Type) where
  mark : Mark
  position : α
  deriving DecidableEq

variable {α : Type}

/-- The positions of the events with a mark. -/
def positions (m : Mark) (events : List (ScanEvent α)) : List α :=
  (events.filter (fun e => e.mark = m)).map ScanEvent.position

@[simp] lemma positions_nil (m : Mark) : positions m ([] : List (ScanEvent α)) = [] := rfl

@[simp] lemma positions_append (m : Mark) (l l' : List (ScanEvent α)) :
    positions m (l ++ l') = positions m l ++ positions m l' := by
  simp [positions]

lemma positions_cons (m : Mark) (e : ScanEvent α) (l : List (ScanEvent α)) :
    positions m (e :: l) = if e.mark = m then e.position :: positions m l else positions m l := by
  by_cases h : e.mark = m <;> simp [positions, h]

lemma positions_perm {m : Mark} {l l' : List (ScanEvent α)} (h : l.Perm l') :
    (positions m l).Perm (positions m l') :=
  (h.filter _).map _

lemma mem_positions {m : Mark} {l : List (ScanEvent α)} {x : α} :
    x ∈ positions m l ↔ ∃ e ∈ l, e.mark = m ∧ e.position = x := by
  simp [positions, and_assoc]

variable [LinearOrder α]

/-- Events are ordered by position, then by mark. -/
def ScanEvent.le (a b : ScanEvent α) : Prop :=
  a.position < b.position ∨ (a.position = b.position ∧ a.mark.rank ≤ b.mark.rank)

instance (a b : ScanEvent α) : Decidable (a.le b) := inferInstanceAs (Decidable (_ ∨ _))

instance : Std.Total (ScanEvent.le : ScanEvent α → ScanEvent α → Prop) := ⟨by
  intro a b
  rcases lt_trichotomy a.position b.position with h | h | h
  · exact .inl (.inl h)
  · rcases Nat.le_total a.mark.rank b.mark.rank with hr | hr
    · exact .inl (.inr ⟨h, hr⟩)
    · exact .inr (.inr ⟨h.symm, hr⟩)
  · exact .inr (.inl h)⟩

instance : IsTrans (ScanEvent α) ScanEvent.le := ⟨by
  rintro a b c (hab | ⟨hab, hr⟩) (hbc | ⟨hbc, hr'⟩)
  · exact .inl (hab.trans hbc)
  · exact .inl (hbc ▸ hab)
  · exact .inl (hab ▸ hbc)
  · exact .inr ⟨hab.trans hbc, hr.trans hr'⟩⟩

lemma ScanEvent.le_position {a b : ScanEvent α} (h : a.le b) : a.position ≤ b.position := by
  rcases h with h | h
  · exact h.le
  · exact h.1.le

/-- Sorted events whose opening and closing positions are those of a list of intervals. -/
structure Brackets (events : List (ScanEvent α)) (intervals : List (α × α)) : Prop where
  sorted : events.Pairwise ScanEvent.le
  opens : (positions .opening events).Perm (intervals.map Prod.fst)
  closes : (positions .closing events).Perm (intervals.map Prod.snd)
  bounded : ∀ i ∈ intervals, i.1 ≤ i.2

namespace Brackets

variable {events : List (ScanEvent α)} {intervals : List (α × α)}

/-- No interval is left open at the end. -/
lemma balanced (h : Brackets events intervals) :
    (positions .opening events).length = (positions .closing events).length := by
  rw [h.opens.length_eq, h.closes.length_eq, List.length_map, List.length_map]

lemma le_of_split (h : Brackets events intervals) {pre post : List (ScanEvent α)} {e : ScanEvent α}
    (hs : events = pre ++ e :: post) : (∀ x ∈ pre, x.le e) ∧ (∀ x ∈ post, e.le x) := by
  have hp := h.sorted
  rw [hs, List.pairwise_append, List.pairwise_cons] at hp
  exact ⟨fun x hx => hp.2.2 x hx e List.mem_cons_self, hp.2.1.1⟩

lemma countP_opens (h : Brackets events intervals) (q : α → Bool) :
    (positions .opening events).countP q = intervals.countP (fun i => q i.1) := by
  rw [h.opens.countP_eq, List.countP_map]
  rfl

lemma countP_closes (h : Brackets events intervals) (q : α → Bool) :
    (positions .closing events).countP q = intervals.countP (fun i => q i.2) := by
  rw [h.closes.countP_eq, List.countP_map]
  rfl

/-- An interval that closes has been opened. -/
lemma closing_lt_opening (h : Brackets events intervals) {pre post : List (ScanEvent α)} {e : ScanEvent α}
    (hs : events = pre ++ e :: post) (he : e.mark = .closing) :
    (positions .closing pre).length < (positions .opening pre).length := by
  obtain ⟨hpre, hpost⟩ := h.le_of_split hs
  have hopen := h.countP_opens (fun x => decide (x ≤ e.position))
  have hclose := h.countP_closes (fun x => decide (x ≤ e.position))
  rw [hs, positions_append, List.countP_append, positions_cons] at hopen hclose
  have hlate : (positions .opening post).countP (fun x => decide (x ≤ e.position)) = 0 := by
    rw [List.countP_eq_zero]
    intro x hx
    obtain ⟨ev, hev, hm, rfl⟩ := mem_positions.mp hx
    rcases hpost ev hev with hlt | ⟨-, hr⟩
    · simpa using hlt
    · rw [he, hm] at hr
      exact absurd hr (by decide)
  have hearly : (positions .closing pre).countP (fun x => decide (x ≤ e.position)) =
      (positions .closing pre).length := by
    rw [List.countP_eq_length]
    intro x hx
    obtain ⟨ev, hev, -, rfl⟩ := mem_positions.mp hx
    simpa using ScanEvent.le_position (hpre ev hev)
  have hmono : intervals.countP (fun i => decide (i.2 ≤ e.position)) ≤
      intervals.countP (fun i => decide (i.1 ≤ e.position)) := by
    refine List.countP_mono_left (fun i hi hle => ?_)
    simp only [decide_eq_true_eq] at hle ⊢
    exact (h.bounded i hi).trans hle
  have hle := List.countP_le_length (p := fun x => decide (x ≤ e.position)) (l := positions .opening pre)
  simp only [he, reduceCtorEq, if_false, hlate] at hopen
  simp only [he, if_true, List.countP_cons, le_refl, decide_true] at hclose
  omega

/-- A position reached with nothing open is crossed by no interval. -/
lemma not_crossed (h : Brackets events intervals) {pre post : List (ScanEvent α)} {e : ScanEvent α}
    (hs : events = pre ++ e :: post) (he : e.mark ≠ .closing)
    (hb : (positions .opening pre).length = (positions .closing pre).length)
    {i : α × α} (hi : i ∈ intervals) : ¬(i.1 < e.position ∧ e.position ≤ i.2) := by
  rintro ⟨hlo, hhi⟩
  obtain ⟨hpre, hpost⟩ := h.le_of_split hs
  have hopen := h.countP_opens (fun x => decide (x < e.position))
  have hclose := h.countP_closes (fun x => decide (x < e.position))
  rw [hs, positions_append, List.countP_append] at hopen hclose
  have hlate : (positions .opening (e :: post)).countP (fun x => decide (x < e.position)) = 0 := by
    rw [List.countP_eq_zero]
    intro x hx
    obtain ⟨ev, hev, -, rfl⟩ := mem_positions.mp hx
    rcases List.mem_cons.mp hev with rfl | hev
    · simp
    · simpa using ScanEvent.le_position (hpost ev hev)
  have hearly : (positions .closing pre).countP (fun x => decide (x < e.position)) =
      (positions .closing pre).length := by
    rw [List.countP_eq_length]
    intro x hx
    obtain ⟨ev, hev, hm, rfl⟩ := mem_positions.mp hx
    rcases hpre ev hev with hlt | ⟨-, hr⟩
    · simpa using hlt
    · rw [hm] at hr
      exact absurd hr (by cases hme : e.mark <;> simp_all [Mark.rank])
  have hle := List.countP_le_length (p := fun x => decide (x < e.position)) (l := positions .opening pre)
  have hcount : intervals.countP (fun i => decide (i.1 < e.position)) ≤
      intervals.countP (fun i => decide (i.2 < e.position)) := by omega
  have hsub : (intervals.filter (fun i => decide (i.2 < e.position))).Sublist
      (intervals.filter (fun i => decide (i.1 < e.position))) := by
    have hf : intervals.filter (fun i => decide (i.2 < e.position)) =
        (intervals.filter (fun i => decide (i.1 < e.position))).filter (fun i => decide (i.2 < e.position)) := by
      rw [List.filter_filter]
      refine List.filter_congr (fun j hj => ?_)
      by_cases hj2 : j.2 < e.position
      · simp [hj2, lt_of_le_of_lt (h.bounded j hj) hj2]
      · simp [hj2]
    rw [hf]
    exact List.filter_sublist
  have heq := hsub.eq_of_length_le (by rw [← List.countP_eq_length_filter, ← List.countP_eq_length_filter]; exact hcount)
  have hmem : i ∈ intervals.filter (fun i => decide (i.1 < e.position)) :=
    List.mem_filter.mpr ⟨hi, by simpa using hlo⟩
  rw [← heq] at hmem
  have hlt := (List.mem_filter.mp hmem).2
  simp only [decide_eq_true_eq] at hlt
  exact absurd hlt (not_lt.mpr hhi)

end Brackets

/-! ### Binary search in a sorted list -/

/-- `std::lower_bound`: the index of the first element not less than `x`. -/
def lowerBound (l : List α) (x : α) : Nat := (l.takeWhile (fun y => decide (y < x))).length

/-- `std::upper_bound`: the index of the first element greater than `x`. -/
def upperBound (l : List α) (x : α) : Nat := (l.takeWhile (fun y => decide (y ≤ x))).length

lemma takeWhile_congr {β : Type} {p q : β → Bool} {l : List β} (h : ∀ y ∈ l, p y = q y) :
    l.takeWhile p = l.takeWhile q := by
  induction l with
  | nil => rfl
  | cons y l ih =>
    rw [List.takeWhile_cons, List.takeWhile_cons, h y List.mem_cons_self,
      ih (fun z hz => h z (List.mem_cons_of_mem _ hz))]

/-- Two positions with no boundary between them have the same index. -/
lemma upperBound_eq {l : List α} {x y : α} (hxy : x ≤ y) (h : ∀ b ∈ l, ¬(x < b ∧ b ≤ y)) :
    upperBound l x = upperBound l y := by
  unfold upperBound
  congr 1
  apply takeWhile_congr
  intro b hb
  by_cases hx : b ≤ x
  · simp [hx, hx.trans hxy]
  · have hy : ¬b ≤ y := fun hy => h b hb ⟨not_le.mp hx, hy⟩
    simp [hx, hy]

lemma upperBound_pos {l : List α} {b x : α} (h : b ≤ x) : 0 < upperBound (b :: l) x := by
  simp [upperBound, h]

lemma upperBound_le_length (l : List α) (x : α) : upperBound l x ≤ l.length :=
  (List.takeWhile_sublist _).length_le

/-- An element of a sorted list in a range is between the two ends of the search. -/
lemma lowerBound_lt_upperBound {l : List α} (hl : l.Pairwise (· < ·)) {lo hi x : α} (hx : x ∈ l) (hlo : lo ≤ x)
    (hhi : x ≤ hi) : lowerBound l lo < upperBound l hi := by
  obtain ⟨a, b, rfl⟩ := List.append_of_mem hx
  have hle : ∀ y ∈ a, y ≤ hi := fun y hy =>
    ((List.pairwise_append.mp hl).2.2 y hy x List.mem_cons_self).le.trans hhi
  have hlow : lowerBound (a ++ x :: b) lo ≤ a.length := by
    unfold lowerBound
    rw [List.takeWhile_append]
    split_ifs
    · simp [not_lt.mpr hlo]
    · exact (List.takeWhile_sublist _).length_le
  have hup : a.length < upperBound (a ++ x :: b) hi := by
    unfold upperBound
    rw [List.takeWhile_append_of_pos (by simpa using hle)]
    simp [hhi]
  omega

end IcebergCxx.Lib

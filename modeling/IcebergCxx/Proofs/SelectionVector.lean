import IcebergCxx.PositionalDeleteApplier
import IcebergCxx.SelectionVector

/-!
# Selection vectors as sets of rows

The loops of `KeepIfEqual` and `DeleteIfEqual` do in place what a merge of the selected rows with the row
numbers does on lists. On ascending rows the merge is the intersection, or the difference.
-/

namespace IcebergCxx.Proofs

open Lib SelectionVector

section
variable {T α : Type} [LinearOrder α] {promote : T → α}

/-! ### The merges -/

/-- The selected rows that a merge meets in the sequence, or those that it does not. -/
def mergeRows (promote : T → α) (met : Bool) : List T → List α → List T
  | [], _ => []
  | index :: indices, rows =>
    match advance promote index rows with
    | [] => if met then [] else index :: indices
    | row :: rows =>
      if decide (row = promote index) = met then index :: mergeRows promote met indices (row :: rows)
      else mergeRows promote met indices (row :: rows)

/-- Passing over smaller rows loses none that can still be met. -/
lemma mem_advance {index : T} {rows : List α} {row : α} (h : promote index ≤ row) :
    row ∈ advance promote index rows ↔ row ∈ rows := by
  refine ⟨fun hrow => (List.dropWhile_sublist _).subset hrow, fun hrow => ?_⟩
  rw [← List.takeWhile_append_dropWhile (p := fun row => decide (row < promote index)) (l := rows),
    List.mem_append] at hrow
  rcases hrow with hrow | hrow
  · have hlt := List.mem_takeWhile_imp hrow
    exact absurd (of_decide_eq_true hlt) (not_lt.mpr h)
  · exact hrow

lemma le_of_advance {index : T} {rows rest : List α} {row : α} (h : advance promote index rows = row :: rest) :
    promote index ≤ row := by
  have hne : advance promote index rows ≠ [] := by simp [h]
  have hhead := List.head_dropWhile_not (fun row => decide (row < promote index)) hne
  simp only [decide_eq_false_iff_not, not_lt] at hhead
  refine hhead.trans_eq ?_
  exact Option.some.inj ((List.head?_eq_some_head hne).symm.trans (congrArg List.head? h))

/-- The row at which the iterator stops decides whether a row number is in the sequence. -/
lemma mem_iff_of_advance {index : T} {rows rest : List α} {row : α} (hrows : rows.Pairwise (· ≤ ·))
    (h : advance promote index rows = row :: rest) : promote index ∈ rows ↔ row = promote index := by
  have hsorted : (row :: rest).Pairwise (· ≤ ·) := h ▸ hrows.sublist (List.dropWhile_sublist _)
  rw [← mem_advance le_rfl, h, List.mem_cons]
  constructor
  · rintro (heq | hmem)
    · exact heq.symm
    · exact le_antisymm ((List.pairwise_cons.mp hsorted).1 _ hmem) (le_of_advance h)
  · exact fun heq => .inl heq.symm

/-- On ascending rows the merge is a filter. -/
lemma mergeRows_eq {met : Bool} {indices : List T} {rows : List α}
    (hindices : indices.Pairwise (fun i j => promote i < promote j)) (hrows : rows.Pairwise (· ≤ ·)) :
    mergeRows promote met indices rows = indices.filter (fun index => decide (promote index ∈ rows) = met) := by
  induction indices generalizing rows with
  | nil => rfl
  | cons index indices ih =>
    obtain ⟨hfirst, hindices⟩ := List.pairwise_cons.mp hindices
    have hrest : ∀ i ∈ index :: indices, promote i ∈ advance promote index rows ↔ promote i ∈ rows := by
      intro i hi
      rcases List.mem_cons.mp hi with rfl | hi
      · exact mem_advance le_rfl
      · exact mem_advance (hfirst i hi).le
    have hfilter : (index :: indices).filter (fun i => decide (promote i ∈ rows) = met) =
        (index :: indices).filter (fun i => decide (promote i ∈ advance promote index rows) = met) := by
      apply List.filter_congr
      intro i hi
      simp only [hrest i hi]
    rw [mergeRows, hfilter]
    split
    · rename_i hnil
      rw [hnil]
      cases met <;> simp
    · rename_i row rest hcons
      have hsorted : (row :: rest).Pairwise (· ≤ ·) := hcons ▸ hrows.sublist (List.dropWhile_sublist _)
      have hmem : promote index ∈ row :: rest ↔ row = promote index := by
        rw [← hcons, mem_advance le_rfl]
        exact mem_iff_of_advance hrows hcons
      rw [hcons, List.filter_cons, ih hindices hsorted]
      simp only [hmem, decide_eq_true_eq]

/-! ### The loops -/

/-- The loop ends with these results, in a vector that is as long as before. -/
def EndsWith (s : LoopState T α) (result : List T) (size : Nat) : Prop :=
  ∃ rest i, s.Holds result rest i ∧ i + rest.length = size

/-- A round of a merge: an index is kept if it is met, or if it is not, and without a row left the loop breaks. -/
structure MergesBy (promote : T → α) (met : Bool) (round : LoopState T α → Nat → LoopState T α ⊕ LoopState T α) :
    Prop where
  exhausted : ∀ {s kept index rest i}, s.Holds kept (index :: rest) i → advance promote index s.currentIter = [] →
    ∃ s', round s i = .inr s' ∧ EndsWith s' (kept ++ if met then [] else index :: rest) s.cells.length
  stopped : ∀ {s kept index rest i row rows}, s.Holds kept (index :: rest) i →
    advance promote index s.currentIter = row :: rows →
    ∃ s', round s i = .inl s' ∧ s'.currentIter = row :: rows ∧
      s'.Holds (if decide (row = promote index) = met then kept ++ [index] else kept) rest (i + 1)

lemma keepRound_mergesBy : MergesBy promote true (keepRound promote) where
  exhausted {s kept index rest i} h hnil := by
    refine ⟨{ s with currentIter := [] }, ?_, index :: rest, i, by simpa using h, h.length.symm⟩
    rw [keepRound, h.getElem?]
    simp only [hnil]
  stopped {s kept index rest i row rows} h hcons := by
    rw [keepRound, h.getElem?]
    simp only [hcons, decide_eq_true_eq]
    split_ifs
    · exact ⟨_, rfl, rfl, h.keep⟩
    · exact ⟨_, rfl, rfl, h.skip⟩

lemma deleteRound_mergesBy : MergesBy promote false (deleteRound promote) where
  exhausted {s kept index rest i} h hnil := by
    have hleft : s.cells.length - i = (index :: rest).length := by rw [h.length, Nat.add_sub_cancel_left]
    rw [deleteRound, h.getElem?]
    simp only [hnil, hleft]
    exact ⟨_, rfl, [], i + (index :: rest).length, by simpa using h.foldl_keep, h.length.symm⟩
  stopped {s kept index rest i row rows} h hcons := by
    rw [deleteRound, h.getElem?]
    simp only [hcons, decide_eq_false_iff_not]
    split_ifs
    · exact ⟨_, rfl, rfl, h.keep⟩
    · exact ⟨_, rfl, rfl, h.skip⟩

/-- The loop from any index on. -/
lemma MergesBy.forUntil {met : Bool} {round : LoopState T α → Nat → LoopState T α ⊕ LoopState T α}
    (hround : MergesBy promote met round) {s : LoopState T α} {kept rest : List T} {i : Nat} (h : s.Holds kept rest i) :
    EndsWith (forUntil round (List.range' i rest.length) s) (kept ++ mergeRows promote met rest s.currentIter)
      s.cells.length := by
  induction rest generalizing s kept i with
  | nil =>
    rw [mergeRows, List.append_nil]
    exact ⟨[], i, h, h.length.symm⟩
  | cons index rest ih =>
    rw [List.length_cons, List.range'_succ, mergeRows]
    cases hadv : advance promote index s.currentIter with
    | nil =>
      obtain ⟨s', hbreak, hend⟩ := hround.exhausted h hadv
      rw [forUntil_break _ hbreak]
      exact hend
    | cons row rows =>
      obtain ⟨s', hcontinue, hiter, h'⟩ := hround.stopped h hadv
      have hlen : s'.cells.length = s.cells.length := by
        rw [h.length, h'.length, List.length_cons]
        omega
      have hend := ih h'
      rw [hlen, hiter] at hend
      rw [forUntil_continue _ hcontinue]
      simp only
      split_ifs at hend ⊢
      · simpa using hend
      · exact hend

/-- The compaction leaves what the merge gives, and counts the indices that it does not give. -/
lemma MergesBy.compact {met : Bool} {round : LoopState T α → Nat → LoopState T α ⊕ LoopState T α}
    (hround : MergesBy promote met round) (sv : SelectionVector T) (rows : List α) :
    sv.compact round rows = (⟨mergeRows promote met sv.indices rows⟩,
      sv.indices.length - (mergeRows promote met sv.indices rows).length) := by
  obtain ⟨rest, i, h, hsize⟩ := hround.forUntil (s := { cells := sv.indices, resultIndex := 0, currentIter := rows })
    (Compacting.holds_init sv.indices)
  rw [← List.range_eq_range', List.nil_append] at h
  simp only [SelectionVector.compact]
  rw [h.take, h.length, hsize, h.resultIndex]

/-! ### The set operations -/

lemma length_sub_filter (p : T → Prop) [DecidablePred p] (indices : List T) :
    indices.length - (indices.filter (fun index => p index)).length = indices.countP (fun index => ¬p index) := by
  have hsplit := List.length_eq_countP_add_countP (fun index => decide (p index)) (l := indices)
  simp only [decide_eq_true_eq] at hsplit
  rw [← List.countP_eq_length_filter, hsplit, Nat.add_sub_cancel_left]

lemma keepIfEqual_eq {sv : SelectionVector T} {rows : List α}
    (hsv : sv.indices.Pairwise (fun i j => promote i < promote j)) (hrows : rows.Pairwise (· ≤ ·)) :
    sv.keepIfEqual promote rows = (⟨sv.indices.filter (fun index => promote index ∈ rows)⟩,
      sv.indices.countP (fun index => promote index ∉ rows)) := by
  rw [keepIfEqual, keepRound_mergesBy.compact, mergeRows_eq hsv hrows]
  simp only [decide_eq_true_eq, length_sub_filter]

lemma deleteIfEqual_eq_filter {sv : SelectionVector T} {rows : List α}
    (hsv : sv.indices.Pairwise (fun i j => promote i < promote j)) (hrows : rows.Pairwise (· ≤ ·)) :
    sv.deleteIfEqual promote rows = (⟨sv.indices.filter (fun index => promote index ∉ rows)⟩,
      sv.indices.countP (fun index => promote index ∈ rows)) := by
  rw [SelectionVector.deleteIfEqual, deleteRound_mergesBy.compact, mergeRows_eq hsv hrows]
  simp only [decide_eq_false_iff_not, length_sub_filter, not_not]

/-- On an ascending selection and ascending rows `KeepIfEqual` is the intersection and `DeleteIfEqual` the difference;
both say how many rows went, and deletions commute. -/
theorem selectionVector_setOperations (promote : T → α) (sv : SelectionVector T) (rows rows' : List α)
    (hsv : sv.indices.Pairwise (fun i j => promote i < promote j)) (hrows : rows.Pairwise (· ≤ ·))
    (hrows' : rows'.Pairwise (· ≤ ·)) :
    sv.deleteIfEqual promote rows = (⟨sv.indices.filter (fun index => promote index ∉ rows)⟩,
        sv.indices.countP (fun index => promote index ∈ rows)) ∧
      sv.keepIfEqual promote rows = (⟨sv.indices.filter (fun index => promote index ∈ rows)⟩,
        sv.indices.countP (fun index => promote index ∉ rows)) ∧
      ((sv.deleteIfEqual promote rows).1.deleteIfEqual promote rows').1 =
        ((sv.deleteIfEqual promote rows').1.deleteIfEqual promote rows).1 := by
  refine ⟨deleteIfEqual_eq_filter hsv hrows, keepIfEqual_eq hsv hrows, ?_⟩
  have htwice : ∀ {first second : List α}, first.Pairwise (· ≤ ·) → second.Pairwise (· ≤ ·) →
      ((sv.deleteIfEqual promote first).1.deleteIfEqual promote second).1 =
        ⟨sv.indices.filter (fun index => promote index ∉ first ∧ promote index ∉ second)⟩ := by
    intro first second hfirst hsecond
    rw [deleteIfEqual_eq_filter hsv hfirst, deleteIfEqual_eq_filter (hsv.sublist List.filter_sublist) hsecond]
    simp only [List.filter_filter, Bool.decide_and, Bool.and_comm]
  rw [htwice hrows hrows', htwice hrows' hrows]
  simp only [and_comm]

theorem fiveRows_merged :
    (⟨[0, 2, 3, 5, 8]⟩ : SelectionVector Nat).deleteIfEqual Int.ofNat [-1, 2, 2, 4, 5] = (⟨[0, 3, 8]⟩, 2) ∧
      (⟨[0, 2, 3, 5, 8]⟩ : SelectionVector Nat).keepIfEqual Int.ofNat [-1, 2, 2, 4, 5] = (⟨[2, 5]⟩, 3) := by
  have h := selectionVector_setOperations Int.ofNat ⟨[0, 2, 3, 5, 8]⟩ [-1, 2, 2, 4, 5] [0] (by decide) (by decide)
    (by decide)
  exact ⟨h.1, h.2.1⟩

end

/-- `PositionalDeleteApplier` and `DeletionVectorApplier` go through a selection in this way. -/
lemma deleteIfEqual_indices (rows : List Nat) (deleted : List Int) :
    ((⟨rows⟩ : SelectionVector Nat).deleteIfEqual Nat.cast deleted).1.indices =
      IcebergCxx.deleteIfEqual rows deleted := by
  rw [SelectionVector.deleteIfEqual, deleteRound_mergesBy.compact]
  simp only
  induction rows generalizing deleted with
  | nil => rfl
  | cons row rows ih =>
    rw [mergeRows, IcebergCxx.deleteIfEqual]
    unfold advance
    cases deleted.dropWhile (fun d => d < (row : Int)) with
    | nil => rfl
    | cons d rest =>
      simp only [decide_eq_false_iff_not, ite_not, ih]

end IcebergCxx.Proofs

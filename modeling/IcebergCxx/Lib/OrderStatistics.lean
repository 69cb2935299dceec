import Mathlib

/-!
# Elements of a sorted list by rank

The element at a rank is below a bound exactly if more elements than the rank are. The position of
the elements in the unsorted list does not matter.
-/

namespace IcebergCxx.Lib

variable {α : Type} [LinearOrder α] {bound : α}

lemma getElem_lt_iff_lt_countP {l : List α} (h : l.Pairwise (· ≤ ·)) {rank : Nat} (hrank : rank < l.length) :
    l[rank] < bound ↔ rank < l.countP (· < bound) := by
  induction l generalizing rank with
  | nil => exact absurd hrank (Nat.not_lt_zero rank)
  | cons x l ih =>
    obtain ⟨hfirst, hrest⟩ := List.pairwise_cons.mp h
    by_cases hx : x < bound
    · rw [List.countP_cons_of_pos (by simpa using hx)]
      cases rank with
      | zero => simpa using hx
      | succ rank =>
        rw [List.getElem_cons_succ, ih hrest (Nat.lt_of_succ_lt_succ hrank), Nat.succ_lt_succ_iff]
    · have hle : ∀ y ∈ x :: l, ¬y < bound := by
        intro y hy
        rcases List.mem_cons.mp hy with rfl | hy
        · exact hx
        · exact not_lt.mpr ((not_lt.mp hx).trans (hfirst y hy))
      have hnone : (x :: l).countP (· < bound) = 0 := List.countP_eq_zero.mpr (by simpa using hle)
      rw [hnone]
      exact iff_of_false (hle _ (List.getElem_mem hrank)) (Nat.not_lt_zero rank)

lemma getElem_insertionSort_lt_iff {l : List α} {rank : Nat} (hrank : rank < (l.insertionSort (· ≤ ·)).length) :
    (l.insertionSort (· ≤ ·))[rank] < bound ↔ rank < l.countP (· < bound) := by
  rw [getElem_lt_iff_lt_countP (List.pairwise_insertionSort _ l), (List.perm_insertionSort _ l).countP_eq]

end IcebergCxx.Lib

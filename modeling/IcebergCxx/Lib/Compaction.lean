import Mathlib

/-!
# Compaction in place

A loop goes over the cells of a vector and copies those it keeps to the front. Between the results
and the next cell to check lie cells whose contents no longer matter.
-/

namespace IcebergCxx.Lib

variable {T σ : Type}

/-- A `for` loop whose body goes on with `.inl` and breaks with `.inr`. -/
def forUntil (body : σ → Nat → σ ⊕ σ) : List Nat → σ → σ
  | [], s => s
  | i :: is, s =>
    match body s i with
    | .inl s' => forUntil body is s'
    | .inr s' => s'

lemma forUntil_continue {body : σ → Nat → σ ⊕ σ} {s s' : σ} {i : Nat} (is : List Nat) (h : body s i = .inl s') :
    forUntil body (i :: is) s = forUntil body is s' := by
  rw [forUntil, h]

lemma forUntil_break {body : σ → Nat → σ ⊕ σ} {s s' : σ} {i : Nat} (is : List Nat) (h : body s i = .inr s') :
    forUntil body (i :: is) s = s' := by
  rw [forUntil, h]

/-- The cells of a vector, and how many of them are results. -/
structure Compacting (T : Type) where
  cells : List T
  resultIndex : Nat

namespace Compacting

/-- `cells[resultIndex] = cells[i]; ++resultIndex`. -/
def keep (s : Compacting T) (i : Nat) : Compacting T where
  cells := s.cells[i]?.elim s.cells (s.cells.set s.resultIndex)
  resultIndex := s.resultIndex + 1

/-- The results are `kept`, and `rest` are the cells from `i` on. -/
def Holds (s : Compacting T) (kept rest : List T) (i : Nat) : Prop :=
  ∃ gap, s.cells = kept ++ gap ++ rest ∧ s.resultIndex = kept.length ∧ i = kept.length + gap.length

variable {s : Compacting T} {kept rest : List T} {x : T} {i : Nat}

lemma holds_init (cells : List T) : Holds ⟨cells, 0⟩ [] cells 0 := ⟨[], rfl, rfl, rfl⟩

lemma Holds.getElem? (h : Holds s kept (x :: rest) i) : s.cells[i]? = some x := by
  obtain ⟨gap, hcells, -, rfl⟩ := h
  rw [hcells, List.getElem?_append_right (by simp)]
  simp

lemma Holds.skip (h : Holds s kept (x :: rest) i) : Holds s kept rest (i + 1) := by
  obtain ⟨gap, hcells, hresult, rfl⟩ := h
  exact ⟨gap ++ [x], by simp [hcells], hresult, by simp [Nat.add_assoc]⟩

lemma Holds.keep (h : Holds s kept (x :: rest) i) : Holds (s.keep i) (kept ++ [x]) rest (i + 1) := by
  have hget := h.getElem?
  obtain ⟨gap, hcells, hresult, rfl⟩ := h
  have hset : (s.keep (kept.length + gap.length)).cells = (kept ++ gap ++ x :: rest).set kept.length x := by
    rw [Compacting.keep, hget, hcells, hresult]
    rfl
  have hindex : (s.keep (kept.length + gap.length)).resultIndex = (kept ++ [x]).length := by
    simp [Compacting.keep, hresult]
  -- the cell that is written is the first of the gap, or the cell itself when there is none
  cases gap with
  | nil =>
    refine ⟨[], ?_, hindex, by simp⟩
    rw [hset]
    simp
  | cons g gap =>
    refine ⟨gap ++ [x], ?_, hindex, ?_⟩
    · rw [hset, List.append_assoc, List.set_append_right _ _ le_rfl]
      simp
    · simp only [List.length_append, List.length_cons, List.length_nil]
      omega

/-- The loop that keeps all cells that are left. -/
lemma Holds.foldl_keep (h : Holds s kept rest i) :
    Holds ((List.range' i rest.length).foldl Compacting.keep s) (kept ++ rest) [] (i + rest.length) := by
  induction rest generalizing s kept i with
  | nil => simpa using h
  | cons x rest ih =>
    rw [List.length_cons, List.range'_succ, List.foldl_cons, ← Nat.add_assoc, Nat.add_right_comm]
    simpa using ih h.keep

lemma Holds.length (h : Holds s kept rest i) : s.cells.length = i + rest.length := by
  obtain ⟨gap, hcells, -, rfl⟩ := h
  simp [hcells, Nat.add_assoc]

/-- `cells.resize(resultIndex)`. -/
lemma Holds.take (h : Holds s kept rest i) : s.cells.take s.resultIndex = kept := by
  obtain ⟨gap, hcells, hresult, -⟩ := h
  rw [hcells, hresult, List.append_assoc, List.take_left]

lemma Holds.resultIndex (h : Holds s kept rest i) : s.resultIndex = kept.length := by
  obtain ⟨gap, -, hresult, -⟩ := h
  exact hresult

end Compacting

end IcebergCxx.Lib

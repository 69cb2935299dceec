import Mathlib

/-!
# Loops over a priority queue

A priority queue is only known by what it answers: `pop` gives an element with the least
key and leaves the others, in any order. `boundedWhile` runs a loop body until it answers a
result; the rule for it asks for an invariant and a measure that every round decreases.
-/

namespace IcebergCxx.Lib

/-- A priority queue that keeps its elements in a list of its own order. -/
structure MinQueue {α κ : Type} [LinearOrder κ] (key : α → κ) where
  push : List α → α → List α
  pop : List α → Option (α × List α)
  push_perm : ∀ q x, (push q x).Perm (x :: q)
  pop_none : ∀ {q}, pop q = none → q = []
  pop_perm : ∀ {q x q'}, pop q = some (x, q') → q.Perm (x :: q')
  pop_le : ∀ {q x q'}, pop q = some (x, q') → ∀ y ∈ q', key x ≤ key y

section
variable {α κ : Type} [LinearOrder κ] {key : α → κ}

/-- The first element with the least key, and the others in their order. -/
def popFirst (key : α → κ) : List α → Option (α × List α)
  | [] => none
  | x :: q =>
    match popFirst key q with
    | none => some (x, q)
    | some (y, q') => if key y < key x then some (y, x :: q') else some (x, q)

lemma popFirst_none {q : List α} (h : popFirst key q = none) : q = [] := by
  cases q with
  | nil => rfl
  | cons x q =>
    unfold popFirst at h
    cases hq : popFirst key q with
    | none => simp [hq] at h
    | some p =>
      simp only [hq] at h
      split_ifs at h

lemma popFirst_some {q : List α} {x : α} {q' : List α} (h : popFirst key q = some (x, q')) :
    q.Perm (x :: q') ∧ ∀ y ∈ q', key x ≤ key y := by
  induction q generalizing x q' with
  | nil => simp [popFirst] at h
  | cons a q ih =>
    unfold popFirst at h
    cases hq : popFirst key q with
    | none =>
      simp only [hq, Option.some.injEq, Prod.mk.injEq] at h
      obtain ⟨rfl, rfl⟩ := h
      rw [popFirst_none hq]
      simp
    | some p =>
      obtain ⟨b, r⟩ := p
      obtain ⟨hperm, hle⟩ := ih hq
      simp only [hq] at h
      split_ifs at h with hlt
      · obtain ⟨rfl, rfl⟩ : b = x ∧ a :: r = q' := by simpa using h
        refine ⟨(hperm.cons a).trans (List.Perm.swap _ _ _), ?_⟩
        intro y hy
        rcases List.mem_cons.mp hy with rfl | hy
        · exact hlt.le
        · exact hle y hy
      · obtain ⟨rfl, rfl⟩ : a = x ∧ q = q' := by simpa using h
        refine ⟨List.Perm.refl _, ?_⟩
        intro y hy
        rcases List.mem_cons.mp (hperm.mem_iff.mp hy) with rfl | hy
        · exact not_lt.mp hlt
        · exact (not_lt.mp hlt).trans (hle y hy)

/-- The queue that answers the oldest of the least elements. -/
def firstMin (key : α → κ) : MinQueue key where
  push q x := q ++ [x]
  pop := popFirst key
  push_perm q x := List.perm_append_singleton x q
  pop_none := popFirst_none
  pop_perm h := (popFirst_some h).1
  pop_le h := (popFirst_some h).2

lemma MinQueue.mem_push (Q : MinQueue key) {q : List α} {x y : α} : y ∈ Q.push q x ↔ y = x ∨ y ∈ q := by
  rw [(Q.push_perm q x).mem_iff, List.mem_cons]

lemma MinQueue.mem_of_pop (Q : MinQueue key) {q q' : List α} {x y : α} (h : Q.pop q = some (x, q')) :
    y ∈ q ↔ y = x ∨ y ∈ q' := by
  rw [(Q.pop_perm h).mem_iff, List.mem_cons]

end

section
variable {σ τ : Type}

/-- A loop whose body answers the next state or the result, run for at most `n` rounds. -/
def boundedWhile (body : σ → Except String (σ ⊕ τ)) : Nat → σ → Except String τ
  | 0, _ => .error "round limit"
  | n + 1, s =>
    match body s with
    | .error e => .error e
    | .ok (.inl s') => boundedWhile body n s'
    | .ok (.inr t) => .ok t

/-- The total correctness rule: a body that keeps the invariant, decreases the measure and
answers only good results makes the loop answer a good result. -/
theorem boundedWhile_total {body : σ → Except String (σ ⊕ τ)} {I : σ → Prop} {P : τ → Prop} {m : σ → Nat}
    (hbody : ∀ s, I s → (∃ s', body s = .ok (.inl s') ∧ I s' ∧ m s' < m s) ∨ ∃ t, body s = .ok (.inr t) ∧ P t)
    {n : Nat} {s : σ} (hs : I s) (hn : m s < n) : ∃ t, boundedWhile body n s = .ok t ∧ P t := by
  induction n generalizing s with
  | zero => omega
  | succ n ih =>
    rcases hbody s hs with ⟨s', h, hs', hm⟩ | ⟨t, h, ht⟩
    · simp only [boundedWhile, h]
      exact ih hs' (by omega)
    · exact ⟨t, by simp only [boundedWhile, h], ht⟩

end

end IcebergCxx.Lib

import Mathlib

/-!
# Runs of a step function

A step function takes a state and an action to the next state, or to none when the action cannot be
taken. A run is a fold over a list of actions; what every step keeps holds after every run, and
runs can be put together.
-/

namespace IcebergCxx.Lib

variable {σ α : Type} {step : σ → α → Option σ} {s s' s'' : σ}

/-- The invariant rule. -/
lemma foldlM_invariant {P : σ → Prop} {actions : List α} (h : P s)
    (hstep : ∀ s a s', P s → step s a = some s' → P s') (hrun : actions.foldlM step s = some s') : P s' := by
  induction actions generalizing s with
  | nil =>
    cases hrun
    exact h
  | cons a actions ih =>
    rw [List.foldlM_cons] at hrun
    obtain ⟨s₁, hs₁, hrun⟩ := Option.bind_eq_some_iff.mp hrun
    exact ih (hstep s a s₁ h hs₁) hrun

/-- Some run leads from one state to another. -/
def Leads (step : σ → α → Option σ) (s s' : σ) : Prop := ∃ actions : List α, actions.foldlM step s = some s'

lemma Leads.refl (s : σ) : Leads step s s := ⟨[], rfl⟩

lemma Leads.one {a : α} (h : step s a = some s') : Leads step s s' := by
  refine ⟨[a], ?_⟩
  rw [List.foldlM_cons, h]
  rfl

lemma Leads.trans (h : Leads step s s') (h' : Leads step s' s'') : Leads step s s'' := by
  obtain ⟨actions, hrun⟩ := h
  obtain ⟨actions', hrun'⟩ := h'
  refine ⟨actions ++ actions', ?_⟩
  rw [List.foldlM_append, hrun]
  exact hrun'

/-- What holds at every element of a fold holds at the first one, and at the others from where it leads. -/
lemma forall_split_cons_iff {f : σ → α → σ} {P : σ → α → Prop} {a : α} {actions : List α} :
    (∀ before a' after, a :: actions = before ++ a' :: after → P (before.foldl f s) a') ↔
      P s a ∧ ∀ before a' after, actions = before ++ a' :: after → P (before.foldl f (f s a)) a' := by
  constructor
  · intro h
    refine ⟨h [] a actions rfl, fun before a' after heq => ?_⟩
    exact h (a :: before) a' after (by rw [heq, List.cons_append])
  · rintro ⟨hfirst, hrest⟩ before a' after heq
    cases before with
    | nil =>
      obtain ⟨rfl, -⟩ := List.cons.inj heq
      exact hfirst
    | cons b before =>
      rw [List.cons_append] at heq
      obtain ⟨rfl, htail⟩ := List.cons.inj heq
      exact hrest before a' after htail

end IcebergCxx.Lib

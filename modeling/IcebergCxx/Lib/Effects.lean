import Mathlib

/-!
# Computations with a state and failures

How a computation of `EStateM` ends on a state: a postcondition for what it returns and one for its failures, both over
the state that is left.
-/

namespace IcebergCxx.Lib

variable {ε σ α β : Type}

/-- The computation ends in a result and a state that `Q` allows, or in a failure and a state that `E` allows. -/
def Ends (x : EStateM ε σ α) (s : σ) (Q : α → σ → Prop) (E : ε → σ → Prop) : Prop :=
  match x s with
  | .ok a s' => Q a s'
  | .error e s' => E e s'

variable {x : EStateM ε σ α} {f : α → EStateM ε σ β} {s s' : σ} {Q Q' : α → σ → Prop} {R : β → σ → Prop}
  {E E' : ε → σ → Prop}

lemma bind_apply_ok {a : α} (h : x s = .ok a s') : (x >>= f) s = f a s' := by
  change EStateM.bind x f s = _
  rw [EStateM.bind, h]

lemma bind_apply_error {e : ε} (h : x s = .error e s') : (x >>= f) s = .error e s' := by
  change EStateM.bind x f s = _
  rw [EStateM.bind, h]

lemma Ends.of_ok {a : α} (h : x s = .ok a s') (hQ : Q a s') : Ends x s Q E := by
  rwa [Ends, h]

lemma Ends.of_error {e : ε} (h : x s = .error e s') (hE : E e s') : Ends x s Q E := by
  rwa [Ends, h]

lemma Ends.ok (h : Ends x s Q E) {a : α} (hx : x s = .ok a s') : Q a s' := by
  rwa [Ends, hx] at h

lemma Ends.error (h : Ends x s Q E) {e : ε} (hx : x s = .error e s') : E e s' := by
  rwa [Ends, hx] at h

lemma ends_pure {a : α} (h : Q a s) : Ends (pure a) s Q E := h

lemma ends_modify {g : σ → σ} {Q : Unit → σ → Prop} (h : Q () (g s)) : Ends (modify g : EStateM ε σ PUnit) s Q E := h

/-- The sequencing rule. -/
lemma Ends.bind (hx : Ends x s Q E) (hf : ∀ a s', Q a s' → Ends (f a) s' R E) : Ends (x >>= f) s R E := by
  cases h : x s with
  | ok a s' =>
    rw [Ends, bind_apply_ok h]
    exact hf a s' (hx.ok h)
  | error e s' => exact Ends.of_error (bind_apply_error h) (hx.error h)

/-- The rule of consequence. -/
lemma Ends.mono (hx : Ends x s Q E) (hQ : ∀ a s', Q a s' → Q' a s') (hE : ∀ e s', E e s' → E' e s') :
    Ends x s Q' E' := by
  cases h : x s with
  | ok a s' => exact Ends.of_ok h (hQ a s' (hx.ok h))
  | error e s' => exact Ends.of_error h (hE e s' (hx.error h))

end IcebergCxx.Lib

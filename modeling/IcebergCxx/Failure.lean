import IcebergCxx.Basic

/-!
# Calls without a defined behaviour

Some calls of the source are undefined on inputs that nothing has checked: an accessor of the wrong
kind of value, the content of an empty `std::optional`. Where that matters, a call that does not
return either throws or is undefined.
-/

namespace IcebergCxx

inductive Failure
  | thrown (message : String)
  | undefined
  deriving DecidableEq

/-- A call that can only throw. -/
def throwing {α : Type} : Except String α → Except Failure α
  | .ok a => .ok a
  | .error message => .error (.thrown message)

/-- `Ensure`, in code that can also be undefined. -/
def require (condition : Bool) (message : String) : Except Failure Unit := throwing (ensure condition message)

/-- The call throws. -/
def Throws {α : Type} (x : Except Failure α) : Prop := ∃ message, x = .error (.thrown message)

@[simp] lemma throwing_ok {α : Type} (a : α) : throwing (.ok a : Except String α) = .ok a := rfl

@[simp] lemma throwing_error {α : Type} (message : String) :
    throwing (.error message : Except String α) = .error (.thrown message) := rfl

lemma throwing_ne_undefined {α : Type} (x : Except String α) : throwing x ≠ .error .undefined := by
  cases x with
  | ok a => simp
  | error message => simp

/-- Where a sequence of two steps is undefined, one of them is. -/
lemma bind_eq_undefined_iff {α β : Type} {x : Except Failure α} {f : α → Except Failure β} :
    (x >>= f) = .error .undefined ↔ x = .error .undefined ∨ ∃ a, x = .ok a ∧ f a = .error .undefined := by
  cases x with
  | ok a => simp [bind, Except.bind]
  | error e => simp [bind, Except.bind]

/-- Where a sequence of two steps succeeds, both do. -/
lemma bind_eq_ok_iff {α β : Type} {x : Except Failure α} {f : α → Except Failure β} {b : β} :
    (x >>= f) = .ok b ↔ ∃ a, x = .ok a ∧ f a = .ok b := by
  cases x with
  | ok a => simp [bind, Except.bind]
  | error e => simp [bind, Except.bind]

/-- A pass over a list is undefined at its first element that is. -/
lemma mapM_eq_undefined_iff {α β : Type} {f : α → Except Failure β} {elements : List α} :
    elements.mapM f = .error .undefined ↔
      ∃ before value after, elements = before ++ value :: after ∧ (∀ w ∈ before, ∃ a, f w = .ok a) ∧
        f value = .error .undefined := by
  induction elements with
  | nil => simp [pure, Except.pure]
  | cons e elements ih =>
    rw [List.mapM_cons, bind_eq_undefined_iff]
    constructor
    · rintro (he | ⟨a, ha, h⟩)
      · exact ⟨[], e, elements, rfl, by simp, he⟩
      · rcases bind_eq_undefined_iff.mp h with h | ⟨rest, -, h⟩
        · obtain ⟨before, value, after, rfl, hbefore, hvalue⟩ := ih.mp h
          refine ⟨e :: before, value, after, rfl, ?_, hvalue⟩
          intro w hw
          rcases List.mem_cons.mp hw with rfl | hw
          · exact ⟨a, ha⟩
          · exact hbefore w hw
        · cases h
    · rintro ⟨before, value, after, heq, hbefore, hvalue⟩
      cases before with
      | nil =>
        simp only [List.nil_append, List.cons.injEq] at heq
        rw [heq.1]
        exact .inl hvalue
      | cons e' before =>
        simp only [List.cons_append, List.cons.injEq] at heq
        obtain ⟨rfl, rfl⟩ := heq
        obtain ⟨a, ha⟩ := hbefore e List.mem_cons_self
        refine .inr ⟨a, ha, bind_eq_undefined_iff.mpr (.inl (ih.mpr ?_))⟩
        exact ⟨before, value, after, rfl, fun w hw => hbefore w (List.mem_cons_of_mem _ hw), hvalue⟩

/-- A call that is defined returns or throws. -/
lemma ok_or_throws {α : Type} {x : Except Failure α} (h : x ≠ .error .undefined) : (∃ a, x = .ok a) ∨ Throws x := by
  cases x with
  | ok a => exact .inl ⟨a, rfl⟩
  | error e =>
    cases e with
    | thrown message => exact .inr ⟨message, rfl⟩
    | undefined => exact absurd rfl h

end IcebergCxx

import IcebergCxx.Lib.OrdMap
import IcebergCxx.Lib.Bytes

/-!
# Machine integers and failures

`std::string` is `Bytes`, whose order is that of `std::string::operator<`. A C++ function
that throws, or returns a failed `arrow::Status`, is a function into `Except String`.
-/

namespace IcebergCxx

open Lib

def int64Min : Int := -2 ^ 63

def int64Max : Int := 2 ^ 63 - 1

def InInt64 (x : Int) : Prop := int64Min ≤ x ∧ x ≤ int64Max

instance (x : Int) : Decidable (InInt64 x) := inferInstanceAs (Decidable (_ ∧ _))

/-- The value a 64-bit register holds after an operation with exact result `x`. -/
def wrapInt64 (x : Int) : Int := Int.bmod x (2 ^ 64)

/-- The value a 32-bit register holds after an operation with exact result `x`. -/
def wrapInt32 (x : Int) : Int := Int.bmod x (2 ^ 32)

lemma wrapInt64_of_inInt64 {x : Int} (h : InInt64 x) : wrapInt64 x = x := by
  obtain ⟨h1, h2⟩ := h
  simp only [int64Min, int64Max] at h1 h2
  unfold wrapInt64
  rw [Int.bmod_eq_of_le] <;> omega

lemma wrapInt32_spec (x : Int) : ∃ k, wrapInt32 x = x - 4294967296 * k ∧ -2147483648 ≤ wrapInt32 x ∧
    wrapInt32 x ≤ 2147483647 := by
  have hpow : ((2 ^ 32 : Nat) : Int) = 4294967296 := by norm_num
  rw [wrapInt32, Int.bmod_def, hpow]
  split_ifs
  · exact ⟨x / 4294967296, by omega⟩
  · exact ⟨x / 4294967296 + 1, by omega⟩

/-- `Ensure` of the common library: throws unless the condition holds. -/
def ensure (condition : Bool) (message : String) : Except String Unit :=
  if condition then .ok () else .error message

lemma ensure_ok {c : Bool} {m : String} {u : Unit} (h : ensure c m = .ok u) : c = true := by
  unfold ensure at h
  split_ifs at h with hc
  exact hc

lemma ensure_true (m : String) : ensure true m = .ok () := rfl

/-- A successful sequence of two steps has a successful first step. -/
lemma bind_ok {ε α β : Type} {x : Except ε α} {f : α → Except ε β} {b : β}
    (h : (x >>= f) = .ok b) : ∃ a, x = .ok a ∧ f a = .ok b := by
  cases x with
  | error e => exact absurd h (by simp [bind, Except.bind])
  | ok a => exact ⟨a, rfl, h⟩

@[simp] lemma ok_bind {ε α β : Type} (a : α) (f : α → Except ε β) :
    ((Except.ok a : Except ε α) >>= f) = f a := rfl

@[simp] lemma error_bind {ε α β : Type} (e : ε) (f : α → Except ε β) :
    ((Except.error e : Except ε α) >>= f) = .error e := rfl

/-- A loop whose body never fails. -/
lemma foldlM_ok {σ α : Type} {f : σ → α → Except String σ} {g : σ → α → σ} {l : List α}
    (h : ∀ a ∈ l, ∀ s, f s a = .ok (g s a)) (s : σ) : l.foldlM f s = .ok (l.foldl g s) := by
  induction l generalizing s with
  | nil => rfl
  | cons a l ih =>
    rw [List.foldlM_cons, h a List.mem_cons_self, ok_bind, List.foldl_cons]
    exact ih (fun b hb => h b (List.mem_cons_of_mem _ hb)) _

/-- A successful loop, when every successful step is known. -/
lemma foldlM_ok_inv {σ α : Type} {f : σ → α → Except String σ} {g : σ → α → σ} {P : α → Prop} {l : List α}
    (h : ∀ a ∈ l, ∀ s s', f s a = .ok s' → P a ∧ s' = g s a) {s s' : σ} (hs : l.foldlM f s = .ok s') :
    (∀ a ∈ l, P a) ∧ s' = l.foldl g s := by
  induction l generalizing s with
  | nil => cases hs; exact ⟨fun a ha => absurd ha List.not_mem_nil, rfl⟩
  | cons a l ih =>
    rw [List.foldlM_cons] at hs
    obtain ⟨s₁, h1, hs⟩ := bind_ok hs
    obtain ⟨hP, rfl⟩ := h a List.mem_cons_self s s₁ h1
    obtain ⟨hl, rfl⟩ := ih (fun b hb => h b (List.mem_cons_of_mem _ hb)) hs
    refine ⟨fun b hb => ?_, rfl⟩
    rcases List.mem_cons.mp hb with rfl | hb
    · exact hP
    · exact hl b hb

/-- A successful pass over a list is a successful call on every element. -/
lemma mapM_ok_iff {ε α β : Type} {f : α → Except ε β} {l : List α} {l' : List β} :
    l.mapM f = .ok l' ↔ List.Forall₂ (fun a b => f a = .ok b) l l' := by
  induction l generalizing l' with
  | nil =>
    simp only [List.mapM_nil, List.forall₂_nil_left_iff]
    exact ⟨fun h => by cases h; rfl, fun h => by rw [h]; rfl⟩
  | cons a l ih =>
    rw [List.mapM_cons]
    constructor
    · intro h
      obtain ⟨b, hb, h⟩ := bind_ok h
      obtain ⟨bs, hbs, h⟩ := bind_ok h
      cases h
      exact .cons hb (ih.mp hbs)
    · intro h
      cases h with
      | cons hb hbs => rw [hb, ok_bind, ih.mpr hbs]; rfl

/-- `std::sort` by descending key: the order of equal keys is not specified. -/
structure DescendingSort {α : Type} (key : α → Nat) where
  sort : List α → List α
  perm : ∀ l, (sort l).Perm l
  sorted : ∀ l, (sort l).Pairwise (fun a b => key b ≤ key a)

end IcebergCxx

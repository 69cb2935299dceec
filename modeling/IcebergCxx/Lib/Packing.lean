import IcebergCxx.Lib.Bytes

/-!
# Bit masks and packed fields

A row of fixed-width fields is packed into one number, least significant field first, and a
set of indices into a bit mask. Both can be read back.
-/

namespace IcebergCxx.Lib

/-- The number whose bits at the chosen indices are set. -/
def bitmask (ids : List Nat) (p : Nat → Bool) : Nat :=
  ids.foldl (fun mask id => if p id then mask ||| (1 <<< id) else mask) 0

lemma testBit_foldl_mask (ids : List Nat) (p : Nat → Bool) (mask j : Nat) :
    (ids.foldl (fun mask id => if p id then mask ||| (1 <<< id) else mask) mask).testBit j =
      (mask.testBit j || decide (j ∈ ids ∧ p j = true)) := by
  induction ids generalizing mask with
  | nil => simp
  | cons id ids ih =>
    rw [List.foldl_cons, ih]
    have hone : (1 <<< id).testBit j = decide (id = j) := by
      rw [Nat.one_shiftLeft, Nat.testBit_two_pow]
    by_cases hj : id = j
    · subst hj
      by_cases hp : p id
      · simp [hp, hone]
      · simp [hp]
    · have hj' : j ≠ id := Ne.symm hj
      by_cases hp : p id
      · simp [hp, hone, hj, hj', Nat.testBit_or]
      · simp [hp, hj']

lemma testBit_bitmask (ids : List Nat) (p : Nat → Bool) (j : Nat) :
    (bitmask ids p).testBit j = decide (j ∈ ids ∧ p j = true) := by
  rw [bitmask, testBit_foldl_mask]
  simp

lemma bitmask_lt {ids : List Nat} {p : Nat → Bool} {n : Nat} (h : ∀ id ∈ ids, id < n) : bitmask ids p < 2 ^ n := by
  apply Nat.lt_pow_two_of_testBit
  intro j hj
  rw [testBit_bitmask, decide_eq_false_iff_not]
  rintro ⟨hmem, -⟩
  have := h j hmem
  omega

/-- A mask tells which of its indices were chosen. -/
lemma bitmask_eq_iff {ids : List Nat} {p q : Nat → Bool} : bitmask ids p = bitmask ids q ↔ ∀ id ∈ ids, p id = q id := by
  constructor
  · intro h id hid
    have hbit := congrArg (fun m => Nat.testBit m id) h
    simp only [testBit_bitmask, hid, true_and] at hbit
    cases hp : p id <;> cases hq : q id <;> simp_all
  · intro h
    apply Nat.eq_of_testBit_eq
    intro j
    rw [testBit_bitmask, testBit_bitmask, decide_eq_decide]
    constructor
    · rintro ⟨hj, hp⟩
      exact ⟨hj, h j hj ▸ hp⟩
    · rintro ⟨hj, hq⟩
      exact ⟨hj, (h j hj).symm ▸ hq⟩

lemma bitmask_eq_zero {ids : List Nat} {p : Nat → Bool} : bitmask ids p = 0 ↔ ∀ id ∈ ids, p id = false := by
  have hzero : bitmask ids (fun _ => false) = 0 := by
    simp [bitmask]
  rw [← hzero, bitmask_eq_iff]

/-- The number with the given little-endian bytes. -/
def ofLeBytes (b : Bytes) : Nat := Nat.ofDigits 256 (b.map Fin.val)

lemma ofLeBytes_lt (b : Bytes) : ofLeBytes b < 256 ^ b.length := by
  have h := Nat.ofDigits_lt_base_pow_length' (b := 254) (l := b.map Fin.val) (by
    intro d hd
    obtain ⟨x, -, rfl⟩ := List.mem_map.mp hd
    exact x.isLt)
  simpa [ofLeBytes] using h

lemma ofLeBytes_lt_two_pow (b : Bytes) : ofLeBytes b < 2 ^ (8 * b.length) := by
  rw [pow_mul]
  exact ofLeBytes_lt b

lemma ofLeBytes_append (a b : Bytes) : ofLeBytes (a ++ b) = ofLeBytes a + 256 ^ a.length * ofLeBytes b := by
  simp [ofLeBytes, Nat.ofDigits_append]

lemma ofLeBytes_leBytes (n v : Nat) : ofLeBytes (leBytes n v) = v % 256 ^ n := by
  induction n generalizing v with
  | zero => simp [leBytes, ofLeBytes, Nat.mod_one]
  | succ n ih =>
    have h := ofLeBytes_append [Fin.ofNat 256 v] (leBytes n (v / 256))
    have hone : ofLeBytes [Fin.ofNat 256 v] = v % 256 := by simp [ofLeBytes]
    rw [List.singleton_append, ih, hone] at h
    rw [leBytes, h, List.length_singleton, pow_one, pow_succ, mul_comm (256 ^ n), Nat.mod_mul]

lemma ofLeBytes_inj {a b : Bytes} (hlen : a.length = b.length) (h : ofLeBytes a = ofLeBytes b) : a = b := by
  have hmap : a.map Fin.val = b.map Fin.val := by
    apply Nat.ofDigits_inj_of_len_eq (b := 256) (by norm_num) (by simpa using hlen)
    · intro d hd
      obtain ⟨x, -, rfl⟩ := List.mem_map.mp hd
      exact x.isLt
    · intro d hd
      obtain ⟨x, -, rfl⟩ := List.mem_map.mp hd
      exact x.isLt
    · exact h
  exact List.map_injective_iff.mpr Fin.val_injective hmap

/-- Fields of equal widths are told apart in their concatenation. -/
lemma flatMap_inj {ι : Type} {ids : List ι} {f g : ι → Bytes} (hlen : ∀ id ∈ ids, (f id).length = (g id).length)
    (h : ids.flatMap f = ids.flatMap g) : ∀ id ∈ ids, f id = g id := by
  induction ids with
  | nil => exact fun id hid => absurd hid List.not_mem_nil
  | cons i ids ih =>
    rw [List.flatMap_cons, List.flatMap_cons] at h
    obtain ⟨h1, h2⟩ := List.append_inj h (hlen i List.mem_cons_self)
    intro id hid
    rcases List.mem_cons.mp hid with rfl | hid
    · exact h1
    · exact ih (fun j hj => hlen j (List.mem_cons_of_mem _ hj)) h2 id hid

end IcebergCxx.Lib

import Mathlib

/-!
# Byte strings and decimal numerals

Byte strings are lists of bytes ordered lexicographically. `toDecimal` is the usual decimal
numeral and `leBytes` the little-endian representation of a machine integer.
-/

namespace IcebergCxx.Lib

abbrev Byte := Fin 256

instance instNeZeroByteCount : NeZero (256 : Nat) := ⟨by norm_num⟩

abbrev Bytes := List Byte

instance instLawfulBEqByte : LawfulBEq Byte := inferInstance

instance instLawfulBEqBytes : LawfulBEq Bytes := inferInstance

/-- The bytes of a text. -/
def bytes (s : String) : Bytes := s.toList.map (fun c => Fin.ofNat 256 c.toNat)

/-- A byte string shown inside a message. -/
def text (b : Bytes) : String := String.ofList (b.map (fun c => Char.ofNat c.val))

/-- The decimal numeral of a natural number. -/
def toDecimal (n : Nat) : Bytes :=
  if n = 0 then [48] else (Nat.digits 10 n).reverse.map (fun d => Fin.ofNat 256 (48 + d))

/-- The decimal numeral of an integer. -/
def toDecimalInt : Int → Bytes
  | .ofNat n => toDecimal n
  | .negSucc n => 45 :: toDecimal (n + 1)

/-- The `n` low bytes of a number, least significant first. -/
def leBytes : Nat → Nat → Bytes
  | 0, _ => []
  | n + 1, v => Fin.ofNat 256 v :: leBytes n (v / 256)

@[simp] lemma length_leBytes (n v : Nat) : (leBytes n v).length = n := by
  induction n generalizing v with
  | zero => rfl
  | succ n ih => simp [leBytes, ih]

lemma leBytes_inj {n v w : Nat} (hv : v < 256 ^ n) (hw : w < 256 ^ n)
    (h : leBytes n v = leBytes n w) : v = w := by
  induction n generalizing v w with
  | zero => simp at hv hw; omega
  | succ n ih =>
    simp only [leBytes, List.cons.injEq] at h
    obtain ⟨hb, ht⟩ := h
    have hmod : v % 256 = w % 256 := by simpa [Fin.ext_iff, Fin.ofNat] using hb
    have hdiv : v / 256 = w / 256 := by
      apply ih _ _ ht
      · rw [pow_succ] at hv; exact Nat.div_lt_of_lt_mul (by linarith)
      · rw [pow_succ] at hw; exact Nat.div_lt_of_lt_mul (by linarith)
    omega

/-! ### Decimal numerals -/

lemma digitByte_val {d : Nat} (h : d < 10) : (Fin.ofNat 256 (48 + d)).val = 48 + d := by
  simp only [Fin.ofNat]
  omega

lemma isDigit_of_mem_toDecimal {n : Nat} {b : Byte} (h : b ∈ toDecimal n) : b.val ≤ 57 := by
  unfold toDecimal at h
  split_ifs at h with hn
  · rw [List.mem_singleton.mp h]; decide
  · obtain ⟨d, hd, rfl⟩ := List.mem_map.mp h
    have hlt := Nat.digits_lt_base (by norm_num) (List.mem_reverse.mp hd)
    rw [digitByte_val hlt]
    omega

lemma toDecimal_ne_nil (n : Nat) : toDecimal n ≠ [] := by
  unfold toDecimal
  split_ifs with hn
  · simp
  · simpa using Nat.digits_ne_nil_iff_ne_zero.mpr hn

lemma length_toDecimal_pos (n : Nat) : 0 < (toDecimal n).length :=
  List.length_pos_iff.mpr (toDecimal_ne_nil n)

lemma length_toDecimal_of_ne_zero {n : Nat} (hn : n ≠ 0) : (toDecimal n).length = Nat.log 10 n + 1 := by
  simp [toDecimal, hn, Nat.length_digits 10 n (by norm_num) hn]

lemma length_toDecimal_eq {n k : Nat} (h1 : 10 ^ k ≤ n) (h2 : n < 10 ^ (k + 1)) :
    (toDecimal n).length = k + 1 := by
  have hn : n ≠ 0 := by
    have : 0 < 10 ^ k := by positivity
    omega
  rw [length_toDecimal_of_ne_zero hn, Nat.log_eq_of_pow_le_of_lt_pow h1 h2]

lemma length_toDecimal_mono {n m : Nat} (h : n ≤ m) : (toDecimal n).length ≤ (toDecimal m).length := by
  by_cases hn : n = 0
  · subst hn
    have hone : (toDecimal 0).length = 1 := rfl
    have hpos := length_toDecimal_pos m
    omega
  · have hm : m ≠ 0 := by omega
    rw [length_toDecimal_of_ne_zero hn, length_toDecimal_of_ne_zero hm]
    exact Nat.succ_le_succ (Nat.log_mono_right h)

lemma digitBytes_inj {l l' : List Nat} (hl : ∀ d ∈ l, d < 10) (hl' : ∀ d ∈ l', d < 10)
    (h : l.map (fun d => Fin.ofNat 256 (48 + d)) = l'.map (fun d => Fin.ofNat 256 (48 + d))) : l = l' := by
  induction l generalizing l' with
  | nil => simpa using h.symm
  | cons d l ih =>
    cases l' with
    | nil => simp at h
    | cons d' l' =>
      simp only [List.map_cons, List.cons.injEq] at h
      have hd := congrArg Fin.val h.1
      rw [digitByte_val (hl d (by simp)), digitByte_val (hl' d' (by simp))] at hd
      have ht := ih (fun x hx => hl x (by simp [hx])) (fun x hx => hl' x (by simp [hx])) h.2
      rw [ht, show d = d' by omega]

lemma toDecimal_inj {n m : Nat} (h : toDecimal n = toDecimal m) : n = m := by
  have hzero : ∀ {k : Nat}, k ≠ 0 → toDecimal k ≠ [48] := by
    intro k hk he
    have hlt : ∀ d ∈ (Nat.digits 10 k).reverse, d < 10 := fun d hd =>
      Nat.digits_lt_base (by norm_num) (List.mem_reverse.mp hd)
    have h0 : (Nat.digits 10 k).reverse = [0] :=
      digitBytes_inj hlt (by simp) (by simpa [toDecimal, hk] using he)
    have hlast := Nat.getLast_digit_ne_zero 10 hk
    have hd : Nat.digits 10 k = [0] := by simpa using congrArg List.reverse h0
    simp [hd] at hlast
  by_cases hn : n = 0
  · by_cases hm : m = 0
    · rw [hn, hm]
    · exact absurd (by rw [← h, hn]; rfl) (hzero hm)
  · by_cases hm : m = 0
    · exact absurd (by rw [h, hm]; rfl) (hzero hn)
    · have he : (Nat.digits 10 n).reverse = (Nat.digits 10 m).reverse := by
        refine digitBytes_inj ?_ ?_ (by simpa [toDecimal, hn, hm] using h)
        · exact fun d hd => Nat.digits_lt_base (by norm_num) (List.mem_reverse.mp hd)
        · exact fun d hd => Nat.digits_lt_base (by norm_num) (List.mem_reverse.mp hd)
      exact (Nat.digits_inj_iff (b := 10)).mp (List.reverse_injective he)

/-- Adding a leading one: `10 ^ (k + 1) + r` for an `r` of exactly `k + 1` digits. -/
lemma toDecimal_pow_add {r k : Nat} (h1 : 10 ^ k ≤ r) (h2 : r < 10 ^ (k + 1)) :
    toDecimal (10 ^ (k + 1) + r) = 49 :: toDecimal r := by
  have hpos : 0 < 10 ^ k := by positivity
  have hr : r ≠ 0 := by omega
  have hlen : (Nat.digits 10 r).length = k + 1 := by
    have := length_toDecimal_eq h1 h2
    simpa [toDecimal, hr] using this
  have happ := Nat.digits_append_digits (b := 10) (m := 1) (n := r) (by norm_num)
  rw [hlen, mul_one] at happ
  have hd : Nat.digits 10 (10 ^ (k + 1) + r) = Nat.digits 10 r ++ [1] := by
    rw [add_comm, ← happ]; rfl
  have hne : 10 ^ (k + 1) + r ≠ 0 := by omega
  simp only [toDecimal, hne, hr, if_false, hd, List.reverse_append, List.reverse_cons, List.reverse_nil,
    List.nil_append, List.singleton_append, List.map_cons]
  rfl

/-- Data followed by its decimal length: strings of equal data and offset are equal. -/
lemma append_toDecimal_inj {c : Nat} {v w : Bytes}
    (h : v ++ toDecimal (c + v.length) = w ++ toDecimal (c + w.length)) : v = w := by
  have hlen : ∀ {v w : Bytes}, v ++ toDecimal (c + v.length) = w ++ toDecimal (c + w.length) →
      ¬v.length < w.length := by
    intro v w he hlt
    have hl := congrArg List.length he
    simp only [List.length_append] at hl
    have := length_toDecimal_mono (show c + v.length ≤ c + w.length by omega)
    omega
  have h1 := hlen h
  have h2 := hlen h.symm
  exact (List.append_inj h (by omega)).1

end IcebergCxx.Lib

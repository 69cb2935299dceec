import IcebergCxx.Lib.Bytes

/-!
# Hexadecimal numerals

Digits of either case are read, lower case ones are written. `value` and `numeral` convert between a
number and its digits, most significant first, and `encode` writes a byte string with two digits for
each byte.
-/

namespace IcebergCxx.Lib.Hex

/-- The value of a digit. -/
def digitValue (c : Byte) : Option Nat :=
  if 48 ≤ c.val ∧ c.val ≤ 57 then some (c.val - 48)
  else if 97 ≤ c.val ∧ c.val ≤ 102 then some (c.val - 87)
  else if 65 ≤ c.val ∧ c.val ≤ 70 then some (c.val - 55)
  else none

def isDigit (c : Byte) : Bool := (digitValue c).isSome

/-- The lower case digit of a value. -/
def digit (n : Nat) : Byte := Fin.ofNat 256 (if n < 10 then 48 + n else 87 + n)

/-- A letter in lower case; other characters are kept. -/
def lower (c : Byte) : Byte := if 65 ≤ c.val ∧ c.val ≤ 90 then c + 32 else c

/-- The number with the given digits. -/
def value (ds : Bytes) : Nat := ds.foldl (fun v c => 16 * v + (digitValue c).getD 0) 0

/-- The `k` low digits of a number. -/
def numeral : Nat → Nat → Bytes
  | 0, _ => []
  | k + 1, n => numeral k (n / 16) ++ [digit (n % 16)]

def encode (b : Bytes) : Bytes := b.flatMap (fun byte => numeral 2 byte.val)

/-! ### Digits -/

lemma digitValue_lt {c : Byte} {n : Nat} (h : digitValue c = some n) : n < 16 := by
  unfold digitValue at h
  split_ifs at h <;> simp only [Option.some.injEq] at h <;> omega

lemma isDigit_iff {c : Byte} : isDigit c = true ↔ ∃ n, digitValue c = some n := Option.isSome_iff_exists

lemma digitValue_digit : ∀ n < 16, digitValue (digit n) = some n := by decide

lemma isDigit_digit {n : Nat} (h : n < 16) : isDigit (digit n) = true := isDigit_iff.mpr ⟨n, digitValue_digit n h⟩

lemma digit_digitValue : ∀ c : Byte, ∀ n ∈ digitValue c, digit n = lower c := by decide +kernel

lemma lower_digit : ∀ n < 16, lower (digit n) = digit n := by decide

lemma isDigit_lower : ∀ c : Byte, isDigit (lower c) = isDigit c := by decide +kernel

lemma ne_hyphen_of_isDigit {c : Byte} (h : isDigit c = true) : c ≠ 45 := by
  rintro rfl
  exact absurd h (by decide)

/-! ### Numerals -/

@[simp] lemma length_numeral (k n : Nat) : (numeral k n).length = k := by
  induction k generalizing n with
  | zero => rfl
  | succ k ih => simp [numeral, ih]

lemma value_append_singleton (ds : Bytes) (c : Byte) :
    value (ds ++ [c]) = 16 * value ds + (digitValue c).getD 0 := by
  simp [value, List.foldl_append]

lemma value_lt (ds : Bytes) : value ds < 16 ^ ds.length := by
  induction ds using List.reverseRecOn with
  | nil => simp [value]
  | append_singleton ds c ih =>
    have hdigit : (digitValue c).getD 0 < 16 := by
      cases h : digitValue c with
      | none => simp
      | some n => simpa using digitValue_lt h
    rw [value_append_singleton, List.length_append, List.length_singleton, pow_succ]
    omega

lemma isDigit_of_mem_numeral {k n : Nat} {c : Byte} (h : c ∈ numeral k n) : isDigit c = true := by
  induction k generalizing n with
  | zero => exact absurd h List.not_mem_nil
  | succ k ih =>
    rcases List.mem_append.mp h with h | h
    · exact ih h
    · rw [List.mem_singleton.mp h]
      exact isDigit_digit (Nat.mod_lt _ (by norm_num))

lemma map_lower_numeral (k n : Nat) : (numeral k n).map lower = numeral k n := by
  induction k generalizing n with
  | zero => rfl
  | succ k ih => rw [numeral, List.map_append, ih, List.map_singleton, lower_digit _ (Nat.mod_lt _ (by norm_num))]

/-- A number is read back from its numeral. -/
lemma value_numeral {k n : Nat} (h : n < 16 ^ k) : value (numeral k n) = n := by
  induction k generalizing n with
  | zero =>
    rw [pow_zero, Nat.lt_one_iff] at h
    rw [h]
    rfl
  | succ k ih =>
    have hdiv : n / 16 < 16 ^ k := by
      rw [pow_succ] at h
      exact Nat.div_lt_of_lt_mul (by linarith)
    have hlow : (digitValue (digit (n % 16))).getD 0 = n % 16 := by
      rw [digitValue_digit _ (Nat.mod_lt _ (by norm_num)), Option.getD_some]
    rw [numeral, value_append_singleton, ih hdiv, hlow]
    exact Nat.div_add_mod n 16

/-- Digits are the numeral of their value, but for their case. -/
lemma numeral_value (ds : Bytes) (h : ∀ c ∈ ds, isDigit c = true) : numeral ds.length (value ds) = ds.map lower := by
  induction ds using List.reverseRecOn with
  | nil => rfl
  | append_singleton ds c ih =>
    obtain ⟨n, hn⟩ := isDigit_iff.mp (h c (by simp))
    have hlt := digitValue_lt hn
    have hvalue : value (ds ++ [c]) = 16 * value ds + n := by rw [value_append_singleton, hn, Option.getD_some]
    have hdiv : (16 * value ds + n) / 16 = value ds := by omega
    have hmod : (16 * value ds + n) % 16 = n := by omega
    rw [List.length_append, List.length_singleton, hvalue, numeral, hdiv, hmod,
      ih (fun d hd => h d (List.mem_append_left _ hd)), List.map_append, List.map_singleton,
      digit_digitValue c n hn]

/-- The digits of the high part, and then those of the low part. -/
lemma numeral_add (j k n : Nat) : numeral (j + k) n = numeral j (n / 16 ^ k) ++ numeral k (n % 16 ^ k) := by
  induction k generalizing n with
  | zero => simp [numeral]
  | succ k ih =>
    have hdiv : n / 16 / 16 ^ k = n / 16 ^ (k + 1) := by rw [Nat.div_div_eq_div_mul, pow_succ, mul_comm]
    have hmod : n / 16 % 16 ^ k = n % 16 ^ (k + 1) / 16 := by rw [pow_succ', Nat.mod_mul_right_div_self]
    have hlow : n % 16 ^ (k + 1) % 16 = n % 16 := Nat.mod_mod_of_dvd _ (Dvd.intro_left _ (pow_succ 16 k).symm)
    rw [← Nat.add_assoc, numeral, ih, hdiv, hmod, List.append_assoc, numeral, hlow]

/-! ### Byte strings -/

@[simp] lemma length_encode (b : Bytes) : (encode b).length = 2 * b.length := by
  induction b with
  | nil => rfl
  | cons x b ih =>
    rw [encode, List.flatMap_cons, List.length_append, length_numeral, ← encode, ih, List.length_cons]
    omega

lemma encode_cons (x : Byte) (b : Bytes) : encode (x :: b) = numeral 2 x.val ++ encode b := rfl

lemma isDigit_of_mem_encode {b : Bytes} {c : Byte} (h : c ∈ encode b) : isDigit c = true := by
  obtain ⟨x, -, hx⟩ := List.mem_flatMap.mp h
  exact isDigit_of_mem_numeral hx

lemma numeral_two_inj {x y : Byte} (h : numeral 2 x.val = numeral 2 y.val) : x = y := by
  have hvalue := congrArg value h
  rw [value_numeral (by omega), value_numeral (by omega)] at hvalue
  exact Fin.ext hvalue

lemma encode_inj {a b : Bytes} (h : encode a = encode b) : a = b := by
  induction a generalizing b with
  | nil =>
    have hlen := congrArg List.length h
    rw [length_encode, length_encode, List.length_nil] at hlen
    exact (List.length_eq_zero_iff.mp (by omega)).symm
  | cons x a ih =>
    cases b with
    | nil =>
      have hlen := congrArg List.length h
      rw [length_encode, length_encode, List.length_nil, List.length_cons] at hlen
      omega
    | cons y b =>
      rw [encode_cons, encode_cons] at h
      obtain ⟨hhead, htail⟩ := List.append_inj h (by rw [length_numeral, length_numeral])
      rw [numeral_two_inj hhead, ih htail]

end IcebergCxx.Lib.Hex

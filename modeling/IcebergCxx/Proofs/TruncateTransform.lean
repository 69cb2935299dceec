import IcebergCxx.Proofs.TemporalTransforms

/-!
# The truncate transform

The transform of the format takes an integer down to a multiple of the width, and a string to its
first characters. The code rounds the hash of the integer instead, and cuts the string at a number of
bytes. It computes the transform where the hash lies in the same interval as the value, and where the
characters that are kept are single bytes.
-/

namespace IcebergCxx.Proofs

open Lib ParquetWrite

/-! ### Rounding down -/

lemma truncateHash_eq {width : Int} (h : 0 < width) (hash : Int) : truncateHash width hash = hash - hash % width := by
  have hlower := Int.emod_nonneg hash h.ne'
  have hupper := Int.emod_lt_of_pos hash h
  have hcorrected := @tmod_corrected hash width h
  rw [truncateHash]
  split_ifs at hcorrected with hneg
  · rw [hcorrected, Int.tmod_eq_emod_of_nonneg hlower, Int.emod_eq_of_lt hlower hupper]
  · rw [hcorrected, Int.tmod_eq_emod_of_nonneg (by omega), Int.add_emod_right, Int.emod_emod_of_dvd _ dvd_rfl]

/-- Two integers are rounded to the same multiple when they lie in the same interval. -/
lemma sub_emod_eq_iff {width a b : Int} (h : 0 < width) : a - a % width = b - b % width ↔ a / width = b / width := by
  have ha := Int.mul_ediv_add_emod a width
  have hb := Int.mul_ediv_add_emod b width
  constructor
  · intro heq
    apply Int.eq_of_mul_eq_mul_left h.ne'
    omega
  · intro heq
    rw [heq] at ha
    omega

lemma wrapInt32_of_int32 {x : Int} (h : -2147483648 ≤ x ∧ x ≤ 2147483647) : wrapInt32 x = x := by
  unfold wrapInt32
  apply Int.bmod_eq_of_le
  · norm_num
    omega
  · norm_num
    omega

/-- Integers of the same interval are less than the width apart. -/
lemma abs_sub_lt_of_ediv_eq {width a b : Int} (h : 0 < width) (heq : a / width = b / width) :
    a - b < width ∧ b - a < width := by
  have ha := Int.mul_ediv_add_emod a width
  have hb := Int.mul_ediv_add_emod b width
  have ha1 := Int.emod_nonneg a h.ne'
  have hb1 := Int.emod_nonneg b h.ne'
  have ha2 := Int.emod_lt_of_pos a h
  have hb2 := Int.emod_lt_of_pos b h
  rw [heq] at ha
  omega

/-- A multiple of the width below the least 32-bit integer does not wrap around to a multiple. -/
lemma not_dvd_wrapped {width x : Int} (h1 : 0 < width) (h2 : width < 2147483648) (hx : width ∣ x)
    (hlow : x < -2147483648) (hnear : -2147483648 - width < x) : ¬width ∣ x + 4294967296 := by
  intro hdvd
  have hpow : width ∣ 4294967296 := by
    have := Int.dvd_sub hdvd hx
    rwa [add_sub_cancel_left] at this
  have hnat : width.natAbs ∣ 2 ^ 32 := by
    have := Int.natAbs_dvd_natAbs.mpr hpow
    simpa using this
  obtain ⟨j, hj, hwidth⟩ := (Nat.dvd_prime_pow Nat.prime_two).mp hnat
  have hsmall : j ≤ 31 := by
    by_contra hbig
    have : j = 32 := by omega
    subst this
    omega
  have hhalf : width ∣ 2147483648 := by
    have hnatHalf : width.natAbs ∣ 2 ^ 31 := hwidth ▸ pow_dvd_pow 2 hsmall
    have := Int.natCast_dvd_natCast.mpr hnatHalf
    simpa using this
  have hzero := Int.eq_zero_of_abs_lt_dvd (Int.dvd_add hx hhalf) (abs_lt.mpr ⟨by omega, by omega⟩)
  omega

/-! ### Integers -/

/-- The scalar of an integer. -/
def integerScalar (type : ScalarType) (v : Int) : ParquetWrite.Scalar := ⟨type, true, .inl v⟩

/-- The hash of a value lies in the same interval of the width as the value. Without SMHasher the hash
is the value cut to 32 bits. -/
def HashKeeps (lib : TransformLibrary) (width v : Int) : Prop :=
  if lib.useSmhasher then (lib.murmurHash3 (leBytes 8 (v % 2 ^ 64).toNat)).val / width = v / width
  else -2147483648 ≤ v ∧ v ≤ 2147483647

lemma murMurHasher_ediv_iff (lib : TransformLibrary) {width : Int} (h1 : 0 < width) (h2 : width < 2147483648) (v : Int) :
    murMurHasher lib v / width = v / width ↔ HashKeeps lib width v := by
  unfold murMurHasher HashKeeps
  cases lib.useSmhasher with
  | true => rfl
  | false =>
    simp only [Bool.false_eq_true, if_false]
    constructor
    · intro heq
      have hnear := abs_sub_lt_of_ediv_eq h1 heq
      obtain ⟨k, hk, hlower, hupper⟩ := wrapInt32_spec v
      omega
    · intro hin
      rw [wrapInt32_of_int32 hin]

lemma murMurHasher_bounds (lib : TransformLibrary) (v : Int) :
    -2147483648 ≤ murMurHasher lib v ∧ murMurHasher lib v ≤ 2147483647 := by
  unfold murMurHasher
  split_ifs
  · exact signedInt32_bounds _
  · obtain ⟨k, -, hlower, hupper⟩ := wrapInt32_spec v
    exact ⟨hlower, hupper⟩

lemma truncate_int64 (lib : TransformLibrary) {width : Int} (h1 : 0 < width) (v : Int) :
    truncateTransform lib width (integerScalar .int64 v) =
      .ok (integerScalar .int64 (murMurHasher lib v - murMurHasher lib v % width)) := by
  rw [← truncateHash_eq h1]
  simp only [truncateTransform, integerScalar, if_neg h1.ne']
  rfl

lemma truncate_int32 (lib : TransformLibrary) {width : Int} (h1 : 0 < width) (v : Int) :
    truncateTransform lib width (integerScalar .int32 v) =
      .ok (integerScalar .int32 (wrapInt32 (murMurHasher lib v - murMurHasher lib v % width))) := by
  rw [← truncateHash_eq h1]
  simp only [truncateTransform, integerScalar, if_neg h1.ne']
  rfl

/-- A rounded hash that has wrapped around is not a multiple of the width, so not a rounded value. -/
lemma wrapped_hash_eq_iff {width h v : Int} (h1 : 0 < width) (h2 : width < 2147483648)
    (hh : -2147483648 ≤ h ∧ h ≤ 2147483647) :
    wrapInt32 (h - h % width) = v - v % width ↔ h - h % width = v - v % width ∧ -2147483648 ≤ v - v % width := by
  have hmod1 := Int.emod_nonneg h h1.ne'
  have hmod2 := Int.emod_lt_of_pos h h1
  have hdvd : width ∣ h - h % width := Int.dvd_self_sub_emod
  have hdvd' : width ∣ v - v % width := Int.dvd_self_sub_emod
  by_cases hfits : -2147483648 ≤ h - h % width
  · rw [wrapInt32_of_int32 ⟨hfits, by omega⟩]
    exact ⟨fun heq => ⟨heq, heq ▸ hfits⟩, fun heq => heq.1⟩
  · obtain ⟨k, hk, hlower, hupper⟩ := wrapInt32_spec (h - h % width)
    constructor
    · intro heq
      have hwrapped : h - h % width + 4294967296 = v - v % width := by omega
      exact absurd (hwrapped ▸ hdvd') (not_dvd_wrapped h1 h2 hdvd (by omega) (by omega))
    · rintro ⟨heq, hge⟩
      omega

/-- The integers of the two types that are truncated. -/
def Representable : ScalarType → Int → Prop
  | .int32, x => -2147483648 ≤ x ∧ x ≤ 2147483647
  | .int64, x => InInt64 x
  | _, _ => False

instance instDecidableRepresentable : (type : ScalarType) → (x : Int) → Decidable (Representable type x)
  | .int32, _ => inferInstanceAs (Decidable (_ ∧ _))
  | .int64, x => inferInstanceAs (Decidable (InInt64 x))
  | .date64, _ => isFalse id
  | .string, _ => isFalse id
  | .other _, _ => isFalse id

/-- An integer is taken down to a multiple of the width: not above it, and kept by a second truncation. -/
def TruncatesInteger (lib : TransformLibrary) (width : Int) (type : ScalarType) (v : Int) : Prop :=
  ∃ x, truncateTransform lib width (integerScalar type v) = .ok (integerScalar type x) ∧ x = v - v % width ∧ width ∣ x ∧
    x ≤ v ∧ truncateTransform lib width (integerScalar type x) = .ok (integerScalar type x)

lemma integerScalar_inj {type : ScalarType} {x y : Int} (h : integerScalar type x = integerScalar type y) : x = y := by
  unfold integerScalar at h
  simpa using h

/-- One truncation is right where the hash keeps the interval of the value. -/
lemma truncate_eq_iff (lib : TransformLibrary) {width : Int} (h1 : 0 < width) (h2 : width < 2147483648)
    {type : ScalarType} {v : Int} (hin : Representable type (v - v % width)) :
    truncateTransform lib width (integerScalar type v) = .ok (integerScalar type (v - v % width)) ↔
      HashKeeps lib width v := by
  rw [← murMurHasher_ediv_iff lib h1 h2, ← sub_emod_eq_iff h1]
  cases type with
  | int32 =>
    rw [truncate_int32 lib h1]
    have hwrapped := @wrapped_hash_eq_iff width (murMurHasher lib v) v h1 h2 (murMurHasher_bounds lib v)
    constructor
    · intro heq
      exact (hwrapped.mp (integerScalar_inj (Except.ok.inj heq))).1
    · intro heq
      rw [hwrapped.mpr ⟨heq, hin.1⟩]
  | int64 =>
    rw [truncate_int64 lib h1]
    constructor
    · intro heq
      exact integerScalar_inj (Except.ok.inj heq)
    · intro heq
      rw [heq]
  | _ => exact hin.elim

lemma sub_emod_idem {width : Int} (v : Int) : (v - v % width) - (v - v % width) % width = v - v % width := by
  rw [Int.emod_eq_zero_of_dvd (Int.dvd_self_sub_emod), sub_zero]

lemma truncatesInteger_iff (lib : TransformLibrary) {width : Int} (h1 : 0 < width) (h2 : width < 2147483648)
    {type : ScalarType} {v : Int} (hin : Representable type (v - v % width)) :
    TruncatesInteger lib width type v ↔ HashKeeps lib width v ∧ HashKeeps lib width (v - v % width) := by
  have hfirst := truncate_eq_iff lib h1 h2 hin
  have hsecond := @truncate_eq_iff lib width h1 h2 type (v - v % width) (by rw [sub_emod_idem]; exact hin)
  rw [sub_emod_idem] at hsecond
  rw [← hfirst, ← hsecond]
  constructor
  · rintro ⟨x, hx, rfl, -, -, hagain⟩
    exact ⟨hx, hagain⟩
  · rintro ⟨hx, hagain⟩
    have hle : v - v % width ≤ v := by
      have := Int.emod_nonneg v h1.ne'
      omega
    exact ⟨v - v % width, hx, rfl, Int.dvd_self_sub_emod, hle, hagain⟩

/-- Truncated integers keep their order. -/
lemma truncatesInteger_monotone {lib : TransformLibrary} {width : Int} (h1 : 0 < width) {type : ScalarType} {v w x y : Int}
    (hv : TruncatesInteger lib width type v) (hw : TruncatesInteger lib width type w) (hle : v ≤ w)
    (hx : truncateTransform lib width (integerScalar type v) = .ok (integerScalar type x))
    (hy : truncateTransform lib width (integerScalar type w) = .ok (integerScalar type y)) : x ≤ y := by
  obtain ⟨x', hx', hxv, -⟩ := hv
  obtain ⟨y', hy', hyw, -⟩ := hw
  have hxx := integerScalar_inj (Except.ok.inj (hx.symm.trans hx'))
  have hyy := integerScalar_inj (Except.ok.inj (hy.symm.trans hy'))
  have hdiv := Int.ediv_le_ediv h1 hle
  have hmul := Int.mul_le_mul_of_nonneg_left hdiv h1.le
  have hv := Int.mul_ediv_add_emod v width
  have hw := Int.mul_ediv_add_emod w width
  omega

/-! ### Strings -/

/-- The bytes of a text in UTF-8. -/
def utf8 (chars : List Char) : Bytes :=
  chars.flatMap (fun c => (String.utf8EncodeChar c).map (fun b => Fin.ofNat 256 b.toNat))

def stringScalar (s : Bytes) : ParquetWrite.Scalar := ⟨.string, true, .inr s⟩

/-- A text is cut to its first characters, which are a prefix of it and kept by a second truncation. -/
def TruncatesString (lib : TransformLibrary) (width : Int) (chars : List Char) : Prop :=
  truncateTransform lib width (stringScalar (utf8 chars)) = .ok (stringScalar (utf8 (chars.take width.toNat))) ∧
    utf8 (chars.take width.toNat) <+: utf8 chars ∧
    truncateTransform lib width (stringScalar (utf8 (chars.take width.toNat))) =
      .ok (stringScalar (utf8 (chars.take width.toNat)))

lemma utf8_cons (c : Char) (chars : List Char) :
    utf8 (c :: chars) = (String.utf8EncodeChar c).map (fun b => Fin.ofNat 256 b.toNat) ++ utf8 chars := rfl

lemma length_utf8_cons (c : Char) (chars : List Char) : (utf8 (c :: chars)).length = c.utf8Size + (utf8 chars).length := by
  rw [utf8_cons, List.length_append, List.length_map, String.length_utf8EncodeChar]

lemma length_le_length_utf8 (chars : List Char) : chars.length ≤ (utf8 chars).length := by
  induction chars with
  | nil => exact le_rfl
  | cons c chars ih =>
    have := Char.utf8Size_pos c
    rw [length_utf8_cons, List.length_cons]
    omega

lemma length_utf8_eq_iff (chars : List Char) : (utf8 chars).length = chars.length ↔ ∀ c ∈ chars, c.utf8Size = 1 := by
  induction chars with
  | nil => simp [utf8]
  | cons c chars ih =>
    have hpos := Char.utf8Size_pos c
    have hle := length_le_length_utf8 chars
    rw [length_utf8_cons, List.length_cons, List.forall_mem_cons, ← ih]
    omega

lemma utf8_take_append (n : Nat) (chars : List Char) : utf8 (chars.take n) ++ utf8 (chars.drop n) = utf8 chars := by
  unfold utf8
  rw [← List.flatMap_append, List.take_append_drop]

lemma utf8_take_isPrefixOf (n : Nat) (chars : List Char) : utf8 (chars.take n) <+: utf8 chars :=
  ⟨_, utf8_take_append n chars⟩

/-- The first `n` bytes of a text are its first `n` characters when those are single bytes, or when the
text has no more bytes. -/
lemma take_utf8_eq_iff (n : Nat) (chars : List Char) :
    (utf8 chars).take n = utf8 (chars.take n) ↔ (utf8 chars).length ≤ n ∨ ∀ c ∈ chars.take n, c.utf8Size = 1 := by
  have hprefix := utf8_take_isPrefixOf n chars
  have hlength : (utf8 chars).take n = utf8 (chars.take n) ↔
      (utf8 (chars.take n)).length = min n (utf8 chars).length := by
    constructor
    · intro heq
      rw [← heq, List.length_take]
    · intro heq
      have htake := List.prefix_iff_eq_take.mp hprefix
      rw [htake, heq, List.take_eq_take_iff]
      simp
  have hbytes := length_le_length_utf8 chars
  rw [hlength, ← length_utf8_eq_iff, List.length_take]
  by_cases hshort : chars.length ≤ n
  · rw [List.take_of_length_le hshort]
    omega
  · have hmore := length_le_length_utf8 (chars.take n)
    rw [List.length_take] at hmore
    have hle := hprefix.length_le
    omega

lemma truncate_string (lib : TransformLibrary) (hstring : ∀ s, lib.scalarToString (stringScalar s) = s) {width : Int}
    (h1 : 0 < width) (h2 : width < 2147483648) (s : Bytes) :
    truncateTransform lib width (stringScalar s) = .ok (stringScalar (s.take width.toNat)) := by
  have hwidth : width % 2 ^ 64 = width := Int.emod_eq_of_lt h1.le (by norm_num; omega)
  have hcut : truncateTransform lib width (stringScalar s) =
      .ok (stringScalar ((lib.scalarToString (stringScalar s)).take (width % 2 ^ 64).toNat)) := rfl
  rw [hcut, hstring, hwidth]

lemma truncatesString_iff (lib : TransformLibrary) (hstring : ∀ s, lib.scalarToString (stringScalar s) = s) {width : Int}
    (h1 : 0 < width) (h2 : width < 2147483648) (chars : List Char) :
    TruncatesString lib width chars ↔
      (utf8 chars).length ≤ width.toNat ∨ ∀ c ∈ chars.take width.toNat, c.utf8Size = 1 := by
  rw [← take_utf8_eq_iff, TruncatesString, truncate_string lib hstring h1 h2, truncate_string lib hstring h1 h2]
  constructor
  · rintro ⟨heq, -, -⟩
    simpa [stringScalar] using heq
  · intro heq
    refine ⟨by rw [heq], utf8_take_isPrefixOf _ _, ?_⟩
    rw [← heq, List.take_take, min_self]

lemma lex_of_lex_take {s s' : Bytes} {n : Nat} (h : List.Lex (fun a b : Byte => a < b) (s.take n) (s'.take n)) :
    List.Lex (fun a b : Byte => a < b) s s' := by
  induction n generalizing s s' with
  | zero =>
    rw [List.take_zero, List.take_zero] at h
    cases h
  | succ n ih =>
    cases s' with
    | nil =>
      rw [List.take_nil] at h
      exact absurd h List.not_lex_nil
    | cons b s' =>
      cases s with
      | nil => exact .nil
      | cons a s =>
        rw [List.take_succ_cons, List.take_succ_cons] at h
        cases h with
        | cons h => exact .cons (ih h)
        | rel h => exact .rel h

/-- Cutting keeps the lexicographic order. -/
lemma take_le_take {s s' : Bytes} (n : Nat) (h : s ≤ s') : s.take n ≤ s'.take n := by
  by_contra hlt
  exact absurd h (not_le.mpr (lex_of_lex_take (not_le.mp hlt)))

/-! ### The transform -/

/-- Truncation follows the format for an integer when its hash, and that of the rounded integer, lie in
its interval of the width: with SMHasher by coincidence only, without it for every 32-bit integer whose
multiple has 32 bits too. It follows the format for a text of no more bytes than the width, or whose
first characters are single bytes. -/
theorem truncate_iff (lib : TransformLibrary) (hstring : ∀ s, lib.scalarToString (stringScalar s) = s) (width : Int)
    (h1 : 0 < width) (h2 : width < 2147483648) :
    (∀ (type : ScalarType) (v : Int), Representable type v → Representable type (v - v % width) →
      (TruncatesInteger lib width type v ↔ HashKeeps lib width v ∧ HashKeeps lib width (v - v % width))) ∧
    (∀ (type : ScalarType) (v w x y : Int), TruncatesInteger lib width type v → TruncatesInteger lib width type w →
      v ≤ w → truncateTransform lib width (integerScalar type v) = .ok (integerScalar type x) →
      truncateTransform lib width (integerScalar type w) = .ok (integerScalar type y) → x ≤ y) ∧
    (∀ chars : List Char, TruncatesString lib width chars ↔
      (utf8 chars).length ≤ width.toNat ∨ ∀ c ∈ chars.take width.toNat, c.utf8Size = 1) ∧
    ∀ s s' r r' : Bytes, s ≤ s' → truncateTransform lib width (stringScalar s) = .ok (stringScalar r) →
      truncateTransform lib width (stringScalar s') = .ok (stringScalar r') → r ≤ r' := by
  refine ⟨fun type v _ hin => truncatesInteger_iff lib h1 h2 hin, ?_, truncatesString_iff lib hstring h1 h2, ?_⟩
  · intro type v w x y hv hw hle hx hy
    exact truncatesInteger_monotone h1 hv hw hle hx hy
  · intro s s' r r' hle hr hr'
    have hcut : s.take width.toNat = r := by
      have := (truncate_string lib hstring h1 h2 s).symm.trans hr
      simpa [stringScalar] using this
    have hcut' : s'.take width.toNat = r' := by
      have := (truncate_string lib hstring h1 h2 s').symm.trans hr'
      simpa [stringScalar] using this
    rw [← hcut, ← hcut']
    exact take_le_take _ hle

/-- Without SMHasher, -3 is taken to -10, and `iceberg` is cut to `ice`. -/
theorem truncate_small :
    TruncatesInteger noTransformLibrary 10 .int32 (-3) ∧ TruncatesString noTransformLibrary 3 ['i', 'c', 'e', 'b', 'e', 'r', 'g'] := by
  constructor
  · exact ((truncate_iff noTransformLibrary (fun _ => rfl) 10 (by decide) (by decide)).1 .int32 (-3) (by decide) (by decide)).mpr
      ⟨by simp [HashKeeps, noTransformLibrary], by simp [HashKeeps, noTransformLibrary]⟩
  · exact ((truncate_iff noTransformLibrary (fun _ => rfl) 3 (by decide) (by decide)).2.2.1 _).mpr
      (.inr (by simp [Char.utf8Size]))

/-- Without SMHasher the 64-bit integer 2^32 is truncated as if it were 0. -/
theorem not_truncatesInteger_long :
    ¬∀ (lib : TransformLibrary) (width : Int) (type : ScalarType) (v : Int), (∀ s, lib.scalarToString (stringScalar s) = s) →
      0 < width → width < 2147483648 → Representable type v → Representable type (v - v % width) →
      TruncatesInteger lib width type v := by
  intro h
  have hlong := h noTransformLibrary 10 .int64 4294967296 (fun _ => rfl) (by decide) (by decide) (by decide) (by decide)
  have hkeeps := ((truncatesInteger_iff noTransformLibrary (by decide) (by decide) (by decide)).mp hlong).1
  exact absurd hkeeps (by simp [HashKeeps, noTransformLibrary])

end IcebergCxx.Proofs

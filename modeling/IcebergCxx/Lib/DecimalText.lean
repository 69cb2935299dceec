import IcebergCxx.Lib.Json
import IcebergCxx.Lib.TextSearch

/-!
# Decimal numbers with a scale

A decimal is an unscaled integer and a scale, the number of its digits after the point. `print` is its
canonical text: digits with a point, or scientific notation where the exponent is below -6 or the scale is
negative. A text that is parsed has a sign, digits, a point with further digits and an exponent, of which the
point and the exponent may be missing. Scales of more than 38 digits have no text.
-/

namespace IcebergCxx.Lib.DecimalText

def maxScale : Int := 38

def sign (v : Int) : Bytes := if v < 0 then [45] else []

def digits (v : Int) : Bytes := toDecimal v.natAbs

/-- The exponent of the first digit. -/
def adjustedExponent (v scale : Int) : Int := (digits v).length - 1 - scale

def outOfRange : Bytes := bytes "<scale out of range, cannot format Decimal128 value>"

/-- The canonical text. -/
def print (v scale : Int) : Bytes :=
  if scale < -maxScale ∨ maxScale < scale then outOfRange
  else if scale = 0 then sign v ++ digits v
  else if scale < 0 ∨ adjustedExponent v scale < -6 then
    sign v ++ ((digits v).take 1 ++ 46 :: (digits v).drop 1) ++
      (69 :: (if 0 ≤ adjustedExponent v scale then [43] else []) ++ toDecimalInt (adjustedExponent v scale))
  else if scale < (digits v).length then
    sign v ++ ((digits v).take ((digits v).length - scale.toNat) ++ 46 :: (digits v).drop ((digits v).length - scale.toNat))
  else sign v ++ (48 :: 46 :: (List.replicate (scale.toNat - (digits v).length) 48 ++ digits v))

/-- A text with a fraction, if there is one, and an exponent, if there is one. -/
def render (negative : Bool) (whole fraction : Bytes) (exponent : Option Int) : Bytes :=
  (if negative then [45] else []) ++ (whole ++ ((if fraction = [] then [] else 46 :: fraction) ++
    exponent.elim [] (fun e => bytes "E+" ++ toDecimalInt e)))

/-- What a parser of decimals does. It reads the digits of at most 38 places and leaves the scale to the reader, unless
the exponent is beyond the digits after the point. -/
structure IsParser (parse : Bytes → Option Int) : Prop where
  reads : ∀ (negative : Bool) (whole fraction : Bytes) (exponent : Option Int), whole ≠ [] →
    (∀ c ∈ whole, Json.isDigit c = true) → (∀ c ∈ fraction, Json.isDigit c = true) →
    (whole.length + fraction.length ≤ 38 ∨ whole = [48] ∧ fraction.length ≤ 38) →
    (∀ e ∈ exponent, -2 ^ 31 ≤ e ∧ e ≤ fraction.length) →
    parse (render negative whole fraction exponent) =
      some ((if negative then (-1 : Int) else 1) * Json.ofDecimal (whole ++ fraction))
  oneExponent : ∀ text : Bytes, 2 ≤ text.count 69 → parse text = none
  noBracket : ∀ text : Bytes, text.head? = some 60 → parse text = none

/-! ### Digits -/

lemma isDigit_digits (v : Int) : ∀ c ∈ digits v, Json.isDigit c = true := Json.isDigit_toDecimal _

lemma digits_ne_nil (v : Int) : digits v ≠ [] := toDecimal_ne_nil _

lemma toDecimalInt_eq (v : Int) : toDecimalInt v = sign v ++ digits v := by
  cases v with
  | ofNat n =>
    have hsign : sign (Int.ofNat n) = [] := if_neg (by simp)
    rw [hsign]
    rfl
  | negSucc n =>
    have hsign : sign (Int.negSucc n) = [45] := if_pos (Int.negSucc_lt_zero n)
    rw [hsign]
    rfl

lemma sign_mul_digits (v : Int) : (if v < 0 then (-1 : Int) else 1) * Json.ofDecimal (digits v) = v := by
  rw [digits, Json.ofDecimal_toDecimal]
  split_ifs with h
  · rw [Int.natCast_natAbs, abs_of_neg h]
    ring
  · rw [Int.natCast_natAbs, abs_of_nonneg (not_lt.mp h)]
    ring

/-- Zeros in front are not counted. -/
lemma ofDecimal_zeros (n : Nat) (l : Bytes) : Json.ofDecimal (List.replicate n 48 ++ l) = Json.ofDecimal l := by
  induction n with
  | zero => rfl
  | succ n ih =>
    rw [List.replicate_succ, List.cons_append]
    exact ih

lemma toDecimal_mul_pow {n : Nat} (hn : 0 < n) (k : Nat) :
    toDecimal (n * 10 ^ k) = toDecimal n ++ List.replicate k 48 := by
  have hne : n * 10 ^ k ≠ 0 := by positivity
  have hdigits : Nat.digits 10 (n * 10 ^ k) = List.replicate k 0 ++ Nat.digits 10 n := by
    rw [mul_comm, Nat.digits_base_pow_mul (by norm_num) hn]
  have hzero : Fin.ofNat 256 (48 + 0) = (48 : Byte) := rfl
  rw [toDecimal, if_neg hne, toDecimal, if_neg hn.ne', hdigits, List.reverse_append, List.reverse_replicate,
    List.map_append, List.map_replicate, hzero]

/-- A multiple of a power of ten has zeros at its end. -/
lemma toDecimalInt_mul_pow {u : Int} (hu : u ≠ 0) (k : Nat) :
    toDecimalInt (u * 10 ^ k) = toDecimalInt u ++ List.replicate k 48 := by
  have hpos : (0 : Int) < 10 ^ k := by positivity
  have hneg : u * 10 ^ k < 0 ↔ u < 0 := by
    rw [mul_neg_iff]
    constructor
    · rintro (⟨-, h⟩ | ⟨h, -⟩)
      · exact absurd h hpos.not_gt
      · exact h
    · exact fun h => .inr ⟨h, hpos⟩
  have hsign : sign (u * 10 ^ k) = sign u := by simp only [sign, hneg]
  have habs : (u * 10 ^ k).natAbs = u.natAbs * 10 ^ k := by
    rw [Int.natAbs_mul, Int.natAbs_pow]
    rfl
  rw [toDecimalInt_eq, toDecimalInt_eq, hsign, digits, habs, toDecimal_mul_pow (Int.natAbs_pos.mpr hu), digits,
    List.append_assoc]

/-- A number below `10 ^ p` has at most `p` digits. -/
lemma length_digits_le {v : Int} {p : Nat} (hp : 0 < p) (h : v.natAbs < 10 ^ p) : (digits v).length ≤ p := by
  rw [digits]
  by_cases hzero : v.natAbs = 0
  · rw [hzero]
    exact hp
  · rw [length_toDecimal_of_ne_zero hzero]
    exact Nat.log_lt_of_lt_pow hzero h

/-! ### Texts -/

lemma zero_notMem_of_isDigit {l : Bytes} (h : ∀ c ∈ l, Json.isDigit c = true) : (0 : Byte) ∉ l :=
  fun hzero => absurd (h 0 hzero) (by decide)

lemma notMem_toDecimalInt {c : Byte} (hdigit : Json.isDigit c = false) (hsign : c ≠ 45) (v : Int) :
    c ∉ toDecimalInt v := by
  rw [toDecimalInt_eq, List.mem_append, not_or]
  refine ⟨?_, fun h => ?_⟩
  · unfold sign
    split_ifs <;> simp [hsign]
  · rw [isDigit_digits v c h] at hdigit
    cases hdigit

lemma zero_notMem_print (v scale : Int) : (0 : Byte) ∉ print v scale := by
  have hsign : (0 : Byte) ∉ sign v := by
    unfold sign
    split_ifs <;> decide
  have hdigits : (0 : Byte) ∉ digits v := zero_notMem_of_isDigit (isDigit_digits v)
  have hpoint : ∀ n, (0 : Byte) ∉ (digits v).take n ++ 46 :: (digits v).drop n := by
    intro n h
    rcases List.mem_append.mp h with h | h
    · exact hdigits (List.mem_of_mem_take h)
    · rcases List.mem_cons.mp h with h | h
      · exact absurd h (by decide)
      · exact hdigits (List.mem_of_mem_drop h)
  have hexponent : (0 : Byte) ∉ toDecimalInt (adjustedExponent v scale) := Json.zero_notMem_toDecimalInt _
  have hletter : (0 : Byte) ∉ 69 :: (if 0 ≤ adjustedExponent v scale then [(43 : Byte)] else []) := by
    split_ifs <;> decide
  have hzeros : ∀ n, (0 : Byte) ∉ List.replicate n (48 : Byte) := by
    intro n h
    exact absurd (List.eq_of_mem_replicate h) (by decide)
  rw [print]
  by_cases hrange : scale < -maxScale ∨ maxScale < scale
  · rw [if_pos hrange]
    decide
  · rw [if_neg hrange]
    by_cases hzero : scale = 0
    · rw [if_pos hzero]
      exact List.not_mem_append hsign hdigits
    · rw [if_neg hzero]
      by_cases hscientific : scale < 0 ∨ adjustedExponent v scale < -6
      · rw [if_pos hscientific]
        exact List.not_mem_append (List.not_mem_append hsign (hpoint 1)) (List.not_mem_append hletter hexponent)
      · rw [if_neg hscientific]
        by_cases hshort : scale < (digits v).length
        · rw [if_pos hshort]
          exact List.not_mem_append hsign (hpoint _)
        · rw [if_neg hshort]
          have hbody : (0 : Byte) ∉ List.replicate (scale.toNat - (digits v).length) 48 ++ digits v :=
            List.not_mem_append (hzeros _) hdigits
          refine List.not_mem_append hsign ?_
          simpa using hbody

/-! ### A printed text with its scale as the exponent -/

variable {parse : Bytes → Option Int}

lemma render_eq (v : Int) (whole fraction : Bytes) (e : Int) :
    sign v ++ (whole ++ ((if fraction = [] then [] else 46 :: fraction) ++ (bytes "E+" ++ toDecimalInt e))) =
      render (decide (v < 0)) whole fraction (some e) := by
  unfold sign render
  by_cases h : v < 0 <;> simp [h]

lemma reads_digits (h : IsParser parse) {v : Int} {whole fraction : Bytes} {e : Int} (hne : whole ≠ [])
    (hwhole : ∀ c ∈ whole, Json.isDigit c = true) (hfraction : ∀ c ∈ fraction, Json.isDigit c = true)
    (hlen : whole.length + fraction.length ≤ 38 ∨ whole = [48] ∧ fraction.length ≤ 38)
    (he : -2 ^ 31 ≤ e ∧ e ≤ fraction.length) (hvalue : Json.ofDecimal (whole ++ fraction) = Json.ofDecimal (digits v)) :
    parse (render (decide (v < 0)) whole fraction (some e)) = some v := by
  rw [h.reads _ whole fraction (some e) hne hwhole hfraction hlen (by simpa using he), hvalue]
  have := sign_mul_digits v
  by_cases hneg : v < 0
  · simpa [hneg] using this
  · simpa [hneg] using this

/-- Where the text is not in scientific notation, the negated scale as an exponent does no harm. -/
lemma parse_print_plain (h : IsParser parse) {v scale : Int} (hlen : (digits v).length ≤ 38) (hscale : 0 ≤ scale)
    (hmax : scale ≤ maxScale) (hplain : -6 ≤ adjustedExponent v scale) :
    parse (print v scale ++ (bytes "E+" ++ toDecimalInt (-scale))) = some v := by
  have hrange : ¬(scale < -maxScale ∨ maxScale < scale) := by
    unfold maxScale at *
    omega
  have hexponent : ∀ fraction : Bytes, -2 ^ 31 ≤ -scale ∧ -scale ≤ fraction.length := by
    unfold maxScale at hmax
    omega
  rw [print, if_neg hrange]
  by_cases hzero : scale = 0
  · rw [if_pos hzero, List.append_assoc]
    have := render_eq v (digits v) [] (-scale)
    rw [if_pos rfl, List.nil_append] at this
    rw [this]
    exact reads_digits h (digits_ne_nil v) (isDigit_digits v) (by simp) (.inl (by simpa using hlen)) (hexponent [])
      (by rw [List.append_nil])
  · rw [if_neg hzero, if_neg (by omega)]
    by_cases hshort : scale < (digits v).length
    · set n := (digits v).length - scale.toNat with hn
      have hfraction : (digits v).drop n ≠ [] := by
        rw [Ne, List.drop_eq_nil_iff]
        omega
      have hwhole : (digits v).take n ≠ [] := by
        rw [Ne, List.take_eq_nil_iff]
        rintro (hn | hnil)
        · omega
        · exact digits_ne_nil v hnil
      have htext : sign v ++ ((digits v).take n ++ 46 :: (digits v).drop n) ++ (bytes "E+" ++ toDecimalInt (-scale)) =
          render (decide (v < 0)) ((digits v).take n) ((digits v).drop n) (some (-scale)) := by
        rw [← render_eq, if_neg hfraction]
        simp only [List.append_assoc, List.cons_append]
      rw [if_pos hshort, htext]
      refine reads_digits h hwhole (fun c hc => isDigit_digits v c (List.mem_of_mem_take hc))
        (fun c hc => isDigit_digits v c (List.mem_of_mem_drop hc)) (.inl ?_) (hexponent _) (by rw [List.take_append_drop])
      rw [← List.length_append, List.take_append_drop]
      exact hlen
    · set zeros := List.replicate (scale.toNat - (digits v).length) (48 : Byte) with hzeros
      have hfraction : zeros ++ digits v ≠ [] := by simp [digits_ne_nil]
      have htext : sign v ++ (48 :: 46 :: (zeros ++ digits v)) ++ (bytes "E+" ++ toDecimalInt (-scale)) =
          render (decide (v < 0)) [48] (zeros ++ digits v) (some (-scale)) := by
        rw [← render_eq, if_neg hfraction]
        simp only [List.append_assoc, List.cons_append, List.nil_append]
      rw [if_neg hshort, htext]
      refine reads_digits h (by simp) (by simp [Json.isDigit]) ?_ (.inr ⟨rfl, ?_⟩) (hexponent _) ?_
      · intro c hc
        rcases List.mem_append.mp hc with hc | hc
        · rw [List.eq_of_mem_replicate hc]
          rfl
        · exact isDigit_digits v c hc
      · rw [List.length_append, hzeros, List.length_replicate]
        unfold maxScale at hmax
        omega
      · exact (ofDecimal_zeros 1 _).trans (ofDecimal_zeros _ _)

/-- Otherwise the text has two exponents, or none that can be read. -/
lemma parse_print_scientific (h : IsParser parse) {v scale : Int} (hscale : 0 ≤ scale)
    (hplain : ¬(scale ≤ maxScale ∧ -6 ≤ adjustedExponent v scale)) (suffix : Bytes) :
    parse (print v scale ++ (bytes "E+" ++ suffix)) = none := by
  rw [print]
  by_cases hrange : scale < -maxScale ∨ maxScale < scale
  · rw [if_pos hrange]
    exact h.noBracket _ rfl
  · have hexponent : adjustedExponent v scale < -6 := by
      by_contra hnot
      exact hplain ⟨by omega, by omega⟩
    have hzero : scale ≠ 0 := by
      rintro rfl
      unfold adjustedExponent at hexponent
      have := List.length_pos_iff.mpr (digits_ne_nil v)
      omega
    rw [if_neg hrange, if_neg hzero, if_pos (.inr hexponent)]
    apply h.oneExponent
    have hE : (bytes "E+").count 69 = 1 := rfl
    simp only [List.count_append, List.count_cons_self, hE]
    omega

/-- A canonical text followed by the negated scale as an exponent is read exactly when it is not in scientific
notation. -/
theorem parse_print (h : IsParser parse) {v scale : Int} (hlen : (digits v).length ≤ 38) (hscale : 0 ≤ scale) :
    parse (print v scale ++ (bytes "E+" ++ toDecimalInt (-scale))) =
      if scale ≤ maxScale ∧ -6 ≤ adjustedExponent v scale then some v else none := by
  split_ifs with hplain
  · exact parse_print_plain h hlen hscale hplain.1 hplain.2
  · exact parse_print_scientific h hscale hplain _

/-- An integer is read. -/
lemma parse_toDecimalInt (h : IsParser parse) {v : Int} (hlen : (digits v).length ≤ 38) :
    parse (toDecimalInt v) = some v := by
  have htext : toDecimalInt v = render (decide (v < 0)) (digits v) [] none := by
    rw [toDecimalInt_eq]
    unfold sign render
    by_cases hneg : v < 0 <;> simp [hneg]
  rw [htext, h.reads _ _ _ _ (digits_ne_nil v) (isDigit_digits v) (by simp) (.inl (by simpa using hlen)) (by simp),
    List.append_nil]
  have := sign_mul_digits v
  by_cases hneg : v < 0
  · simpa [hneg] using this
  · simpa [hneg] using this

end IcebergCxx.Lib.DecimalText

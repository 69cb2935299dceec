import IcebergCxx.Lib.Json

/-!
# Reading numbers from a text stream

`std::stringstream` with its two operations `ignore` and `operator>>` for a 32-bit integer: white
space is skipped, then an optional sign and the longest run of decimal digits is read. An
extraction that finds no number fails and leaves zero, one that meets the end of the text before
it starts leaves the variable alone, and one out of range leaves the nearest value. `stoull` reads
a number from the start of a string in the same way and throws.
-/

namespace IcebergCxx.Lib

/-- The characters not read yet, and whether no operation has failed or reached the end. -/
structure StringStream where
  rest : Bytes
  good : Bool := true

namespace StringStream

def ignore (s : StringStream) (n : Nat) : StringStream :=
  if s.good then { rest := s.rest.drop n, good := decide (n ≤ s.rest.length) } else s

def isSpace (c : Byte) : Bool := c.val = 32 || (9 ≤ c.val && c.val ≤ 13)

/-- A leading sign, and what follows it. -/
def splitSign : Bytes → Int × Bytes
  | [] => (1, [])
  | c :: l => if c = 45 then (-1, l) else if c = 43 then (1, l) else (1, c :: l)

/-- The value of a sign and its digits in a variable of type `int32_t`, if it fits. -/
def storeInt32 (v : Int) : Int × Bool :=
  if v < -2 ^ 31 then (-2 ^ 31, false)
  else if 2 ^ 31 ≤ v then (2 ^ 31 - 1, false)
  else (v, true)

/-- `operator>>`; `old` is the value of the variable, if it has one. -/
def extractInt32 (s : StringStream) (old : Option Int) : Option Int × StringStream :=
  let t := s.rest.dropWhile isSpace
  if !s.good || t.isEmpty then (old, { rest := t, good := false })
  else
    let (sign, u) := splitSign t
    let digits := u.takeWhile Json.isDigit
    let rest := u.dropWhile Json.isDigit
    if digits.isEmpty then (some 0, { rest := rest, good := false })
    else
      let (v, fits) := storeInt32 (sign * Json.ofDecimal digits)
      (some v, { rest := rest, good := fits && !rest.isEmpty })

/-- `std::stoull`: a number after a minus sign is negated modulo `2 ^ 64`. -/
def stoull (s : Bytes) : Except String Nat :=
  let (sign, u) := splitSign (s.dropWhile isSpace)
  let digits := u.takeWhile Json.isDigit
  if digits.isEmpty ∨ 2 ^ 64 ≤ Json.ofDecimal digits then .error "stoull"
  else .ok (sign * Json.ofDecimal digits % 2 ^ 64).toNat

lemma ignore_append (w l : Bytes) : ignore { rest := w ++ l } w.length = { rest := l } := by
  simp [ignore]

/-! ### A numeral is read back -/

lemma dropWhile_isSpace_cons {c : Byte} (h : isSpace c = false) (l : Bytes) :
    (c :: l).dropWhile isSpace = c :: l := by
  simp [h]

lemma isSpace_of_isDigit {c : Byte} (h : Json.isDigit c = true) : isSpace c = false := by
  simp only [Json.isDigit, Bool.and_eq_true, decide_eq_true_eq] at h
  simp only [isSpace, Bool.or_eq_false_iff, Bool.and_eq_false_iff, decide_eq_false_iff_not]
  omega

lemma splitSign_toDecimal (n : Nat) (l : Bytes) : splitSign (toDecimal n ++ l) = (1, toDecimal n ++ l) := by
  obtain ⟨c, w, hw, hc⟩ := Json.toDecimal_head n
  have h1 : c ≠ 45 := (Json.ne_of_isDigit hc).2.2.2.2.1
  have h2 : c ≠ 43 := by
    rintro rfl
    revert hc
    decide
  rw [hw, List.cons_append, splitSign, if_neg h1, if_neg h2]

/-- The sign and the digits of a numeral. -/
lemma splitSign_toDecimalInt (i : Int) (l : Bytes) :
    ∃ sign : Int, splitSign (toDecimalInt i ++ l) = (sign, toDecimal i.natAbs ++ l) ∧ sign * i.natAbs = i := by
  cases i with
  | ofNat n =>
    refine ⟨1, splitSign_toDecimal n l, ?_⟩
    simp
  | negSucc n =>
    refine ⟨-1, rfl, ?_⟩
    rw [Int.natAbs_negSucc, Int.negSucc_eq]
    push_cast
    ring

/-- An optional sign and decimal digits, and their value. -/
def IsNumeral (s : Bytes) (i : Int) : Prop :=
  (splitSign s).2 ≠ [] ∧ (∀ c ∈ (splitSign s).2, Json.isDigit c = true) ∧
    (splitSign s).1 * Json.ofDecimal (splitSign s).2 = i

lemma isNumeral_toDecimalInt (i : Int) : IsNumeral (toDecimalInt i) i := by
  obtain ⟨sign, hsplit, hsign⟩ := splitSign_toDecimalInt i []
  rw [List.append_nil, List.append_nil] at hsplit
  rw [IsNumeral, hsplit, Json.ofDecimal_toDecimal]
  exact ⟨toDecimal_ne_nil _, Json.isDigit_toDecimal _, hsign⟩

lemma splitSign_append {s : Bytes} (h : s ≠ []) (l : Bytes) :
    splitSign (s ++ l) = ((splitSign s).1, (splitSign s).2 ++ l) := by
  cases s with
  | nil => exact absurd rfl h
  | cons c s =>
    simp only [List.cons_append, splitSign]
    split_ifs <;> rfl

lemma IsNumeral.head {s : Bytes} {i : Int} (h : IsNumeral s i) : ∃ c l, s = c :: l ∧ isSpace c = false := by
  obtain ⟨hne, hdigits, -⟩ := h
  cases s with
  | nil => exact absurd rfl hne
  | cons c s =>
    refine ⟨c, s, rfl, ?_⟩
    by_cases hminus : c = 45
    · rw [hminus]
      rfl
    · by_cases hplus : c = 43
      · rw [hplus]
        rfl
      · rw [splitSign, if_neg hminus, if_neg hplus] at hdigits
        exact isSpace_of_isDigit (hdigits c List.mem_cons_self)

/-- White space, a numeral and something that does not continue it. -/
theorem extractInt32_isNumeral {s : Bytes} {i : Int} (h : IsNumeral s i) (h1 : -2 ^ 31 ≤ i) (h2 : i < 2 ^ 31) {w : Bytes}
    (hw : ∀ c ∈ w, isSpace c = true) {c : Byte} (hc : Json.isDigit c = false) (l : Bytes) (old : Option Int) :
    extractInt32 { rest := w ++ (s ++ c :: l) } old = (some i, { rest := c :: l }) := by
  obtain ⟨d, u, hu, hd⟩ := h.head
  obtain ⟨hdigits, hall, hvalue⟩ := h
  have hdrop : (w ++ (s ++ c :: l)).dropWhile isSpace = s ++ c :: l := by
    rw [List.dropWhile_append_of_pos hw, hu, List.cons_append, dropWhile_isSpace_cons hd]
  have hne : (s ++ c :: l).isEmpty = false := by simp
  have hsplit : splitSign (s ++ c :: l) = ((splitSign s).1, (splitSign s).2 ++ c :: l) := by
    refine splitSign_append ?_ _
    rw [hu]
    exact List.cons_ne_nil _ _
  obtain ⟨htake, hrest⟩ := Json.takeWhile_append_noDigitHead hall (Json.noDigitHead_cons l hc)
  have hnonempty : (splitSign s).2.isEmpty = false := by simpa using hdigits
  have hstore : storeInt32 ((splitSign s).1 * Json.ofDecimal (splitSign s).2) = (i, true) := by
    rw [hvalue, storeInt32, if_neg (by omega), if_neg (by omega)]
  simp [extractInt32, hdrop, hne, hsplit, htake, hrest, hnonempty, hstore]

theorem extractInt32_toDecimalInt {i : Int} (h1 : -2 ^ 31 ≤ i) (h2 : i < 2 ^ 31) {w : Bytes}
    (hw : ∀ c ∈ w, isSpace c = true) {c : Byte} (hc : Json.isDigit c = false) (l : Bytes) (old : Option Int) :
    extractInt32 { rest := w ++ (toDecimalInt i ++ c :: l) } old = (some i, { rest := c :: l }) :=
  extractInt32_isNumeral (isNumeral_toDecimalInt i) h1 h2 hw hc l old

lemma stoull_toDecimal {n : Nat} (h : n < 2 ^ 64) : stoull (toDecimal n) = .ok n := by
  have hdrop : (toDecimal n).dropWhile isSpace = toDecimal n := by
    obtain ⟨c, l, hl, hc⟩ := Json.toDecimal_head n
    rw [hl, dropWhile_isSpace_cons (isSpace_of_isDigit hc)]
  have hsplit : splitSign (toDecimal n) = (1, toDecimal n) := by
    have := splitSign_toDecimal n []
    rwa [List.append_nil] at this
  have htake : (toDecimal n).takeWhile Json.isDigit = toDecimal n := by
    rw [List.takeWhile_eq_self_iff]
    exact Json.isDigit_toDecimal n
  have hne : (toDecimal n).isEmpty = false := by simpa using toDecimal_ne_nil n
  simp only [stoull, hdrop, hsplit, htake, hne, Json.ofDecimal_toDecimal]
  rw [if_neg (by simp; omega)]
  congr 1
  omega

end StringStream

end IcebergCxx.Lib

import IcebergCxx.Literals

/-!
# Hexadecimal literals

`std::stoi` is given two characters at a time. It skips white space, takes a sign and stops at the
first character that is no digit, so some pairs of characters are read that are not digits. On a text
without such pairs the parser is strict.
-/

namespace IcebergCxx.Proofs

open Lib

/-- An even number of hexadecimal digits. -/
def HexBytes (str : Bytes) : Prop := str.length % 2 = 0 ∧ ∀ c ∈ str, Hex.isDigit c = true

/-- There is a number in two characters: a digit stands first, or follows white space or a sign. -/
def FindsNumber (a b : Byte) : Prop :=
  Hex.isDigit a = true ∨ (StringStream.isSpace a = true ∨ a = 45 ∨ a = 43) ∧ Hex.isDigit b = true

/-- There is no number in the two characters of byte `i`. -/
def Unreadable (str : Bytes) (i : Nat) : Prop := ∃ a b rest, str.drop (i * 2) = a :: b :: rest ∧ ¬FindsNumber a b

/-- `DeserializeHexadecimal` accepts the text exactly when it is hexadecimal, gives the only byte string with this text,
and otherwise throws. The length is given as an `int`. -/
structure ParsedStrictly (str : Bytes) : Prop where
  accepts : (∃ b, deserializeHexadecimal str (wrapInt32 str.length) = .ok b) ↔ HexBytes str
  inverts : ∀ b, deserializeHexadecimal str (wrapInt32 str.length) = .ok b →
    ∀ b', convertBinaryToHexadecimal b' = str.map Hex.lower ↔ b' = b
  rejects : ¬HexBytes str → Throws (deserializeHexadecimal str (wrapInt32 str.length))

/-- Hexadecimal texts that an `int` can count, texts of odd length, and texts with a pair of characters without a number
among those that are read. -/
def HexUnambiguous (str : Bytes) : Prop :=
  (HexBytes str ∧ str.length < 2 ^ 31) ∨ str.length % 2 = 1 ∨
    ∃ i : Nat, (i : Int) < wrapInt32 str.length / 2 ∧ Unreadable str i

/-! ### Two characters -/

lemma plain_of_isDigit : ∀ c : Byte, Hex.isDigit c = true → StringStream.isSpace c = false ∧ c ≠ 45 ∧ c ≠ 43 := by
  decide +kernel

/-- The sign and the digits that `std::stoi` finds. -/
def stoiParts (s : Bytes) : Int × Bytes :=
  let (sign, u) := StringStream.splitSign (s.dropWhile StringStream.isSpace)
  (sign, u.takeWhile Hex.isDigit)

lemma splitSign_sign (s : Bytes) : (StringStream.splitSign s).1 = 1 ∨ (StringStream.splitSign s).1 = -1 := by
  cases s with
  | nil => exact .inl rfl
  | cons c s =>
    simp only [StringStream.splitSign]
    split_ifs <;> simp

lemma length_splitSign (s : Bytes) : (StringStream.splitSign s).2.length ≤ s.length := by
  cases s with
  | nil => exact le_rfl
  | cons c s =>
    simp only [StringStream.splitSign]
    split_ifs <;> simp

lemma skipHexPrefix_short {s : Bytes} (h : s.length ≤ 2) : skipHexPrefix s = s := by
  unfold skipHexPrefix
  split
  · simp at h
  · rfl

/-- Two characters are too few for a prefix or a number out of range. -/
lemma stoi16_short {s : Bytes} (h : s.length ≤ 2) :
    stoi16 s = if (stoiParts s).2.isEmpty then .error "stoi" else .ok ((stoiParts s).1 * Hex.value (stoiParts s).2) := by
  have hdrop : (s.dropWhile StringStream.isSpace).length ≤ 2 := (List.dropWhile_suffix _).length_le.trans h
  have hsplit := (length_splitSign (s.dropWhile StringStream.isSpace)).trans hdrop
  have hskip := skipHexPrefix_short hsplit
  have hlen : (stoiParts s).2.length ≤ 2 := (List.takeWhile_prefix _).length_le.trans hsplit
  have hvalue : Hex.value (stoiParts s).2 < 16 ^ 2 :=
    (Hex.value_lt _).trans_le (Nat.pow_le_pow_right (by norm_num) hlen)
  have hsign : (stoiParts s).1 = 1 ∨ (stoiParts s).1 = -1 := splitSign_sign _
  have hrange : -2 ^ 31 ≤ (stoiParts s).1 * Hex.value (stoiParts s).2 ∧
      (stoiParts s).1 * Hex.value (stoiParts s).2 < 2 ^ 31 := by
    rcases hsign with hsign | hsign <;> rw [hsign] <;> omega
  have hunfold : stoi16 s = if (stoiParts s).2.isEmpty then .error "stoi"
      else if -2 ^ 31 ≤ (stoiParts s).1 * Hex.value (stoiParts s).2 ∧
        (stoiParts s).1 * Hex.value (stoiParts s).2 < 2 ^ 31
      then .ok ((stoiParts s).1 * Hex.value (stoiParts s).2) else .error "stoi" := by
    unfold stoi16 stoiParts
    simp only [hskip]
  rw [hunfold, if_pos hrange]

lemma stoiParts_digits {a b : Byte} (ha : Hex.isDigit a = true) (hb : Hex.isDigit b = true) :
    stoiParts [a, b] = (1, [a, b]) := by
  obtain ⟨hspace, hminus, hplus⟩ := plain_of_isDigit a ha
  simp [stoiParts, StringStream.splitSign, hspace, hminus, hplus, ha, hb]

lemma stoiParts_space {a : Byte} (h : StringStream.isSpace a = true) (b : Byte) : stoiParts [a, b] = stoiParts [b] := by
  simp [stoiParts, h]

lemma stoiParts_singleton (b : Byte) : (stoiParts [b]).2 = if Hex.isDigit b then [b] else [] := by
  by_cases hdigit : Hex.isDigit b = true
  · obtain ⟨hspace, hminus, hplus⟩ := plain_of_isDigit b hdigit
    simp [stoiParts, StringStream.splitSign, hspace, hminus, hplus, hdigit]
  · by_cases hsign : b = 45 ∨ b = 43
    · rcases hsign with rfl | rfl <;> rfl
    · obtain ⟨hminus, hplus⟩ := not_or.mp hsign
      cases hspace : StringStream.isSpace b <;> simp [stoiParts, StringStream.splitSign, hspace, hminus, hplus, hdigit]

/-- Some digit is found in two characters exactly when there is a number in them. -/
lemma stoiParts_nonempty (a b : Byte) : (stoiParts [a, b]).2.isEmpty = false ↔ FindsNumber a b := by
  unfold FindsNumber
  by_cases ha : Hex.isDigit a = true
  · obtain ⟨hspace, hminus, hplus⟩ := plain_of_isDigit a ha
    simp [stoiParts, StringStream.splitSign, hspace, hminus, hplus, ha]
  · by_cases hspace : StringStream.isSpace a = true
    · rw [stoiParts_space hspace, stoiParts_singleton]
      cases hdigit : Hex.isDigit b <;> simp [ha, hspace]
    · by_cases hsign : a = 45 ∨ a = 43
      · have hparts : (stoiParts [a, b]).2 = [b].takeWhile Hex.isDigit := by
          rcases hsign with rfl | rfl <;> rfl
        cases hdigit : Hex.isDigit b <;> simp [hparts, ha, hsign, hdigit]
      · obtain ⟨hminus, hplus⟩ := not_or.mp hsign
        simp [stoiParts, StringStream.splitSign, hspace, hminus, hplus, ha]

lemma hexByte_iff (a b : Byte) : (∃ x, hexByte [a, b] = .ok x) ↔ FindsNumber a b := by
  rw [← stoiParts_nonempty, hexByte, stoi16_short (s := [a, b]) le_rfl]
  cases (stoiParts [a, b]).2.isEmpty with
  | true =>
    rw [if_pos rfl, error_bind]
    simp
  | false =>
    rw [if_neg (by simp), ok_bind]
    exact ⟨fun _ => rfl, fun _ => ⟨_, rfl⟩⟩

lemma hexByte_digits {a b : Byte} (ha : Hex.isDigit a = true) (hb : Hex.isDigit b = true) :
    ∃ x, hexByte [a, b] = .ok x ∧ Hex.numeral 2 x.val = [Hex.lower a, Hex.lower b] := by
  have hlt : Hex.value [a, b] < 16 ^ 2 := Hex.value_lt _
  refine ⟨Fin.ofNat 256 (Hex.value [a, b]), ?_, ?_⟩
  · rw [hexByte, stoi16_short (s := [a, b]) le_rfl, stoiParts_digits ha hb, if_neg (by simp), ok_bind, one_mul]
    have hmod : ((Hex.value [a, b] : Int) % 256).toNat = Hex.value [a, b] := by omega
    rw [hmod]
    rfl
  · have hval : (Fin.ofNat 256 (Hex.value [a, b])).val = Hex.value [a, b] := Nat.mod_eq_of_lt hlt
    rw [hval]
    exact Hex.numeral_value [a, b] (List.forall_mem_cons.mpr ⟨ha, List.forall_mem_singleton.mpr hb⟩)

/-! ### The loop -/

/-- The loop over the bytes. -/
def hexLoop (str : Bytes) (n : Nat) : Except String Bytes :=
  (List.range n).mapM (fun i => hexByte ((str.drop (i * 2)).take 2))

lemma hexLoop_succ (a b : Byte) (rest : Bytes) (n : Nat) :
    hexLoop (a :: b :: rest) (n + 1) = do
      let x ← hexByte [a, b]
      let xs ← hexLoop rest n
      return x :: xs := by
  have hshift : (fun i => hexByte (((a :: b :: rest).drop ((i + 1) * 2)).take 2)) =
      fun i => hexByte ((rest.drop (i * 2)).take 2) := by
    funext i
    rw [Nat.succ_mul]
    rfl
  rw [hexLoop, List.range_succ_eq_map, List.mapM_cons, List.mapM_map]
  simp only [Function.comp_def, Nat.succ_eq_add_one, hshift]
  rfl

lemma length_hexLoop {str b : Bytes} {n : Nat} (h : hexLoop str n = .ok b) : b.length = n := by
  have := (mapM_ok_iff.mp h).length_eq
  rw [List.length_range] at this
  exact this.symm

lemma exists_pair {str : Bytes} {n i : Nat} (h : 2 * n ≤ str.length) (hi : i < n) :
    ∃ a b rest, str.drop (i * 2) = a :: b :: rest := by
  have hlen : 2 ≤ (str.drop (i * 2)).length := by
    rw [List.length_drop]
    omega
  match hdrop : str.drop (i * 2) with
  | [] => simp [hdrop] at hlen
  | [_] => simp [hdrop] at hlen
  | a :: b :: rest => exact ⟨a, b, rest, rfl⟩

/-- The loop succeeds exactly when there is a number for each of its bytes. -/
lemma hexLoop_iff {str : Bytes} {n : Nat} (h : 2 * n ≤ str.length) :
    (∃ b, hexLoop str n = .ok b) ↔ ∀ i < n, ¬Unreadable str i := by
  constructor
  · rintro ⟨b, hb⟩ i hi ⟨x, y, rest, hdrop, hnot⟩
    have hlen := length_hexLoop hb
    have hget := List.forall₂_iff_get.mp (mapM_ok_iff.mp hb)
    have hbyte := hget.2 i (by simpa using hi) (by omega)
    rw [List.get_eq_getElem, List.getElem_range, hdrop] at hbyte
    exact hnot ((hexByte_iff x y).mp ⟨_, hbyte⟩)
  · intro hall
    induction n generalizing str with
    | zero => exact ⟨[], rfl⟩
    | succ n ih =>
      obtain ⟨x, y, rest, rfl⟩ : ∃ x y rest, str = x :: y :: rest := exists_pair (i := 0) h (by omega)
      have hfirst : FindsNumber x y := not_not.mp (fun hnot => hall 0 (by omega) ⟨x, y, rest, rfl, hnot⟩)
      have hrest : ∀ i < n, ¬Unreadable rest i := by
        rintro i hi ⟨a, b, tail, hdrop, hnot⟩
        refine hall (i + 1) (by omega) ⟨a, b, tail, ?_, hnot⟩
        rw [Nat.succ_mul]
        exact hdrop
      obtain ⟨v, hv⟩ := (hexByte_iff x y).mpr hfirst
      obtain ⟨vs, hvs⟩ := ih (by simp at h; omega) hrest
      exact ⟨v :: vs, by rw [hexLoop_succ, hv, ok_bind, hvs, ok_bind]; rfl⟩

/-- Digits are read as the byte string that they write. -/
lemma hexLoop_digits {str : Bytes} {n : Nat} (hlen : str.length = 2 * n) (hdigits : ∀ c ∈ str, Hex.isDigit c = true) :
    ∃ b, hexLoop str n = .ok b ∧ Hex.encode b = str.map Hex.lower := by
  induction n generalizing str with
  | zero =>
    obtain rfl := List.length_eq_zero_iff.mp hlen
    exact ⟨[], rfl, rfl⟩
  | succ n ih =>
    obtain ⟨x, y, rest, rfl⟩ : ∃ x y rest, str = x :: y :: rest := exists_pair (i := 0) hlen.ge (by omega)
    obtain ⟨hx, htail⟩ := List.forall_mem_cons.mp hdigits
    obtain ⟨hy, hrest⟩ := List.forall_mem_cons.mp htail
    obtain ⟨v, hv, hpair⟩ := hexByte_digits hx hy
    obtain ⟨vs, hvs, hencode⟩ := ih (by simp at hlen; omega) hrest
    refine ⟨v :: vs, by rw [hexLoop_succ, hv, ok_bind, hvs, ok_bind]; rfl, ?_⟩
    rw [Hex.encode_cons, hpair, hencode]
    rfl

/-! ### The writer -/

lemma hexDigits_getD : ∀ n < 16, hexDigits.getD n 0 = Hex.digit n := by decide

/-- `ConvertBinaryToHexadecimal` writes two digits for each byte. -/
lemma convertBinaryToHexadecimal_eq (b : Bytes) : convertBinaryToHexadecimal b = Hex.encode b := by
  have hbyte : ∀ x : Byte, [hexDigits.getD (x.val >>> 4) 0] ++ [hexDigits.getD (x.val &&& 0x0F) 0] =
      Hex.numeral 2 x.val := by
    intro x
    have hhigh : x.val >>> 4 = x.val / 16 := by rw [Nat.shiftRight_eq_div_pow]
    have hlow : x.val &&& 0x0F = x.val % 16 := Nat.and_two_pow_sub_one_eq_mod x.val 4
    have hquot : x.val / 16 < 16 := by omega
    rw [hhigh, hlow, hexDigits_getD _ hquot, hexDigits_getD _ (Nat.mod_lt _ (by norm_num))]
    simp [Hex.numeral, Nat.mod_eq_of_lt hquot]
  have hfold : ∀ (l hex : Bytes), l.foldl (fun hex byte =>
      hex ++ [hexDigits.getD (byte.val >>> 4) 0] ++ [hexDigits.getD (byte.val &&& 0x0F) 0]) hex =
        hex ++ Hex.encode l := by
    intro l
    induction l with
    | nil => exact fun hex => (List.append_nil hex).symm
    | cons x l ih =>
      intro hex
      rw [List.foldl_cons, ih, List.append_assoc hex, hbyte, Hex.encode_cons, List.append_assoc]
  exact hfold b []

/-! ### The parser -/

lemma deserializeHexadecimal_even {str : Bytes} {length : Int} (h : length % 2 = 0) (hnonneg : 0 ≤ length) :
    deserializeHexadecimal str length = throwing (hexLoop str (length / 2).toNat) := by
  rw [deserializeHexadecimal, decide_eq_true h]
  exact if_neg (by omega)

lemma deserializeHexadecimal_odd (str : Bytes) {length : Int} (h : length % 2 ≠ 0) :
    Throws (deserializeHexadecimal str length) := by
  rw [deserializeHexadecimal, decide_eq_false h]
  exact ⟨_, rfl⟩

lemma deserializeHexadecimal_negative (str : Bytes) {length : Int} (h : length % 2 = 0) (hneg : length < 0) :
    deserializeHexadecimal str length = .error .undefined := by
  rw [deserializeHexadecimal, decide_eq_true h]
  exact if_pos hneg

lemma wrapInt32_le_length (n : Nat) : wrapInt32 n ≤ n := by
  obtain ⟨k, hk, hmin, hmax⟩ := wrapInt32_spec n
  omega

lemma wrapInt32_even_iff (n : Nat) : wrapInt32 n % 2 = 0 ↔ n % 2 = 0 := by
  obtain ⟨k, hk, -, -⟩ := wrapInt32_spec n
  omega

lemma wrapInt32_eq_iff (n : Nat) : wrapInt32 n = n ↔ n < 2 ^ 31 := by
  obtain ⟨k, hk, hmin, hmax⟩ := wrapInt32_spec n
  omega

lemma wrapInt32_even_cases (n : Nat) (h : n % 2 = 0) :
    wrapInt32 n < 0 ∨ 0 ≤ wrapInt32 n ∧ 2 * (wrapInt32 n / 2).toNat ≤ n := by
  have := wrapInt32_le_length n
  omega

lemma not_hexBytes_of_unreadable {str : Bytes} {i : Nat} (h : Unreadable str i) : ¬HexBytes str := by
  rintro ⟨-, hdigits⟩
  obtain ⟨a, b, rest, hdrop, hnot⟩ := h
  have hmem : a ∈ str.drop (i * 2) := by
    rw [hdrop]
    exact List.mem_cons_self
  exact hnot (.inl (hdigits a (List.mem_of_mem_drop hmem)))

lemma inverts_of_encode {str b : Bytes} (h : Hex.encode b = str.map Hex.lower) (b' : Bytes) :
    convertBinaryToHexadecimal b' = str.map Hex.lower ↔ b' = b := by
  rw [convertBinaryToHexadecimal_eq, ← h]
  exact ⟨Hex.encode_inj, fun hb => by rw [hb]⟩

/-- Hexadecimal texts that an `int` can count are read right. -/
lemma deserializeHexadecimal_hexBytes {str : Bytes} (h : HexBytes str) (hlen : str.length < 2 ^ 31) :
    ∃ b, deserializeHexadecimal str (wrapInt32 str.length) = .ok b ∧ Hex.encode b = str.map Hex.lower := by
  obtain ⟨heven, hdigits⟩ := h
  have hhalf : str.length = 2 * ((str.length : Int) / 2).toNat := by omega
  obtain ⟨b, hb, hencode⟩ := hexLoop_digits hhalf hdigits
  refine ⟨b, ?_, hencode⟩
  rw [(wrapInt32_eq_iff _).mpr hlen, deserializeHexadecimal_even (by omega) (by omega), hb]
  rfl

/-- What was read has half as many bytes as an `int` counts characters. -/
lemma length_deserializeHexadecimal {str b : Bytes} (h : deserializeHexadecimal str (wrapInt32 str.length) = .ok b) :
    str.length % 2 = 0 ∧ (2 * b.length : Int) = wrapInt32 str.length := by
  have heven : wrapInt32 str.length % 2 = 0 := by
    by_contra hodd
    obtain ⟨message, hthrow⟩ := deserializeHexadecimal_odd str hodd
    rw [h] at hthrow
    cases hthrow
  have hnonneg : 0 ≤ wrapInt32 str.length := by
    by_contra hneg
    rw [deserializeHexadecimal_negative str heven (by omega)] at h
    cases h
  rw [deserializeHexadecimal_even heven hnonneg] at h
  cases hloop : hexLoop str (wrapInt32 str.length / 2).toNat with
  | error message =>
    rw [hloop] at h
    cases h
  | ok b' =>
    rw [hloop] at h
    cases h
    have := length_hexLoop hloop
    exact ⟨(wrapInt32_even_iff _).mp heven, by omega⟩

lemma parsedStrictly_of_throws {str : Bytes} (h : ¬HexBytes str)
    (hthrows : Throws (deserializeHexadecimal str (wrapInt32 str.length))) : ParsedStrictly str := by
  obtain ⟨message, hthrow⟩ := hthrows
  refine ⟨⟨?_, fun hhex => absurd hhex h⟩, fun b hb => ?_, fun _ => ⟨message, hthrow⟩⟩
  · rintro ⟨b, hb⟩
    rw [hthrow] at hb
    cases hb
  · rw [hthrow] at hb
    cases hb

/-- A byte string is read back from its text exactly when an `int` can count the text. -/
lemma deserializeHexadecimal_convert_iff (b : Bytes) :
    deserializeHexadecimal (convertBinaryToHexadecimal b) (wrapInt32 (convertBinaryToHexadecimal b).length) = .ok b ↔
      b.length < 2 ^ 30 := by
  constructor
  · intro h
    have hlen := (length_deserializeHexadecimal h).2
    rw [convertBinaryToHexadecimal_eq, Hex.length_encode] at hlen
    have := (wrapInt32_eq_iff (2 * b.length)).mp (by exact_mod_cast hlen.symm)
    omega
  · intro h
    rw [convertBinaryToHexadecimal_eq]
    have hhex : HexBytes (Hex.encode b) := ⟨by simp, fun c hc => Hex.isDigit_of_mem_encode hc⟩
    obtain ⟨b', hb', hencode⟩ := deserializeHexadecimal_hexBytes hhex (by rw [Hex.length_encode]; omega)
    have hlower : (Hex.encode b).map Hex.lower = Hex.encode b := by
      simp [Hex.encode, List.map_flatMap, Hex.map_lower_numeral]
    rw [hlower] at hencode
    rw [hb', Hex.encode_inj hencode]

/-- `DeserializeHexadecimal` is strict exactly on the texts that are unambiguous for it, and it inverts
`ConvertBinaryToHexadecimal` exactly on the byte strings whose text an `int` can count. -/
theorem deserializeHexadecimal_strict_iff (str b : Bytes) :
    (ParsedStrictly str ↔ HexUnambiguous str) ∧
    (deserializeHexadecimal (convertBinaryToHexadecimal b) (wrapInt32 (convertBinaryToHexadecimal b).length) = .ok b ↔
      b.length < 2 ^ 30) := by
  refine ⟨⟨fun h => ?_, ?_⟩, deserializeHexadecimal_convert_iff b⟩
  · by_cases hhex : HexBytes str
    · obtain ⟨b, hb⟩ := h.accepts.mpr hhex
      refine .inl ⟨hhex, (wrapInt32_eq_iff _).mp ?_⟩
      have hwritten := congrArg List.length ((h.inverts b hb b).mpr rfl)
      rw [convertBinaryToHexadecimal_eq, Hex.length_encode, List.length_map] at hwritten
      rw [← (length_deserializeHexadecimal hb).2]
      exact_mod_cast hwritten
    · refine .inr ?_
      by_cases hodd : str.length % 2 = 1
      · exact .inl hodd
      have heven : str.length % 2 = 0 := by omega
      have hwrap := (wrapInt32_even_iff _).mpr heven
      obtain ⟨message, hthrow⟩ := h.rejects hhex
      rcases wrapInt32_even_cases _ heven with hneg | ⟨hnonneg, hle⟩
      · rw [deserializeHexadecimal_negative str hwrap hneg] at hthrow
        cases hthrow
      · by_contra hnone
        have hall : ∀ i < (wrapInt32 str.length / 2).toNat, ¬Unreadable str i :=
          fun i hi hbad => hnone (.inr ⟨i, by omega, hbad⟩)
        obtain ⟨b, hb⟩ := (hexLoop_iff hle).mpr hall
        rw [deserializeHexadecimal_even hwrap hnonneg, hb] at hthrow
        cases hthrow
  · rintro (⟨hhex, hlen⟩ | hodd | ⟨i, hi, hbad⟩)
    · obtain ⟨b, hb, hencode⟩ := deserializeHexadecimal_hexBytes hhex hlen
      refine ⟨⟨fun _ => hhex, fun _ => ⟨b, hb⟩⟩, fun c hc => ?_, fun h => absurd hhex h⟩
      rw [hb] at hc
      cases hc
      exact inverts_of_encode hencode
    · have hwrap : wrapInt32 str.length % 2 ≠ 0 := by
        rw [Ne, wrapInt32_even_iff]
        omega
      refine parsedStrictly_of_throws (fun hhex => ?_) (deserializeHexadecimal_odd str hwrap)
      have := hhex.1
      omega
    · have hhex := not_hexBytes_of_unreadable hbad
      refine parsedStrictly_of_throws hhex ?_
      by_cases heven : wrapInt32 str.length % 2 = 0
      · have hle := wrapInt32_le_length str.length
        rw [deserializeHexadecimal_even heven (by omega)]
        cases hloop : hexLoop str (wrapInt32 str.length / 2).toNat with
        | error message => exact ⟨message, rfl⟩
        | ok b => exact absurd hbad ((hexLoop_iff (by omega)).mp ⟨b, hloop⟩ i (by omega))
      · exact deserializeHexadecimal_odd str heven

/-- A sign before a digit is read as one byte. -/
theorem deserializeHexadecimal_accepts_sign : ¬ParsedStrictly (bytes "+1") := by
  intro h
  have hhex := h.accepts.mp ⟨[1], by decide +kernel⟩
  exact absurd (hhex.2 43 (by decide)) (by decide)

end IcebergCxx.Proofs

import IcebergCxx.Lib.DecimalText
import IcebergCxx.Lib.Rearrange
import IcebergCxx.Proofs.Hexadecimal
import IcebergCxx.Proofs.TableMetadata
import IcebergCxx.Proofs.Transforms

/-!
# Default values are read back

Arrow prints scalars and parses decimals and points in time; what it documents is an assumption here. The writer
follows the canonical text of a decimal, which has an exponent of its own when the number is small, and takes zeros
off the end that the number zero does not have.
-/

namespace IcebergCxx.Proofs

open Lib

/-- What Arrow documents of its texts: canonical texts of decimals, the bytes of strings, and texts of points in time
that its parser inverts. -/
structure Documented (lib : ArrowTexts) : Prop where
  decimal : ∀ value precision scale,
    lib.scalarToString (.decimal128 value precision scale) = DecimalText.print value scale
  decimalFromString : DecimalText.IsParser lib.decimalFromString
  string : ∀ value, lib.scalarToString (.string value) = value
  fixedSizeBinary : ∀ value byteWidth, lib.scalarToString (.fixedSizeBinary value byteWidth) = value
  binary : ∀ value, lib.scalarToString (.binary value) = value
  date : ∀ value : Int32,
    lib.parseISO8601 (lib.scalarToString (.date32 value)) .second = some (Int64.ofInt (value.toInt * 86400))
  time : ∀ value : Int64, 0 ≤ value.toInt ∧ value.toInt < 86400000000 →
    (0 : Byte) ∉ lib.scalarToString (.time64 value) ∧
      lib.parseISO8601 (bytes "1970-01-01T" ++ lib.scalarToString (.time64 value)) .micro = some value
  timestamp : ∀ value unit utc, lib.parseISO8601 (lib.scalarToString (.timestamp value unit utc)) unit = some value

/-- A value of a decimal type: a scalar of its Arrow type or, for a negative scale, one with the scale 0 that the reader
makes. -/
def DecimalValue (precision scale value p s : Int) : Prop :=
  0 < precision ∧ InInt32 scale ∧
    ((precision ≤ 38 ∧ p = precision ∧ s = scale ∧ value.natAbs < 10 ^ precision.toNat) ∨
      (scale < 0 ∧ p = precision - scale ∧ p ≤ 38 ∧ s = 0 ∧
        ∃ u : Int, value = u * 10 ^ (-scale).toNat ∧ u.natAbs < 10 ^ precision.toNat))

/-- The values of a type. An element of a list is null or has the Arrow type of the elements. -/
def IsValue : IceType → ArrowScalar → Prop
  | .boolean, .boolean _ => True
  | .int, .int32 _ => True
  | .long, .int64 _ => True
  | .decimal precision scale, .decimal128 value p s => DecimalValue precision scale value p s
  | .date, .date32 _ => True
  | .time, .time64 value => 0 ≤ value.toInt ∧ value.toInt < 86400000000
  | .timestamp, .timestamp _ unit utc => unit = .micro ∧ utc = false
  | .timestamptz, .timestamp _ unit utc => unit = .micro ∧ utc = true
  | .timestampNs, .timestamp _ unit utc => unit = .nano ∧ utc = false
  | .timestamptzNs, .timestamp _ unit utc => unit = .nano ∧ utc = true
  | .string, .string value => (0 : Byte) ∉ value
  | .uuid, .fixedSizeBinary value byteWidth => byteWidth = 16 ∧ value.length = 16
  | .fixed size, .fixedSizeBinary value byteWidth => byteWidth = size ∧ (value.length : Int) = size
  | .binary, .binary _ => True
  | .list _ required elementType, .list valueType elements => valueType = convertToDataType elementType ∧
      ∀ element ∈ elements, (required = false ∧ element = .null valueType) ∨
        (element.type = valueType ∧ IsValue elementType element)
  | _, _ => False

/-- A default value is written and read back. -/
def LiteralRoundTrips (lib : ArrowTexts) (type : IceType) (scalar : ArrowScalar) : Prop :=
  (serializeLiteral lib type scalar >>= deserializeScalar lib type) = .ok scalar

/-- Decimals that Arrow prints without an exponent or, with a negative scale, that end in zeros; byte strings whose
hexadecimal text an `int` can count; lists of such values. -/
def Readable : IceType → ArrowScalar → Prop
  | _, .null _ => False
  | .decimal _ scale, .decimal128 value _ s =>
    if scale < 0 then s = 0 ∧ (value ≠ 0 ∨ scale = -1) else scale ≤ 38 ∧ -6 ≤ DecimalText.adjustedExponent value scale
  | .fixed _, .fixedSizeBinary value _ => value.length < 2 ^ 30
  | .binary, .binary value => value.length < 2 ^ 30
  | .list _ _ elementType, .list _ elements => ∀ element ∈ elements, Readable elementType element
  | _, _ => True

/-! ### Checks -/

lemma require_true {c : Bool} (h : c = true) (message : String) : require c message = .ok () := by
  rw [h]
  rfl

lemma require_false {c : Bool} (h : c = false) (message : String) : require c message = .error (.thrown message) := by
  rw [h]
  rfl

/-! ### Decimals -/

lemma length_digits {precision scale value p s : Int} (h : DecimalValue precision scale value p s) :
    (DecimalText.digits value).length ≤ 38 := by
  obtain ⟨hpos, -, ⟨hmax, -, -, hvalue⟩ | ⟨hscale, hp, hmax, -, u, rfl, hu⟩⟩ := h
  · exact (DecimalText.length_digits_le (by omega) hvalue).trans (by omega)
  · have hvalue : (u * 10 ^ (-scale).toNat).natAbs < 10 ^ (precision.toNat + (-scale).toNat) := by
      rw [Int.natAbs_mul, Int.natAbs_pow, pow_add]
      exact Nat.mul_lt_mul_of_pos_right hu (by positivity)
    exact (DecimalText.length_digits_le (by omega) hvalue).trans (by omega)

lemma popZeros_append (n : Nat) (str : Bytes) : popZeros n (str ++ List.replicate n 48) = .ok str := by
  induction n with
  | zero => rw [List.replicate_zero, List.append_nil, popZeros]
  | succ n ih =>
    rw [List.replicate_succ', ← List.append_assoc, popZeros, List.getLast?_concat, if_pos rfl, List.dropLast_concat, ih]

lemma popZeros_zero {n : Nat} (h : 2 ≤ n) : Throws (popZeros n [48]) := by
  obtain ⟨n, rfl⟩ := Nat.exists_eq_add_of_le' h
  exact ⟨_, rfl⟩

lemma zero_notMem_exponent (e : Int) : (0 : Byte) ∉ bytes "E+" ++ toDecimalInt e :=
  List.not_mem_append (by decide) (Json.zero_notMem_toDecimalInt e)

/-- With the scale of its type, a decimal is read unless Arrow printed it with an exponent. -/
lemma roundTrips_decimal {lib : ArrowTexts} (hlib : Documented lib) {precision scale value : Int}
    (h : DecimalValue precision scale value precision scale) (hprecision : precision ≤ 38) (hscale : 0 ≤ scale) :
    LiteralRoundTrips lib (.decimal precision scale) (.decimal128 value precision scale) ↔
      scale ≤ 38 ∧ -6 ≤ DecimalText.adjustedExponent value scale := by
  have hzeros : (-scale).toNat = 0 := by omega
  have hserialize : serializeLiteral lib (.decimal precision scale) (.decimal128 value precision scale) =
      .ok (.string (DecimalText.print value scale ++ (bytes "E+" ++ toDecimalInt (-scale)))) := by
    rw [serializeLiteral_decimal, serializeDecimal, hlib.decimal, hzeros, popZeros, ok_bind, List.append_assoc]
    rfl
  have hzero : (0 : Byte) ∉ DecimalText.print value scale ++ (bytes "E+" ++ toDecimalInt (-scale)) :=
    List.not_mem_append (DecimalText.zero_notMem_print value scale) (zero_notMem_exponent _)
  rw [LiteralRoundTrips, hserialize, ok_bind, deserializeScalar_decimal, deserializeDecimal, expectString, ok_bind,
    cString_of_notMem hzero, expandScale, if_neg (by omega), ok_bind]
  simp only [require_true (decide_eq_true hprecision), ok_bind,
    DecimalText.parse_print hlib.decimalFromString (length_digits h) hscale]
  have hmax : DecimalText.maxScale = 38 := rfl
  rw [hmax]
  split_ifs with hplain
  · exact ⟨fun _ => hplain, fun _ => rfl⟩
  · refine iff_of_false (fun hread => ?_) hplain
    cases hread

/-- What is read of a negative scale has the scale 0. -/
lemma deserializeDecimal_scale {lib : ArrowTexts} {precision scale : Int} (hscale : scale < 0) {document : Json}
    {scalar : ArrowScalar} (h : deserializeDecimal lib precision scale document = .ok scalar) :
    ∃ value p, scalar = .decimal128 value p 0 := by
  rw [deserializeDecimal] at h
  obtain ⟨s, -, h⟩ := bind_ok h
  obtain ⟨⟨str, p, s'⟩, hexpand, h⟩ := bind_ok h
  rw [expandScale, if_pos hscale] at hexpand
  obtain ⟨it, -, hexpand⟩ := bind_ok hexpand
  obtain ⟨strScale, -, hexpand⟩ := bind_ok hexpand
  obtain ⟨-, -, hexpand⟩ := bind_ok hexpand
  cases hexpand
  obtain ⟨-, -, h⟩ := bind_ok h
  obtain ⟨value, -, h⟩ := bind_ok h
  cases h
  exact ⟨value, _, rfl⟩

lemma not_roundTrips_negativeScale {lib : ArrowTexts} {precision scale value p s : Int} (hscale : scale < 0)
    (hs : s ≠ 0) : ¬LiteralRoundTrips lib (.decimal precision scale) (.decimal128 value p s) := by
  intro h
  obtain ⟨document, -, hread⟩ := bind_ok h
  obtain ⟨value', p', heq⟩ := deserializeDecimal_scale hscale hread
  cases heq
  exact hs rfl

/-- The reader puts back the zeros that the writer has taken off. -/
lemma deserializeDecimal_expand {lib : ArrowTexts} (hlib : Documented lib) {precision scale value : Int} {str : Bytes}
    (hpos : 0 < precision) (hscale : scale < 0) (hprecision : precision - scale ≤ 38)
    (hdigits : (DecimalText.digits value).length ≤ 38)
    (hvalue : str ++ List.replicate (-scale).toNat 48 = toDecimalInt value) :
    deserializeDecimal lib precision scale (.string (str ++ (bytes "E+" ++ toDecimalInt (-scale)))) =
      .ok (.decimal128 value (precision - scale) 0) := by
  have hsubset : ∀ c ∈ str, c ∈ toDecimalInt value := by
    rw [← hvalue]
    exact fun c hc => List.mem_append_left _ hc
  have hE : (69 : Byte) ∉ str :=
    fun h => DecimalText.notMem_toDecimalInt (by decide) (by decide) value (hsubset _ h)
  have hzero : (0 : Byte) ∉ str ++ (bytes "E+" ++ toDecimalInt (-scale)) :=
    List.not_mem_append (fun h => Json.zero_notMem_toDecimalInt value (hsubset _ h)) (zero_notMem_exponent _)
  have hfind : find (bytes "E+") (str ++ (bytes "E+" ++ toDecimalInt (-scale))) = some str.length :=
    find_append hE (toDecimalInt (-scale))
  have hdrop : (str ++ (bytes "E+" ++ toDecimalInt (-scale))).drop (str.length + 2) = toDecimalInt (-scale) := by
    rw [List.drop_length_add_append]
    rfl
  have hstoi : ParquetWrite.stoi (toDecimalInt (-scale)) = .ok (-scale) :=
    stoi_toDecimalInt (by omega) (by omega)
  have hexpand : expandScale precision scale (str ++ (bytes "E+" ++ toDecimalInt (-scale))) =
      .ok (toDecimalInt value, precision - scale, 0) := by
    rw [expandScale, if_pos hscale, hfind, valueOr, ok_bind, hdrop, hstoi, throwing_ok, ok_bind,
      require_true (decide_eq_true rfl), ok_bind, List.take_left, hvalue]
    rfl
  rw [deserializeDecimal, expectString, ok_bind, cString_of_notMem hzero, hexpand, ok_bind]
  simp only [require_true (decide_eq_true hprecision), ok_bind,
    DecimalText.parse_toDecimalInt hlib.decimalFromString hdigits]
  rfl

/-- With the scale 0 in place of a negative one, a decimal is read if the zeros of its scale can be taken off. -/
lemma roundTrips_scaled {lib : ArrowTexts} (hlib : Documented lib) {precision scale value : Int} (hscale : scale < 0)
    (h : DecimalValue precision scale value (precision - scale) 0) (hmax : precision - scale ≤ 38) :
    LiteralRoundTrips lib (.decimal precision scale) (.decimal128 value (precision - scale) 0) ↔
      value ≠ 0 ∨ scale = -1 := by
  have hprint : DecimalText.print value 0 = toDecimalInt value := by
    rw [DecimalText.toDecimalInt_eq]
    rfl
  have hserialize : serializeLiteral lib (.decimal precision scale) (.decimal128 value (precision - scale) 0) =
      (popZeros (-scale).toNat (toDecimalInt value) >>= fun str =>
        .ok (.string (str ++ (bytes "E+" ++ toDecimalInt (-scale))))) := by
    rw [serializeLiteral_decimal, serializeDecimal, hlib.decimal, hprint]
    simp only [List.append_assoc]
    rfl
  have hread : ∀ str : Bytes, str ++ List.replicate (-scale).toNat 48 = toDecimalInt value →
      LiteralRoundTrips lib (.decimal precision scale) (.decimal128 value (precision - scale) 0) := by
    intro str hstr
    rw [LiteralRoundTrips, hserialize, ← hstr, popZeros_append, ok_bind, ok_bind, deserializeScalar_decimal]
    exact deserializeDecimal_expand hlib h.1 hscale hmax (length_digits h) hstr
  obtain ⟨hpos, -, ⟨-, -, hs, -⟩ | ⟨-, -, -, -, u, hvalue, -⟩⟩ := h
  · omega
  by_cases hu : u = 0
  · have hzero : value = 0 := by rw [hvalue, hu, zero_mul]
    by_cases hone : scale = -1
    · refine ⟨fun _ => .inr hone, fun _ => hread [] ?_⟩
      rw [hzero, hone]
      rfl
    · refine ⟨fun h => ?_, fun h => absurd h (by simp [hzero, hone])⟩
      obtain ⟨message, hthrow⟩ := popZeros_zero (n := (-scale).toNat) (by omega)
      have htext : toDecimalInt value = [48] := by rw [hzero]; rfl
      rw [LiteralRoundTrips, hserialize, htext, hthrow] at h
      cases h
  · refine ⟨fun _ => .inl ?_, fun _ => hread (toDecimalInt u) ?_⟩
    · rw [hvalue]
      exact mul_ne_zero hu (by positivity)
    · rw [hvalue, DecimalText.toDecimalInt_mul_pow hu]

/-- When a decimal is read back. -/
lemma roundTrips_decimal_iff {lib : ArrowTexts} (hlib : Documented lib) {precision scale value p s : Int}
    (h : DecimalValue precision scale value p s) :
    LiteralRoundTrips lib (.decimal precision scale) (.decimal128 value p s) ↔
      Readable (.decimal precision scale) (.decimal128 value p s) := by
  obtain ⟨hpos, hrange, ⟨hmax, rfl, rfl, hvalue⟩ | ⟨hscale, rfl, hmax, rfl, hu⟩⟩ := id h
  · by_cases hneg : s < 0
    · rw [Readable, if_pos hneg]
      refine iff_of_false (not_roundTrips_negativeScale hneg hneg.ne) (fun hread => ?_)
      exact hneg.ne hread.1
    · rw [Readable, if_neg hneg]
      exact roundTrips_decimal hlib h hmax (not_lt.mp hneg)
  · rw [Readable, if_pos hscale, roundTrips_scaled hlib hscale h hmax]
    simp

/-! ### Points in time and byte strings -/

lemma roundTrips_date {lib : ArrowTexts} (hlib : Documented lib) (value : Int32) :
    LiteralRoundTrips lib .date (.date32 value) := by
  have hmin := Int32.le_toInt value
  have hmax := Int32.toInt_lt value
  have hseconds : (Int64.ofInt (value.toInt * 86400)).toInt = value.toInt * 86400 :=
    Int64.toInt_ofInt_of_le (by omega) (by omega)
  have hdays : (value.toInt * 86400).tdiv 86400 = value.toInt := Int.mul_tdiv_cancel _ (by norm_num)
  rw [LiteralRoundTrips, serializeLiteral, ok_bind, deserializeScalar, parseTime, expectString, ok_bind, hlib.date,
    valueOr, ok_bind, hseconds, hdays, Int32.ofInt_toInt]
  rfl

lemma roundTrips_time {lib : ArrowTexts} (hlib : Documented lib) {value : Int64}
    (h : 0 ≤ value.toInt ∧ value.toInt < 86400000000) : LiteralRoundTrips lib .time (.time64 value) := by
  obtain ⟨hzero, hparse⟩ := hlib.time value h
  rw [LiteralRoundTrips, serializeLiteral, ok_bind, deserializeScalar, deserializeTime, expectString, ok_bind,
    cString_of_notMem hzero, hparse]
  rfl

/-- A type whose values are written as texts and read as points in time. -/
lemma roundTrips_timestamp {lib : ArrowTexts} (hlib : Documented lib) {type : IceType} {value : Int64} {unit : TimeUnit}
    {utc : Bool} (hwrite : serializeLiteral lib type (.timestamp value unit utc) =
      .ok (.string (lib.scalarToString (.timestamp value unit utc))))
    (hread : ∀ document, deserializeScalar lib type document =
      (parseTime lib document unit >>= fun value => .ok (.timestamp value unit utc))) :
    LiteralRoundTrips lib type (.timestamp value unit utc) := by
  rw [LiteralRoundTrips, hwrite, ok_bind, hread, parseTime, expectString, ok_bind, hlib.timestamp]
  rfl

lemma roundTrips_string {lib : ArrowTexts} (hlib : Documented lib) {value : Bytes} (h : (0 : Byte) ∉ value) :
    LiteralRoundTrips lib .string (.string value) := by
  rw [LiteralRoundTrips, serializeLiteral, hlib.string, ok_bind, deserializeScalar, expectString, ok_bind,
    cString_of_notMem h]
  rfl

lemma filter_insertIdx (str : Bytes) (ind : Nat) :
    (str.insertIdx ind 45).filter (fun c => c ≠ 45) = str.filter (fun c => c ≠ 45) := by
  induction ind generalizing str with
  | zero => rfl
  | succ ind ih =>
    cases str with
    | nil => rfl
    | cons c str => rw [List.insertIdx_succ_cons, List.filter_cons, List.filter_cons, ih]

lemma mem_insertHyphens {str : Bytes} {c : Byte} (h : c ∈ insertHyphens str) : c = 45 ∨ c ∈ str := by
  have hstep : ∀ {str : Bytes} {ind : Nat}, c ∈ str.insertIdx ind 45 → c = 45 ∨ c ∈ str :=
    fun hmem => List.eq_or_mem_of_mem_insertIdx hmem
  rcases hstep h with h | h
  · exact .inl h
  · rcases hstep h with h | h
    · exact .inl h
    · rcases hstep h with h | h
      · exact .inl h
      · exact hstep h

lemma length_insertHyphens (str : Bytes) : (insertHyphens str).length ≤ str.length + 4 := by
  have hstep : ∀ (str : Bytes) (ind : Nat), (str.insertIdx ind 45).length ≤ str.length + 1 :=
    fun _ _ => List.length_insertIdx_le_succ
  have h1 := hstep str 20
  have h2 := hstep (str.insertIdx 20 45) 16
  have h3 := hstep ((str.insertIdx 20 45).insertIdx 16 45) 12
  have h4 := hstep (((str.insertIdx 20 45).insertIdx 16 45).insertIdx 12 45) 8
  change ((((str.insertIdx 20 45).insertIdx 16 45).insertIdx 12 45).insertIdx 8 45).length ≤ _
  omega

/-- Separators are put into the text of a UUID, and taken out of it again. -/
lemma roundTrips_uuid {lib : ArrowTexts} (hlib : Documented lib) {value : Bytes} (h : value.length = 16) :
    LiteralRoundTrips lib .uuid (.fixedSizeBinary value 16) := by
  have hhex : ∀ c ∈ convertBinaryToHexadecimal value, Hex.isDigit c = true := by
    rw [convertBinaryToHexadecimal_eq]
    exact fun c hc => Hex.isDigit_of_mem_encode hc
  have hlen : (convertBinaryToHexadecimal value).length = 32 := by
    rw [convertBinaryToHexadecimal_eq, Hex.length_encode, h]
  have hclean : (insertHyphens (convertBinaryToHexadecimal value)).filter (fun c => c ≠ 45) =
      convertBinaryToHexadecimal value := by
    have hfilter : (insertHyphens (convertBinaryToHexadecimal value)).filter (fun c => c ≠ 45) =
        (convertBinaryToHexadecimal value).filter (fun c => c ≠ 45) := by
      simp only [insertHyphens, List.foldl_cons, List.foldl_nil, filter_insertIdx]
    rw [hfilter, List.filter_eq_self]
    exact fun c hc => by simpa using Hex.ne_hyphen_of_isDigit (hhex c hc)
  have hzero : (0 : Byte) ∉ insertHyphens (convertBinaryToHexadecimal value) := by
    intro hmem
    rcases mem_insertHyphens hmem with h | h
    · exact absurd h (by decide)
    · exact absurd (hhex 0 h) (by decide)
  have hshort : ¬(cString (insertHyphens (convertBinaryToHexadecimal value)) ≠
      insertHyphens (convertBinaryToHexadecimal value) ∨
        2 ^ 31 ≤ (insertHyphens (convertBinaryToHexadecimal value)).length) := by
    have := length_insertHyphens (convertBinaryToHexadecimal value)
    rintro (hnul | hlong)
    · exact hnul (cString_of_notMem hzero)
    · omega
  have hread := (deserializeHexadecimal_convert_iff value).mpr (by omega)
  rw [LiteralRoundTrips, serializeLiteral, hlib.fixedSizeBinary, serializeUuid, require_true (decide_eq_true hlen),
    ok_bind, pure_bind, deserializeScalar, deserializeUuid, expectString, ok_bind, if_neg hshort, hclean]
  simp only [hread, ok_bind, require_true (decide_eq_true h)]
  rfl

/-- The text of a byte string is read back exactly when an `int` can count it. -/
lemma deserializeBinary_iff (value : Bytes) :
    deserializeBinary (.string (convertBinaryToHexadecimal value)) = .ok value ↔ value.length < 2 ^ 30 := by
  rw [deserializeBinary, expectString, ok_bind]
  exact deserializeHexadecimal_convert_iff value

lemma roundTrips_binary_iff {lib : ArrowTexts} (hlib : Documented lib) (value : Bytes) :
    LiteralRoundTrips lib .binary (.binary value) ↔ value.length < 2 ^ 30 := by
  rw [LiteralRoundTrips, serializeLiteral, hlib.binary, ok_bind, deserializeScalar, ← deserializeBinary_iff]
  constructor
  · intro h
    obtain ⟨buffer, hbuffer, h⟩ := bind_ok h
    cases h
    exact hbuffer
  · intro h
    rw [h]
    rfl

lemma roundTrips_fixed_iff {lib : ArrowTexts} (hlib : Documented lib) {value : Bytes} {size : Int}
    (h : (value.length : Int) = size) :
    LiteralRoundTrips lib (.fixed size) (.fixedSizeBinary value size) ↔ value.length < 2 ^ 30 := by
  rw [LiteralRoundTrips, serializeLiteral, hlib.fixedSizeBinary, ok_bind, deserializeScalar, ← deserializeBinary_iff]
  constructor
  · intro h
    obtain ⟨buffer, hbuffer, h⟩ := bind_ok h
    obtain ⟨-, -, h⟩ := bind_ok h
    cases h
    exact hbuffer
  · intro hread
    rw [hread, ok_bind, require_true (decide_eq_true h.symm)]
    rfl

/-! ### Lists -/

lemma mapM_mapM_ok_iff {ε α β γ : Type} (f : α → Except ε β) (g : β → Except ε γ) {l : List α} {l' : List γ} :
    (l.mapM f >>= fun m => m.mapM g) = .ok l' ↔ List.Forall₂ (fun a c => (f a >>= g) = .ok c) l l' := by
  rw [← mapM_ok_iff]
  have hagree := mapM_mapM_agree f g l
  constructor
  · intro h
    rw [h] at hagree
    cases hl : l.mapM (fun a => f a >>= g) with
    | ok cs =>
      rw [hl] at hagree
      cases hagree with
      | ok heq => rw [heq]
    | error e =>
      rw [hl] at hagree
      cases hagree
  · intro h
    rw [h] at hagree
    cases hl : l.mapM f >>= fun m => m.mapM g with
    | ok cs =>
      rw [hl] at hagree
      cases hagree with
      | ok heq => rw [heq]
    | error e =>
      rw [hl] at hagree
      cases hagree

/-- A list is read back exactly when its elements are. -/
lemma roundTrips_list_iff {lib : ArrowTexts} {elementId : Int} {required : Bool} {elementType : IceType}
    {elements : List ArrowScalar} :
    LiteralRoundTrips lib (.list elementId required elementType) (.list (convertToDataType elementType) elements) ↔
      ∀ element ∈ elements, LiteralRoundTrips lib elementType element ∧ element.type = convertToDataType elementType := by
  have hboth : (elements.mapM (serializeLiteral lib elementType) >>= fun array =>
      array.mapM (deserializeScalar lib elementType)) = .ok elements ↔
        ∀ element ∈ elements, LiteralRoundTrips lib elementType element := by
    rw [mapM_mapM_ok_iff, List.forall₂_same]
    rfl
  rw [LiteralRoundTrips, serializeLiteral]
  constructor
  · intro h
    obtain ⟨document, hwrite, h⟩ := bind_ok h
    obtain ⟨array, harray, hwrite⟩ := bind_ok hwrite
    cases hwrite
    rw [deserializeScalar] at h
    obtain ⟨scalars, hscalars, h⟩ := bind_ok h
    obtain ⟨u, htypes, h⟩ := bind_ok h
    cases h
    have hall := hboth.mp (by rw [harray, ok_bind, hscalars])
    have htypes : elements.all (fun scalar => scalar.type = convertToDataType elementType) = true := by
      by_contra hnot
      rw [require_false (by simpa using hnot)] at htypes
      cases htypes
    exact fun element helement => ⟨hall element helement, of_decide_eq_true (List.all_eq_true.mp htypes element helement)⟩
  · intro h
    obtain ⟨array, harray, hscalars⟩ := bind_ok (hboth.mpr (fun element helement => (h element helement).1))
    have htypes : elements.all (fun scalar => scalar.type = convertToDataType elementType) = true :=
      List.all_eq_true.mpr (fun element helement => decide_eq_true (h element helement).2)
    rw [harray, ok_bind, pure_bind, deserializeScalar, hscalars, ok_bind]
    simp only [require_true htypes, ok_bind]
    rfl

lemma bind_ne_ok {α β : Type} {x : Except Failure α} {f : α → Except Failure β} {b : β} (h : ∀ a, f a ≠ .ok b) :
    (x >>= f) ≠ .ok b := by
  intro hbind
  obtain ⟨a, -, ha⟩ := bind_ok hbind
  exact h a ha

/-- No null is read. -/
lemma deserializeScalar_ne_null {lib : ArrowTexts} (type : IceType) (document : Json) (valueType : ArrowDataType) :
    deserializeScalar lib type document ≠ .ok (.null valueType) := by
  cases type with
  | boolean => cases document <;> simp [deserializeScalar]
  | float =>
    intro h
    cases h
  | double =>
    intro h
    cases h
  | int => exact bind_ne_ok (fun _ h => by cases h)
  | long => exact bind_ne_ok (fun _ h => by cases h)
  | date => exact bind_ne_ok (fun _ h => by cases h)
  | timestamp => exact bind_ne_ok (fun _ h => by cases h)
  | timestamptz => exact bind_ne_ok (fun _ h => by cases h)
  | timestampNs => exact bind_ne_ok (fun _ h => by cases h)
  | timestamptzNs => exact bind_ne_ok (fun _ h => by cases h)
  | string => exact bind_ne_ok (fun _ h => by cases h)
  | binary => exact bind_ne_ok (fun _ h => by cases h)
  | time => exact bind_ne_ok (fun _ => bind_ne_ok (fun _ h => by cases h))
  | fixed size => exact bind_ne_ok (fun _ => bind_ne_ok (fun _ h => by cases h))
  | decimal precision scale =>
    exact bind_ne_ok (fun _ => bind_ne_ok (fun _ => bind_ne_ok (fun _ => bind_ne_ok (fun _ h => by cases h))))
  | uuid =>
    refine bind_ne_ok (fun s => ?_)
    split_ifs
    · intro h
      cases h
    · exact bind_ne_ok (fun _ => bind_ne_ok (fun _ h => by cases h))
  | list elementId required elementType =>
    cases document with
    | array elements =>
      rw [deserializeScalar]
      exact bind_ne_ok (fun _ => bind_ne_ok (fun _ h => by cases h))
    | _ =>
      intro h
      cases h

/-! ### All types -/

/-- A default value is read back as it was written exactly when it is one that the reader can read. -/
theorem serializeLiteral_roundTrip_iff {lib : ArrowTexts} (hlib : Documented lib) {type : IceType} {scalar : ArrowScalar}
    (h : IsValue type scalar) : LiteralRoundTrips lib type scalar ↔ Readable type scalar := by
  induction type generalizing scalar with
  | boolean =>
    cases scalar with
    | boolean value => exact iff_of_true rfl trivial
    | _ => exact h.elim
  | int =>
    cases scalar with
    | int32 value =>
      refine iff_of_true ?_ trivial
      rw [LiteralRoundTrips, serializeLiteral, ok_bind, deserializeScalar, deserializeInt32_toInt]
      rfl
    | _ => exact h.elim
  | long =>
    cases scalar with
    | int64 value =>
      refine iff_of_true ?_ trivial
      rw [LiteralRoundTrips, serializeLiteral, ok_bind, deserializeScalar, deserializeInt64_toInt]
      rfl
    | _ => exact h.elim
  | float => cases scalar <;> exact h.elim
  | double => cases scalar <;> exact h.elim
  | decimal precision scale =>
    cases scalar with
    | decimal128 value p s => exact roundTrips_decimal_iff hlib h
    | _ => exact h.elim
  | date =>
    cases scalar with
    | date32 value => exact iff_of_true (roundTrips_date hlib value) trivial
    | _ => exact h.elim
  | time =>
    cases scalar with
    | time64 value => exact iff_of_true (roundTrips_time hlib h) trivial
    | _ => exact h.elim
  | timestamp =>
    cases scalar with
    | timestamp value unit utc =>
      obtain ⟨rfl, rfl⟩ := h
      exact iff_of_true (roundTrips_timestamp hlib rfl (fun _ => rfl)) trivial
    | _ => exact h.elim
  | timestamptz =>
    cases scalar with
    | timestamp value unit utc =>
      obtain ⟨rfl, rfl⟩ := h
      exact iff_of_true (roundTrips_timestamp hlib rfl (fun _ => rfl)) trivial
    | _ => exact h.elim
  | timestampNs =>
    cases scalar with
    | timestamp value unit utc =>
      obtain ⟨rfl, rfl⟩ := h
      exact iff_of_true (roundTrips_timestamp hlib rfl (fun _ => rfl)) trivial
    | _ => exact h.elim
  | timestamptzNs =>
    cases scalar with
    | timestamp value unit utc =>
      obtain ⟨rfl, rfl⟩ := h
      exact iff_of_true (roundTrips_timestamp hlib rfl (fun _ => rfl)) trivial
    | _ => exact h.elim
  | string =>
    cases scalar with
    | string value => exact iff_of_true (roundTrips_string hlib h) trivial
    | _ => exact h.elim
  | uuid =>
    cases scalar with
    | fixedSizeBinary value byteWidth =>
      obtain ⟨rfl, hlen⟩ := h
      exact iff_of_true (roundTrips_uuid hlib hlen) trivial
    | _ => exact h.elim
  | fixed size =>
    cases scalar with
    | fixedSizeBinary value byteWidth =>
      obtain ⟨rfl, hlen⟩ := h
      exact roundTrips_fixed_iff hlib hlen
    | _ => exact h.elim
  | binary =>
    cases scalar with
    | binary value => exact roundTrips_binary_iff hlib value
    | _ => exact h.elim
  | list elementId required elementType ih =>
    cases scalar with
    | list valueType elements =>
      obtain ⟨rfl, helements⟩ := h
      rw [roundTrips_list_iff, Readable]
      refine forall₂_congr (fun element helement => ?_)
      rcases helements element helement with ⟨-, rfl⟩ | ⟨htype, hvalue⟩
      · refine iff_of_false (fun hread => ?_) (fun hread => ?_)
        · obtain ⟨document, -, hnull⟩ := bind_ok hread.1
          exact deserializeScalar_ne_null _ _ _ hnull
        · cases elementType <;> exact hread.elim
      · rw [ih hvalue, and_iff_left htype]
    | _ => exact h.elim

/-! ### A list of decimals, and a zero -/

/-- Digits up to the exponent, without the point. -/
def decimalOf (text : Bytes) : Option Int :=
  if 2 ≤ text.count 69 ∨ text.head? = some 60 then none
  else some ((StringStream.splitSign text).1 *
    Json.ofDecimal (((StringStream.splitSign text).2.takeWhile (fun c => c ≠ 69)).filter (fun c => c ≠ 46)))

def integerOfText (text : Bytes) : Int := (StringStream.splitSign text).1 * Json.ofDecimal (StringStream.splitSign text).2

/-- Decimals and strings as Arrow prints them; points in time are numbers. -/
def numberTexts : ArrowTexts where
  scalarToString
    | .decimal128 value _ scale => DecimalText.print value scale
    | .string value => value
    | .fixedSizeBinary value _ => value
    | .binary value => value
    | .date32 value => toDecimalInt (value.toInt * 86400)
    | .time64 value => toDecimalInt value.toInt
    | .timestamp value _ _ => toDecimalInt value.toInt
    | _ => []
  decimalFromString := decimalOf
  parseISO8601 text _ := some (Int64.ofInt (integerOfText (if (84 : Byte) ∈ text then text.drop 11 else text)))

lemma splitSign_render (negative : Bool) {whole : Bytes} (hne : whole ≠ []) (hwhole : ∀ c ∈ whole, Json.isDigit c = true)
    (rest : Bytes) : StringStream.splitSign ((if negative then [45] else []) ++ (whole ++ rest)) =
      (if negative then -1 else 1, whole ++ rest) := by
  cases negative with
  | true => rfl
  | false =>
    obtain ⟨c, l, rfl⟩ := List.exists_cons_of_ne_nil hne
    have hdigit := hwhole c List.mem_cons_self
    have hminus : c ≠ 45 := (Json.ne_of_isDigit hdigit).2.2.2.2.1
    have hplus : c ≠ 43 := by
      rintro rfl
      exact absurd hdigit (by decide)
    simp [StringStream.splitSign, hminus, hplus]

lemma decimalOf_isParser : DecimalText.IsParser decimalOf := by
  refine ⟨?_, fun text h => if_pos (.inl h), fun text h => if_pos (.inr h)⟩
  intro negative whole fraction exponent hne hwhole hfraction _ _
  have hdigit : ∀ {l : Bytes}, (∀ c ∈ l, Json.isDigit c = true) → ∀ c ∈ l, c ≠ 69 ∧ c ≠ 46 ∧ c ≠ 60 := by
    intro l hl c hc
    refine ⟨?_, ?_, ?_⟩ <;> rintro rfl <;> exact absurd (hl _ hc) (by decide)
  set point : Bytes := if fraction = [] then [] else 46 :: fraction with hpoint
  set suffix : Bytes := exponent.elim [] (fun e => bytes "E+" ++ toDecimalInt e) with hsuffix
  have htext : DecimalText.render negative whole fraction exponent =
      (if negative then [45] else []) ++ (whole ++ (point ++ suffix)) := rfl
  have hpoint69 : ∀ c ∈ point, c ≠ 69 := by
    intro c hc
    rw [hpoint] at hc
    split_ifs at hc with hempty
    · cases hc
    · rcases List.mem_cons.mp hc with rfl | hc
      · decide
      · exact (hdigit hfraction c hc).1
  have hpointFilter : point.filter (fun c => c ≠ 46) = fraction := by
    have hkeep : fraction.filter (fun c => c ≠ 46) = fraction := by
      rw [List.filter_eq_self]
      exact fun c hc => by simpa using (hdigit hfraction c hc).2.1
    rw [hpoint]
    split_ifs with hempty
    · exact hempty.symm
    · rw [List.filter_cons_of_neg (by simp), hkeep]
  have hcount : ¬2 ≤ (DecimalText.render negative whole fraction exponent).count 69 := by
    have hsign : (if negative then [(45 : Byte)] else []).count 69 = 0 := by cases negative <;> rfl
    have h1 : whole.count 69 = 0 := List.count_eq_zero.mpr (fun h => (hdigit hwhole _ h).1 rfl)
    have h2 : point.count 69 = 0 := List.count_eq_zero.mpr (fun h => hpoint69 _ h rfl)
    have h3 : suffix.count 69 ≤ 1 := by
      rw [hsuffix]
      cases exponent with
      | none => simp
      | some e =>
        have hexponent : (toDecimalInt e).count 69 = 0 :=
          List.count_eq_zero.mpr (DecimalText.notMem_toDecimalInt (by decide) (by decide) e)
        rw [Option.elim_some, List.count_append, hexponent]
        rfl
    rw [htext, List.count_append, List.count_append, List.count_append, hsign, h1, h2]
    omega
  have hhead : (DecimalText.render negative whole fraction exponent).head? ≠ some 60 := by
    rw [htext]
    obtain ⟨c, l, rfl⟩ := List.exists_cons_of_ne_nil hne
    cases negative with
    | true => simp
    | false =>
      have := (hdigit hwhole c List.mem_cons_self).2.2
      simpa using this
  have htake : (whole ++ (point ++ suffix)).takeWhile (fun c => c ≠ 69) = whole ++ point := by
    have hmantissa : ∀ c ∈ whole ++ point, decide (c ≠ 69) = true := by
      intro c hc
      rcases List.mem_append.mp hc with hc | hc
      · exact decide_eq_true (hdigit hwhole c hc).1
      · exact decide_eq_true (hpoint69 c hc)
    have hend : suffix.takeWhile (fun c => c ≠ 69) = [] := by
      rw [hsuffix]
      cases exponent <;> rfl
    rw [← List.append_assoc, List.takeWhile_append_of_pos hmantissa, hend, List.append_nil]
  have hwholeFilter : whole.filter (fun c => c ≠ 46) = whole := by
    rw [List.filter_eq_self]
    exact fun c hc => by simpa using (hdigit hwhole c hc).2.1
  rw [decimalOf, if_neg (not_or.mpr ⟨hcount, hhead⟩), htext, splitSign_render negative hne hwhole]
  simp only [htake, List.filter_append, hwholeFilter, hpointFilter]

lemma integerOfText_toDecimalInt (i : Int) : integerOfText (toDecimalInt i) = i := (StringStream.isNumeral_toDecimalInt i).2.2

lemma numberTexts_documented : Documented numberTexts := by
  have hT : ∀ i, (84 : Byte) ∉ toDecimalInt i :=
    fun i => DecimalText.notMem_toDecimalInt (by decide) (by decide) i
  have hparse : ∀ (i : Int) (unit : TimeUnit), numberTexts.parseISO8601 (toDecimalInt i) unit = some (Int64.ofInt i) := by
    intro i unit
    change some (Int64.ofInt (integerOfText (if (84 : Byte) ∈ toDecimalInt i then _ else _))) = _
    rw [if_neg (hT i), integerOfText_toDecimalInt]
  refine ⟨fun _ _ _ => rfl, decimalOf_isParser, fun _ => rfl, fun _ _ => rfl, fun _ => rfl, fun value => hparse _ _,
    fun value _ => ⟨Json.zero_notMem_toDecimalInt _, ?_⟩, fun value unit _ => ?_⟩
  · have hmem : (84 : Byte) ∈ bytes "1970-01-01T" ++ toDecimalInt value.toInt := List.mem_append_left _ (by decide)
    change some (Int64.ofInt (integerOfText (if (84 : Byte) ∈ bytes "1970-01-01T" ++ toDecimalInt value.toInt
      then (bytes "1970-01-01T" ++ toDecimalInt value.toInt).drop 11 else _))) = _
    rw [if_pos hmem]
    have hdrop : (bytes "1970-01-01T" ++ toDecimalInt value.toInt).drop 11 = toDecimalInt value.toInt := rfl
    rw [hdrop, integerOfText_toDecimalInt, Int64.ofInt_toInt]
  · have := hparse value.toInt unit
    rwa [Int64.ofInt_toInt] at this

/-- 3.14 and -0.05. -/
def twoDecimals : ArrowScalar := .list (.decimal128 5 2) [.decimal128 314 5 2, .decimal128 (-5) 5 2]

theorem twoDecimals_roundTrip : LiteralRoundTrips numberTexts (.list 7 true (.decimal 5 2)) twoDecimals := by
  have hvalue : IsValue (.list 7 true (.decimal 5 2)) twoDecimals := by
    refine ⟨rfl, fun element helement => .inr ?_⟩
    rcases List.mem_cons.mp helement with rfl | helement
    · exact ⟨rfl, by omega, by unfold InInt32; omega, .inl ⟨by omega, rfl, rfl, by decide⟩⟩
    · rw [List.mem_singleton.mp helement]
      exact ⟨rfl, by omega, by unfold InInt32; omega, .inl ⟨by omega, rfl, rfl, by decide⟩⟩
  refine (serializeLiteral_roundTrip_iff numberTexts_documented hvalue).mpr ?_
  intro element helement
  rcases List.mem_cons.mp helement with rfl | helement
  · exact ⟨by decide, by decide⟩
  · rw [List.mem_singleton.mp helement]
    exact ⟨by decide, by decide⟩

/-- The zero of a type whose scale is -2 has only one zero, and cannot be written. -/
theorem zero_not_written :
    IsValue (.decimal 5 (-2)) (.decimal128 0 7 0) ∧
      ¬LiteralRoundTrips numberTexts (.decimal 5 (-2)) (.decimal128 0 7 0) := by
  have hvalue : DecimalValue 5 (-2) 0 7 0 :=
    ⟨by omega, by unfold InInt32; omega, .inr ⟨by omega, rfl, by omega, rfl, 0, rfl, by decide⟩⟩
  refine ⟨hvalue, fun h => ?_⟩
  have hread := (roundTrips_decimal_iff numberTexts_documented hvalue).mp h
  rw [Readable, if_pos (by omega)] at hread
  exact absurd hread.2 (by decide)

end IcebergCxx.Proofs

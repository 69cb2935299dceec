import IcebergCxx.Proofs.TableMetadata

/-!
# The grammar of types

`JsonToDataType` goes by the first letters of a parametrised type and by the numbers that follow. Where
the texts that begin like a parametrised type are texts of one, it reads the grammar below: the names of
the primitive types, two kinds of parametrised types with the bounds of their constructors, and lists.
`FixedType` is written with round brackets, and read with any.
-/

namespace IcebergCxx.Proofs

open Lib JsonParse StringStream

/-- `decimal(P, S)` or `decimal(P,S)`. -/
def DecimalText (str : Bytes) (precision scale : Int) : Prop :=
  ∃ p s w, IsNumeral p precision ∧ IsNumeral s scale ∧ (w = [] ∨ w = [32]) ∧
    str = bytes "decimal(" ++ (p ++ 44 :: (w ++ (s ++ [41])))

/-- `fixed[N]`, or `fixed(N)` as `FixedType` writes it. -/
def FixedText (str : Bytes) (size : Int) : Prop :=
  ∃ n, IsNumeral n size ∧ (str = bytes "fixed" ++ 91 :: (n ++ [93]) ∨ str = bytes "fixed" ++ 40 :: (n ++ [41]))

/-- The text has no zero byte, and is that of a parametrised type if it begins like one. -/
structure ProperText (str : Bytes) : Prop where
  zero_notMem : (0 : Byte) ∉ str
  decimal : bytes "decimal" <+: str → ∃ precision scale, InInt32 precision ∧ InInt32 scale ∧
    DecimalText str precision scale
  fixed : bytes "fixed" <+: str → ∃ size, InInt32 size ∧ FixedText str size

/-- The texts of types. -/
inductive TypeText : Bytes → IceType → Prop
  | primitive {name : Bytes} {type : IceType} (h : (name, type) ∈ primitiveTypes) : TypeText name type
  | decimal {str : Bytes} {precision scale : Int} (h : DecimalText str precision scale)
      (hc : Constructed (.decimal precision scale)) : TypeText str (.decimal precision scale)
  | fixed {str : Bytes} {size : Int} (h : FixedText str size) (hc : Constructed (.fixed size)) :
      TypeText str (.fixed size)

/-- The JSON values of types. -/
inductive TypeJson : Json → IceType → Prop
  | text {str : Bytes} {type : IceType} (h : TypeText str type) : TypeJson (.string str) type
  | list {members : List (Bytes × Json)} {elementId : Int} {elementRequired : Bool} {element : Json}
      {elementType : IceType} (htype : Json.findMember Names.type members = some (.string Names.list))
      (hid : Json.findMember Names.elementId members = some (.int elementId)) (hrange : InInt32 elementId)
      (hrequired : Json.findMember Names.elementRequired members = some (.bool elementRequired))
      (helement : Json.findMember Names.element members = some element) (h : TypeJson element elementType) :
      TypeJson (.object members) (.list elementId elementRequired elementType)

/-- Some text in the place of a type is not proper. -/
inductive Malformed : Json → Prop
  | text {str : Bytes} (h : ¬ProperText str) : Malformed (.string str)
  | element {members : List (Bytes × Json)} {element : Json}
      (htype : Json.findMember Names.type members = some (.string Names.list))
      (helement : Json.findMember Names.element members = some element) (h : Malformed element) :
      Malformed (.object members)

/-! ### Texts -/

lemma nameToPrimitiveType_eq_some {name : Bytes} {type : IceType} :
    nameToPrimitiveType name = some type ↔ (name, type) ∈ primitiveTypes := by
  have hnames : ∀ entry ∈ primitiveTypes, nameToPrimitiveType entry.1 = some entry.2 := by decide
  constructor
  · intro h
    rw [nameToPrimitiveType, Option.map_eq_some_iff] at h
    obtain ⟨entry, hfind, rfl⟩ := h
    have hname : entry.1 = name := by simpa using List.find?_some hfind
    rw [← hname]
    exact List.mem_of_find?_eq_some hfind
  · exact hnames (name, type)

lemma textToDataType_decimalText {str : Bytes} {precision scale : Int} (h : DecimalText str precision scale)
    (hprecision : InInt32 precision) (hscale : InInt32 scale) :
    textToDataType str = makeDecimalType precision scale := by
  obtain ⟨p, s, w, hp, hs, hw, rfl⟩ := h
  refine textToDataType_decimal hp hs hprecision hscale ?_
  rcases hw with rfl | rfl
  · simp
  · exact List.forall_mem_singleton.mpr rfl

lemma textToDataType_fixedText {str : Bytes} {size : Int} (h : FixedText str size) (hsize : InInt32 size) :
    textToDataType str = makeFixedType size := by
  obtain ⟨n, hn, rfl | rfl⟩ := h
  · exact textToDataType_fixed hn hsize 91 rfl
  · exact textToDataType_fixed hn hsize 40 rfl

lemma inInt32_precision {precision scale : Int} (h : Constructed (.decimal precision scale)) : InInt32 precision := by
  obtain ⟨h1, h2, -⟩ := h
  unfold InInt32
  omega

lemma textToDataType_typeText {str : Bytes} {type : IceType} (h : TypeText str type) : textToDataType str = .ok type := by
  cases h with
  | primitive h => rw [textToDataType, nameToPrimitiveType_eq_some.mpr h]
  | decimal h hc =>
    rw [textToDataType_decimalText h (inInt32_precision hc) hc.2.2, makeDecimalType, if_pos ⟨hc.1, hc.2.1⟩]
  | fixed h hc => rw [textToDataType_fixedText h hc.2, makeFixedType, if_pos hc.1]

lemma typeText_of_ok {str : Bytes} {type : IceType} (hproper : ProperText str) (h : textToDataType str = .ok type) :
    TypeText str type := by
  cases hname : nameToPrimitiveType str with
  | some primitive =>
    rw [textToDataType, hname] at h
    cases h
    exact .primitive (nameToPrimitiveType_eq_some.mp hname)
  | none =>
    by_cases hdecimal : bytes "decimal" <+: str
    · obtain ⟨precision, scale, hprecision, hscale, htext⟩ := hproper.decimal hdecimal
      rw [textToDataType_decimalText htext hprecision hscale, makeDecimalType] at h
      split_ifs at h with hrange
      cases h
      exact .decimal htext ⟨hrange.1, hrange.2, hscale⟩
    · by_cases hfixed : bytes "fixed" <+: str
      · obtain ⟨size, hsize, htext⟩ := hproper.fixed hfixed
        rw [textToDataType_fixedText htext hsize, makeFixedType] at h
        split_ifs at h with hpos
        cases h
        exact .fixed htext ⟨hpos, hsize⟩
      · rw [← List.isPrefixOf_iff_prefix] at hdecimal hfixed
        simp only [textToDataType, hname, hdecimal, hfixed] at h
        cases h

/-! ### Fields -/

section
variable {members : List (Bytes × Json)} {name : Bytes}

lemma extractStringField_ok_iff {s : Bytes} :
    extractStringField members name = .ok s ↔ Json.findMember name members = some (.string s) := by
  refine ⟨fun h => ?_, extractStringField_string⟩
  rw [extractStringField, extractField] at h
  rcases hfind : Json.findMember name members with _ | ⟨_ | _ | _ | _ | _ | _⟩ <;> rw [hfind] at h <;> cases h
  rfl

lemma extractBooleanField_ok_iff {b : Bool} :
    extractBooleanField members name = .ok b ↔ Json.findMember name members = some (.bool b) := by
  refine ⟨fun h => ?_, extractBooleanField_bool⟩
  rw [extractBooleanField, extractField] at h
  rcases hfind : Json.findMember name members with _ | ⟨_ | _ | _ | _ | _ | _⟩ <;> rw [hfind] at h <;> cases h
  rfl

lemma extractInt32Field_ok {x : Int32} (h : extractInt32Field members name = .ok x) :
    Json.findMember name members = some (.int x.toInt) ∧ InInt32 x.toInt := by
  rw [extractInt32Field, extractField] at h
  cases hfind : Json.findMember name members with
  | none =>
    rw [hfind] at h
    cases h
  | some value =>
    rw [hfind] at h
    cases value with
    | int i =>
      simp only [deserializeInt32] at h
      split_ifs at h with hrange
      cases h
      have hvalue : (Int32.ofInt i).toInt = i := Int32.toInt_ofInt_of_le hrange.1 hrange.2
      rw [hvalue]
      exact ⟨rfl, hrange⟩
    | _ => cases h

lemma jsonToElementType_eq {element : Json} (h : Json.findMember Names.element members = some element) :
    jsonToElementType members = jsonToDataType element := by
  induction members with
  | nil => cases h
  | cons p members ih =>
    obtain ⟨key, value⟩ := p
    rw [Json.findMember] at h
    rw [jsonToElementType]
    split_ifs at h ⊢ with hkey
    · cases h
      rfl
    · exact ih h

lemma jsonToElementType_ok {type : IceType} (h : jsonToElementType members = .ok type) :
    ∃ element, Json.findMember Names.element members = some element := by
  induction members with
  | nil => cases h
  | cons p members ih =>
    obtain ⟨key, value⟩ := p
    rw [jsonToElementType] at h
    rw [Json.findMember]
    split_ifs at h ⊢ with hkey
    · exact ⟨value, rfl⟩
    · exact ih h

lemma sizeOf_findMember {value : Json} (h : Json.findMember name members = some value) :
    sizeOf value < sizeOf members := by
  induction members with
  | nil => cases h
  | cons p members ih =>
    obtain ⟨key, member⟩ := p
    rw [Json.findMember] at h
    split_ifs at h with hkey
    · cases h
      simp only [List.cons.sizeOf_spec, Prod.mk.sizeOf_spec]
      omega
    · have := ih h
      simp only [List.cons.sizeOf_spec]
      omega

/-- What a list object is read as. -/
lemma jsonToDataType_object_ok {type : IceType} (h : jsonToDataType (.object members) = .ok type) :
    ∃ (elementId : Int32) (elementRequired : Bool) (element : Json) (elementType : IceType),
      type = .list elementId.toInt elementRequired elementType ∧
      Json.findMember Names.type members = some (.string Names.list) ∧
      (Json.findMember Names.elementId members = some (.int elementId.toInt) ∧ InInt32 elementId.toInt) ∧
      Json.findMember Names.elementRequired members = some (.bool elementRequired) ∧
      Json.findMember Names.element members = some element ∧ jsonToDataType element = .ok elementType := by
  rw [jsonToDataType] at h
  obtain ⟨-, -, h⟩ := bind_ok h
  obtain ⟨kind, hkind, h⟩ := bind_ok h
  split_ifs at h with hlist
  rw [hlist] at hkind
  obtain ⟨elementId, hid, h⟩ := bind_ok h
  obtain ⟨elementRequired, hrequired, h⟩ := bind_ok h
  obtain ⟨elementType, htype, h⟩ := bind_ok h
  cases h
  obtain ⟨element, helement⟩ := jsonToElementType_ok htype
  rw [jsonToElementType_eq helement] at htype
  exact ⟨elementId, elementRequired, element, elementType, rfl, extractStringField_ok_iff.mp hkind,
    extractInt32Field_ok hid, extractBooleanField_ok_iff.mp hrequired, helement, htype⟩

end

/-! ### The grammar -/

lemma properText_of_not_malformed {str : Bytes} (h : ¬Malformed (.string str)) : ProperText str :=
  not_not.mp (fun hnot => h (.text hnot))

/-- What is read is in the grammar. -/
lemma typeJson_of_ok {document : Json} {type : IceType} (hproper : ¬Malformed document)
    (h : jsonToDataType document = .ok type) : TypeJson document type := by
  induction hsize : sizeOf document using Nat.strong_induction_on generalizing document type with
  | _ n ih =>
    cases document with
    | string str =>
      have hstr := properText_of_not_malformed hproper
      rw [jsonToDataType, cString_of_notMem hstr.zero_notMem] at h
      exact .text (typeText_of_ok hstr h)
    | object members =>
      obtain ⟨elementId, elementRequired, element, elementType, rfl, htype, ⟨hid, hrange⟩, hrequired, helement, hread⟩ :=
        jsonToDataType_object_ok h
      have hsmaller := sizeOf_findMember helement
      refine .list htype hid hrange hrequired helement (ih (sizeOf element) ?_ ?_ hread rfl)
      · simp only [Json.object.sizeOf_spec] at hsize
        omega
      · exact fun hmalformed => hproper (.element htype helement hmalformed)
    | null => cases h
    | bool b => cases h
    | int i => cases h
    | array elements => cases h

/-- What is in the grammar is read. -/
lemma jsonToDataType_typeJson {document : Json} {type : IceType} (hproper : ¬Malformed document)
    (h : TypeJson document type) : jsonToDataType document = .ok type := by
  induction h with
  | text h =>
    rw [jsonToDataType, cString_of_notMem (properText_of_not_malformed hproper).zero_notMem, textToDataType_typeText h]
  | @list members elementId elementRequired element elementType htype hid hrange hrequired helement h ih =>
    have hmember : (Json.findMember Names.type members).isSome = true := by
      rw [htype]
      rfl
    obtain ⟨x, hx, hvalue⟩ := extractInt32Field_int hrange hid
    have hread := ih (fun hmalformed => hproper (.element htype helement hmalformed))
    rw [jsonToDataType, hmember, ensure_true, ok_bind, extractStringField_string htype, ok_bind, if_pos rfl, hx, ok_bind,
      extractBooleanField_bool hrequired, ok_bind, jsonToElementType_eq helement, hread, ok_bind, hvalue]
    rfl

lemma constructed_of_typeJson {document : Json} {type : IceType} (h : TypeJson document type) : Constructed type := by
  induction h with
  | text h =>
    cases h with
    | primitive h =>
      have hprimitive : ∀ entry ∈ primitiveTypes, Constructed entry.2 := by
        simp [primitiveTypes, Constructed]
      exact hprimitive _ h
    | decimal h hc => exact hc
    | fixed h hc => exact hc
  | list htype hid hrange hrequired helement h ih => exact ⟨hrange, ih⟩

lemma typeText_toText {type : IceType} (hc : Constructed type) (hlist : ∀ id required element, type ≠ .list id required element) :
    TypeText type.toText type := by
  cases type with
  | decimal precision scale =>
    refine .decimal ⟨_, _, [32], isNumeral_toDecimalInt precision, isNumeral_toDecimalInt scale, .inr rfl, ?_⟩ hc
    have hcomma : bytes ", " = [44, 32] := rfl
    have hclose : bytes ")" = [41] := rfl
    simp only [IceType.toText, hcomma, hclose, List.append_assoc, List.cons_append, List.nil_append]
  | fixed size =>
    refine .fixed ⟨_, isNumeral_toDecimalInt size, .inr ?_⟩ hc
    rw [IceType.toText, List.append_assoc]
    rfl
  | list id required element => exact absurd rfl (hlist id required element)
  | _ => exact .primitive (by decide)

/-- `WriteDataType` writes the grammar. -/
lemma typeJson_writeDataType {type : IceType} (hc : Constructed type) : TypeJson (writeDataType type) type := by
  induction type with
  | list elementId elementRequired elementType ih =>
    rw [writeDataType]
    exact .list rfl rfl hc.1 rfl rfl (ih hc.2)
  | _ => exact .text (typeText_toText hc (by simp))

/-- Where the texts of types are proper, `JsonToDataType` reads exactly the grammar and what it has read is written as
the same type; it inverts `WriteDataType` on every type that can be constructed. -/
theorem jsonToDataType_ok_iff :
    (∀ document, ¬Malformed document → ∀ type,
      (jsonToDataType document = .ok type ↔ TypeJson document type) ∧
      (jsonToDataType document = .ok type →
        TypeJson (writeDataType type) type ∧ jsonToDataType (writeDataType type) = .ok type)) ∧
    ∀ type, Constructed type → jsonToDataType (writeDataType type) = .ok type := by
  refine ⟨fun document hproper type => ?_, jsonToDataType_writeDataType⟩
  have hiff : jsonToDataType document = .ok type ↔ TypeJson document type :=
    ⟨typeJson_of_ok hproper, jsonToDataType_typeJson hproper⟩
  refine ⟨hiff, fun h => ?_⟩
  have hc := constructed_of_typeJson (hiff.mp h)
  exact ⟨typeJson_writeDataType hc, jsonToDataType_writeDataType type hc⟩

/-- A list of decimals with an element that has no space. -/
def decimalListJson : Json :=
  .object [(Names.element, .string (bytes "decimal(10,-2)")), (Names.type, .string Names.list),
    (Names.elementId, .int 7), (Names.elementRequired, .bool false)]

theorem jsonToDataType_decimalListJson :
    jsonToDataType decimalListJson = .ok (.list 7 false (.decimal 10 (-2))) ∧
      jsonToDataType (writeDataType (.fixed 12)) = .ok (.fixed 12) := by
  have hdecimal : DecimalText (bytes "decimal(10,-2)") 10 (-2) :=
    ⟨_, _, [], isNumeral_toDecimalInt 10, isNumeral_toDecimalInt (-2), .inl rfl, by decide +kernel⟩
  have hproper : ProperText (bytes "decimal(10,-2)") :=
    ⟨by decide, fun _ => ⟨10, -2, by unfold InInt32; omega, by unfold InInt32; omega, hdecimal⟩, fun h => absurd h (by decide)⟩
  refine ⟨((jsonToDataType_ok_iff.1 decimalListJson ?_ _).1).mpr ?_, jsonToDataType_ok_iff.2 (.fixed 12) ?_⟩
  · intro h
    cases h with
    | element htype helement h =>
      cases helement
      cases h with
      | text h => exact h hproper
  · exact .list rfl rfl (by unfold InInt32; omega) rfl rfl
      (.text (.decimal hdecimal ⟨by omega, by omega, by unfold InInt32; omega⟩))
  · exact ⟨by omega, by unfold InInt32; omega⟩

/-- No column of zero bytes can be read, and neither can a precision above the largest one. -/
theorem jsonToDataType_out_of_bounds :
    (FixedText (bytes "fixed[0]") 0 ∧ ∀ type, jsonToDataType (.string (bytes "fixed[0]")) ≠ .ok type) ∧
    (DecimalText (bytes "decimal(39, 1)") 39 1 ∧ ∀ type, jsonToDataType (.string (bytes "decimal(39, 1)")) ≠ .ok type) := by
  have hfixed : FixedText (bytes "fixed[0]") 0 := ⟨_, isNumeral_toDecimalInt 0, .inl (by decide +kernel)⟩
  have hdecimal : DecimalText (bytes "decimal(39, 1)") 39 1 :=
    ⟨_, _, [32], isNumeral_toDecimalInt 39, isNumeral_toDecimalInt 1, .inr rfl, by decide +kernel⟩
  refine ⟨⟨hfixed, fun type h => ?_⟩, hdecimal, fun type h => ?_⟩
  · rw [jsonToDataType, cString_of_notMem (by decide),
      textToDataType_fixedText hfixed (by unfold InInt32; omega)] at h
    cases h
  · rw [jsonToDataType, cString_of_notMem (by decide),
      textToDataType_decimalText hdecimal (by unfold InInt32; omega) (by unfold InInt32; omega)] at h
    cases h

end IcebergCxx.Proofs

import IcebergCxx.TableMetadata
import IcebergCxx.Lib.JsonScan

/-!
# Table metadata is read back as it was written

One lemma for each record: what its writer adds is what its reader looks for. The exception is
the metadata of a statistics blob, whose properties are left out when there are none and required
by the reader; `readTableMetadataV2_write_iff` is the round trip with this condition.
-/

namespace IcebergCxx.Proofs

open Lib JsonParse

/-- The values of an `int32_t`. -/
def InInt32 (x : Int) : Prop := -2 ^ 31 ≤ x ∧ x < 2 ^ 31

/-- What the constructors of the types ensure. -/
def Constructed : IceType → Prop
  | .decimal precision scale => 0 < precision ∧ precision ≤ 38 ∧ InInt32 scale
  | .fixed size => 0 < size ∧ InInt32 size
  | .list elementId _ elementType => InInt32 elementId ∧ Constructed elementType
  | _ => True

/-- The ids of a schema fit their types and its column types are constructed. -/
def SchemaTyped (schema : Schema) : Prop :=
  InInt32 schema.schemaId ∧ ∀ column ∈ schema.columns, InInt32 column.fieldId ∧ Constructed column.type

def SpecTyped (spec : PartitionSpec) : Prop :=
  InInt32 spec.specId ∧ ∀ field ∈ spec.fields, InInt32 field.sourceId ∧ InInt32 field.fieldId

/-- No key and no value of the map contains a zero byte. -/
def MapNulFree (values : OrdMap Bytes Bytes) : Prop :=
  ∀ p ∈ values.entries, (0 : Byte) ∉ p.1 ∧ (0 : Byte) ∉ p.2

instance (values : OrdMap Bytes Bytes) : Decidable (MapNulFree values) := inferInstanceAs (Decidable (∀ p ∈ _, _ ∧ _))

lemma eq_empty_of_isEmpty {α : Type} {values : OrdMap Bytes α} (h : values.entries.isEmpty = true) : values = ∅ := by
  apply OrdMap.ext_find
  intro k
  rw [OrdMap.find?, List.isEmpty_iff.mp h]
  rfl

/-! ### Fields -/

section
variable {document : List (Bytes × Json)} {name : Bytes}

lemma extractInt64Field_toInt {x : Int64} (h : Json.findMember name document = some (.int x.toInt)) :
    extractInt64Field document name = .ok x := by
  simp only [extractInt64Field, extractField, h, deserializeInt64_toInt]

lemma extractInt32Field_toInt {x : Int32} (h : Json.findMember name document = some (.int x.toInt)) :
    extractInt32Field document name = .ok x := by
  simp only [extractInt32Field, extractField, h, deserializeInt32_toInt]

lemma extractInt32Field_int {i : Int} (hi : InInt32 i) (h : Json.findMember name document = some (.int i)) :
    ∃ x : Int32, extractInt32Field document name = .ok x ∧ x.toInt = i := by
  obtain ⟨h1, h2⟩ := hi
  have hx : (Int32.ofInt i).toInt = i := Int32.toInt_ofInt_of_le h1 h2
  refine ⟨Int32.ofInt i, ?_, hx⟩
  apply extractInt32Field_toInt
  rw [h, hx]

lemma extractStringField_string {s : Bytes} (h : Json.findMember name document = some (.string s)) :
    extractStringField document name = .ok s := by
  simp only [extractStringField, extractField, h, deserializeString]

lemma extractBooleanField_bool {b : Bool} (h : Json.findMember name document = some (.bool b)) :
    extractBooleanField document name = .ok b := by
  simp only [extractBooleanField, extractField, h, deserializeBool]

lemma extractOptionalInt64Field_map {x : Option Int64}
    (h : Json.findMember name document = x.map (fun n => .int n.toInt)) :
    extractOptionalInt64Field document name = x := by
  cases x with
  | none => simp only [extractOptionalInt64Field, extractOptionalField, h, Option.map_none]
  | some n =>
    simp only [extractOptionalInt64Field, extractOptionalField, h, Option.map_some, deserializeInt64_toInt]
    rfl

lemma extractOptionalInt32Field_map {x : Option Int32}
    (h : Json.findMember name document = x.map (fun n => .int n.toInt)) :
    extractOptionalInt32Field document name = x := by
  cases x with
  | none => simp only [extractOptionalInt32Field, extractOptionalField, h, Option.map_none]
  | some n =>
    simp only [extractOptionalInt32Field, extractOptionalField, h, Option.map_some, deserializeInt32_toInt]
    rfl

lemma extractArray_map {α : Type} {f : Json → Except String α} {g : α → Json} {l : List α} (function : String)
    (h : Json.findMember name document = some (.array (l.map g))) (hfg : ∀ a ∈ l, f (g a) = .ok a) :
    extractArray function f document name = .ok l := by
  simp only [extractArray, h, processArray_self hfg]

/-- A map that is left out when it is empty. -/
lemma extractIfPresent_map {α : Type} {f : Json → Except String (OrdMap Bytes α)} {j : Json}
    {values : OrdMap Bytes α}
    (h : Json.findMember name document = if values.entries.isEmpty then none else some j) (hf : f j = .ok values) :
    ∃ o, extractIfPresent f document name = .ok o ∧ o.getD ∅ = values := by
  cases he : values.entries.isEmpty with
  | true =>
    rw [he, if_pos rfl] at h
    refine ⟨none, ?_, (eq_empty_of_isEmpty he).symm⟩
    simp only [extractIfPresent, h]
  | false =>
    rw [he, if_neg Bool.false_ne_true] at h
    refine ⟨some values, ?_, rfl⟩
    simp only [extractIfPresent, h, hf, ok_bind]
    rfl

/-- A list that is left out when it is empty. -/
lemma extractIfPresent_nonEmpty {α : Type} {f : Json → Except String α} {g : α → Json} {l : List α}
    (h : Json.findMember name document = writeNonEmpty (l.map g)) (hfg : ∀ a ∈ l, f (g a) = .ok a) :
    ∃ o, extractIfPresent (processArray f) document name = .ok o ∧ o.getD [] = l := by
  cases l with
  | nil =>
    refine ⟨none, ?_, rfl⟩
    simp only [extractIfPresent, h, List.map_nil, writeNonEmpty]
  | cons a l =>
    refine ⟨some (a :: l), ?_, rfl⟩
    have hl := processArray_self hfg
    rw [List.map_cons] at h hl
    simp only [extractIfPresent, h, writeNonEmpty, hl, ok_bind]
    rfl

end

/-! ### Types -/

lemma primitiveTypes_take : ∀ entry ∈ primitiveTypes,
    entry.1.take 3 ≠ bytes "dec" ∧ entry.1.take 3 ≠ bytes "fix" := by decide

lemma nameToPrimitiveType_eq_none {str : Bytes} (h : ∀ entry ∈ primitiveTypes, entry.1 ≠ str) :
    nameToPrimitiveType str = none := by
  have hfind : primitiveTypes.find? (fun entry => entry.1 = str) = none := by
    rw [List.find?_eq_none]
    intro entry he
    simpa using h entry he
  rw [nameToPrimitiveType, hfind, Option.map_none]

/-- A decimal type with two numerals, the second one after white space. -/
lemma textToDataType_decimal {p s w : Bytes} {precision scale : Int} (hp : StringStream.IsNumeral p precision)
    (hs : StringStream.IsNumeral s scale) (hprecision : InInt32 precision) (hscale : InInt32 scale)
    (hw : ∀ c ∈ w, StringStream.isSpace c = true) :
    textToDataType (bytes "decimal(" ++ (p ++ 44 :: (w ++ (s ++ [41])))) = makeDecimalType precision scale := by
  set tail := p ++ 44 :: (w ++ (s ++ [41])) with htail
  have hname : nameToPrimitiveType (bytes "decimal(" ++ tail) = none := by
    apply nameToPrimitiveType_eq_none
    intro entry he heq
    apply (primitiveTypes_take entry he).1
    rw [heq]
    rfl
  have hstarts : (bytes "decimal").isPrefixOf (bytes "decimal(" ++ tail) = true := rfl
  have hfirst : StringStream.extractInt32 { rest := tail } (some (-1)) =
      (some precision, { rest := 44 :: (w ++ (s ++ [41])) }) :=
    @StringStream.extractInt32_isNumeral p precision hp hprecision.1 hprecision.2 [] (by simp) 44 rfl _ _
  have hsecond : StringStream.extractInt32 { rest := w ++ (s ++ [41]) } (some (-1)) = (some scale, { rest := [41] }) :=
    @StringStream.extractInt32_isNumeral s scale hs hscale.1 hscale.2 w hw 41 rfl _ _
  have hskip : StringStream.ignore { rest := 44 :: (w ++ (s ++ [41])) } 1 = { rest := w ++ (s ++ [41]) } :=
    StringStream.ignore_append [44] (w ++ (s ++ [41]))
  rw [textToDataType, hname]
  simp only [hstarts, if_true, StringStream.ignore_append, hfirst, hskip, hsecond, Option.getD_some]

/-- A fixed type with a numeral between brackets of any kind. -/
lemma textToDataType_fixed {n : Bytes} {size : Int} (hn : StringStream.IsNumeral n size) (hsize : InInt32 size)
    (opening : Byte) {closing : Byte} (hclosing : Json.isDigit closing = false) :
    textToDataType (bytes "fixed" ++ opening :: (n ++ [closing])) = makeFixedType size := by
  have hname : nameToPrimitiveType (bytes "fixed" ++ opening :: (n ++ [closing])) = none := by
    apply nameToPrimitiveType_eq_none
    intro entry he heq
    apply (primitiveTypes_take entry he).2
    rw [heq]
    rfl
  have hdecimal : (bytes "decimal").isPrefixOf (bytes "fixed" ++ opening :: (n ++ [closing])) = false := rfl
  have hfixed : (bytes "fixed").isPrefixOf (bytes "fixed" ++ opening :: (n ++ [closing])) = true := rfl
  have hs : StringStream.extractInt32 { rest := n ++ [closing] } none = (some size, { rest := [closing] }) :=
    @StringStream.extractInt32_isNumeral n size hn hsize.1 hsize.2 [] (by simp) closing hclosing _ _
  have hskip : StringStream.ignore { rest := bytes "fixed" ++ opening :: (n ++ [closing]) } (bytes "fixed[").length =
      { rest := n ++ [closing] } := StringStream.ignore_append (bytes "fixed" ++ [opening]) (n ++ [closing])
  rw [textToDataType, hname]
  simp only [hdecimal, hfixed, if_true, Bool.false_eq_true, if_false, hskip, hs]

lemma textToDataType_decimal_toText {precision scale : Int} (h : Constructed (.decimal precision scale)) :
    textToDataType (IceType.decimal precision scale).toText = .ok (.decimal precision scale) := by
  obtain ⟨h1, h2, hscale⟩ := h
  have hprecision : InInt32 precision := by
    unfold InInt32
    omega
  have htext : (IceType.decimal precision scale).toText =
      bytes "decimal(" ++ (toDecimalInt precision ++ 44 :: ([32] ++ (toDecimalInt scale ++ [41]))) := by
    have hcomma : bytes ", " = [44, 32] := rfl
    have hclose : bytes ")" = [41] := rfl
    simp only [IceType.toText, hcomma, hclose, List.append_assoc, List.cons_append, List.nil_append]
  rw [htext, textToDataType_decimal (StringStream.isNumeral_toDecimalInt precision)
    (StringStream.isNumeral_toDecimalInt scale) hprecision hscale (List.forall_mem_singleton.mpr rfl),
    makeDecimalType, if_pos ⟨h1, h2⟩]

lemma textToDataType_fixed_toText {size : Int} (h : Constructed (.fixed size)) :
    textToDataType (IceType.fixed size).toText = .ok (.fixed size) := by
  obtain ⟨h1, hsize⟩ := h
  have htext : (IceType.fixed size).toText = bytes "fixed" ++ 40 :: (toDecimalInt size ++ [41]) := by
    rw [IceType.toText, List.append_assoc]
    rfl
  rw [htext, textToDataType_fixed (StringStream.isNumeral_toDecimalInt size) hsize 40 rfl, makeFixedType, if_pos h1]

lemma zero_notMem_toText (type : IceType) : (0 : Byte) ∉ type.toText := by
  induction type with
  | decimal precision scale =>
    simp only [IceType.toText, List.mem_append, not_or]
    refine ⟨⟨⟨⟨by decide, Json.zero_notMem_toDecimalInt _⟩, by decide⟩, Json.zero_notMem_toDecimalInt _⟩, by decide⟩
  | fixed size =>
    simp only [IceType.toText, List.mem_append, not_or]
    refine ⟨⟨by decide, Json.zero_notMem_toDecimalInt _⟩, by decide⟩
  | list elementId elementRequired elementType ih =>
    simp only [IceType.toText, List.mem_append, not_or]
    refine ⟨⟨by decide, ih⟩, by decide⟩
  | _ => decide

lemma jsonToDataType_text {type : IceType} (h : textToDataType type.toText = .ok type) :
    jsonToDataType (.string type.toText) = .ok type := by
  rw [jsonToDataType, cString_of_notMem (zero_notMem_toText type), h]

/-- A type is read back, lists of lists included. -/
lemma jsonToDataType_writeDataType (type : IceType) (h : Constructed type) :
    jsonToDataType (writeDataType type) = .ok type := by
  induction type with
  | decimal precision scale => exact jsonToDataType_text (textToDataType_decimal_toText h)
  | fixed size => exact jsonToDataType_text (textToDataType_fixed_toText h)
  | list elementId elementRequired elementType ih =>
    rw [writeDataType]
    set m := [(Names.type, Json.string Names.list), (Names.elementId, .int elementId),
      (Names.elementRequired, .bool elementRequired), (Names.element, writeDataType elementType)] with hm
    have h1 : extractStringField m Names.type = .ok Names.list := extractStringField_string rfl
    obtain ⟨x, h2, hx⟩ : ∃ x : Int32, extractInt32Field m Names.elementId = .ok x ∧ x.toInt = elementId :=
      extractInt32Field_int h.1 rfl
    have h3 : extractBooleanField m Names.elementRequired = .ok elementRequired := extractBooleanField_bool rfl
    have h4 : jsonToElementType m = jsonToDataType (writeDataType elementType) := rfl
    have hsome : (Json.findMember Names.type m).isSome = true := rfl
    rw [jsonToDataType, hsome, ensure_true, ok_bind, h1, ok_bind, if_pos rfl, h2, ok_bind, h3, ok_bind, h4, ih h.2,
      ok_bind, hx]
    rfl
  | _ => exact jsonToDataType_text rfl

/-! ### Schemas and partition specifications -/

lemma jsonToField_writeField {field : NestedField} (hid : InInt32 field.fieldId) (ht : Constructed field.type) :
    jsonToField (writeField field) = .ok field := by
  rw [writeField]
  set m := [(Names.id, Json.int field.fieldId), (Names.name, .string field.name),
    (Names.required, .bool field.isRequired), (Names.type, writeDataType field.type)] with hm
  obtain ⟨x, h1, hx⟩ : ∃ x : Int32, extractInt32Field m Names.id = .ok x ∧ x.toInt = field.fieldId :=
    extractInt32Field_int hid rfl
  have h2 : extractStringField m Names.name = .ok field.name := extractStringField_string rfl
  have h3 : extractBooleanField m Names.required = .ok field.isRequired := extractBooleanField_bool rfl
  have h4 : Json.findMember Names.type m = some (writeDataType field.type) := rfl
  simp only [jsonToField, assertObject, ok_bind, h1, h2, h3, h4, jsonToDataType_writeDataType _ ht, hx]
  rfl

lemma jsonToSchema_writeSchema {schema : Schema} (h : SchemaTyped schema) :
    jsonToSchema (writeSchema schema) = .ok schema := by
  rw [writeSchema]
  set m := [(Names.type, Json.string Names.struct), (Names.schemaId, .int schema.schemaId),
    (Names.fields, .array (schema.columns.map writeField))] with hm
  obtain ⟨x, h1, hx⟩ : ∃ x : Int32, extractInt32Field m Names.schemaId = .ok x ∧ x.toInt = schema.schemaId :=
    extractInt32Field_int h.1 rfl
  have h2 : extractSchemaFields m Names.fields = .ok schema.columns :=
    extractArray_map "ExtractSchemaFields" rfl
      (fun column hc => jsonToField_writeField (h.2 column hc).1 (h.2 column hc).2)
  simp only [jsonToSchema, ensureObject, ok_bind, h1, h2, hx]
  rfl

lemma jsonToPartitionField_write {field : PartitionField} (h1 : InInt32 field.sourceId) (h2 : InInt32 field.fieldId) :
    jsonToPartitionField (writePartitionField field) = .ok field := by
  rw [writePartitionField]
  set m := [(Names.sourceId, Json.int field.sourceId), (Names.fieldId, .int field.fieldId),
    (Names.name, .string field.name), (Names.transform, .string field.transform)] with hm
  obtain ⟨x, hsource, hx⟩ : ∃ x : Int32, extractInt32Field m Names.sourceId = .ok x ∧ x.toInt = field.sourceId :=
    extractInt32Field_int h1 rfl
  obtain ⟨y, hfield, hy⟩ : ∃ x : Int32, extractInt32Field m Names.fieldId = .ok x ∧ x.toInt = field.fieldId :=
    extractInt32Field_int h2 rfl
  have hname : extractStringField m Names.name = .ok field.name := extractStringField_string rfl
  have htransform : extractStringField m Names.transform = .ok field.transform := extractStringField_string rfl
  simp only [jsonToPartitionField, assertObject, ok_bind, hsource, hfield, hname, htransform, hx, hy]
  rfl

lemma jsonPartitionSpec_write {spec : PartitionSpec} (h : SpecTyped spec) :
    jsonPartitionSpec (writePartitionSpec spec) = .ok spec := by
  rw [writePartitionSpec]
  set m := [(Names.specId, Json.int spec.specId), (Names.fields, .array (spec.fields.map writePartitionField))]
    with hm
  obtain ⟨x, h1, hx⟩ : ∃ x : Int32, extractInt32Field m Names.specId = .ok x ∧ x.toInt = spec.specId :=
    extractInt32Field_int h.1 rfl
  have h2 : extractPartitionFields m = .ok spec.fields :=
    extractArray_map "ExtractPartitionFields" rfl
      (fun field hf => jsonToPartitionField_write (h.2 field hf).1 (h.2 field hf).2)
  simp only [jsonPartitionSpec, ensureObject, ok_bind, h1, h2, hx]
  rfl

/-! ### Snapshots, logs, sort orders and references -/

lemma jsonToStringMap_write {values : OrdMap Bytes Bytes} (h : MapNulFree values) :
    jsonToStringMap (writeStringMap values) = .ok values := by
  apply jsonToMap_entries
  · intro p hp
    exact (h p hp).1
  · intro p hp
    rw [getCString, cString_of_notMem (h p hp).2]

lemma jsonToSnapshot_write {snap : Snapshot} (hop : snap.summary.contains Names.operation = true)
    (hnul : MapNulFree snap.summary) : jsonToSnapshot (.object (membersOf (snapshotFields snap))) = .ok snap := by
  set m := membersOf (snapshotFields snap) with hm
  have hfind : ∀ name, Json.findMember name m = findField name (snapshotFields snap) :=
    findMember_membersOf (by simp only [snapshotFields, List.map]; decide)
  have h1 : extractInt64Field m Names.snapshotId = .ok snap.snapshotId := extractInt64Field_toInt (hfind _)
  have h2 : extractOptionalInt64Field m Names.parentSnapshotId = snap.parentSnapshotId :=
    extractOptionalInt64Field_map (hfind _)
  have h3 : extractInt64Field m Names.sequenceNumber = .ok snap.sequenceNumber := extractInt64Field_toInt (hfind _)
  have h4 : extractInt64Field m Names.timestampMs = .ok snap.timestampMs := extractInt64Field_toInt (hfind _)
  have h5 : extractStringField m Names.manifestList = .ok snap.manifestListLocation :=
    extractStringField_string (hfind _)
  have h6 : extractStringMap m Names.summary = .ok snap.summary := by
    have h : Json.findMember Names.summary m = some (writeStringMap snap.summary) := hfind _
    simp only [extractStringMap, h, jsonToStringMap_write hnul]
  have h7 : extractOptionalInt64Field m Names.schemaId = snap.schemaId := extractOptionalInt64Field_map (hfind _)
  simp only [jsonToSnapshot, ensureObject, ok_bind, h1, h2, h3, h4, h5, h6, h7, hop, ensure_true]
  rfl

lemma jsonToSnapshotLogEntry_write (entry : SnapshotLog) :
    jsonToSnapshotLogEntry (writeSnapshotLogEntry entry) = .ok entry := by
  rw [writeSnapshotLogEntry]
  set m := [(Names.timestampMs, Json.int entry.timestampMs.toInt), (Names.snapshotId, .int entry.snapshotId.toInt)]
    with hm
  have h1 : extractInt64Field m Names.timestampMs = .ok entry.timestampMs := extractInt64Field_toInt rfl
  have h2 : extractInt64Field m Names.snapshotId = .ok entry.snapshotId := extractInt64Field_toInt rfl
  simp only [jsonToSnapshotLogEntry, ensureObject, ok_bind, h1, h2]
  rfl

lemma jsonToMetadataLogEntry_write (entry : MetadataLog) :
    jsonToMetadataLogEntry (writeMetadataLogEntry entry) = .ok entry := by
  rw [writeMetadataLogEntry]
  set m := [(Names.timestampMs, Json.int entry.timestampMs.toInt), (Names.metadataFile, .string entry.metadataFile)]
    with hm
  have h1 : extractInt64Field m Names.timestampMs = .ok entry.timestampMs := extractInt64Field_toInt rfl
  have h2 : extractStringField m Names.metadataFile = .ok entry.metadataFile := extractStringField_string rfl
  simp only [jsonToMetadataLogEntry, ensureObject, ok_bind, h1, h2]
  rfl

lemma jsonToSortField_write (field : SortField) : jsonToSortField (writeSortField field) = .ok field := by
  rw [writeSortField]
  set direction := if field.direction = .asc then Names.asc else Names.desc with hdirection
  set nullOrder := if field.nullOrder = .nullsFirst then Names.nullsFirst else Names.nullsLast with hnullOrder
  set m := [(Names.transform, Json.string field.transform), (Names.sourceId, .int field.sourceId.toInt),
    (Names.direction, .string direction), (Names.nullOrder, .string nullOrder)] with hm
  have h1 : extractStringField m Names.direction = .ok direction := extractStringField_string rfl
  have h2 : extractStringField m Names.nullOrder = .ok nullOrder := extractStringField_string rfl
  have h3 : extractStringField m Names.transform = .ok field.transform := extractStringField_string rfl
  have h4 : extractInt32Field m Names.sourceId = .ok field.sourceId := extractInt32Field_toInt rfl
  have h5 : (if direction = Names.asc ∨ direction = bytes "ASC" then SortDirection.asc else .desc) =
      field.direction := by
    rw [hdirection]
    cases field.direction <;> rfl
  have h6 : (if nullOrder = Names.nullsFirst then NullOrder.nullsFirst else .nullsLast) = field.nullOrder := by
    rw [hnullOrder]
    cases field.nullOrder <;> rfl
  simp only [jsonToSortField, ensureObject, ok_bind, h1, h2, h3, h4, h5, h6]
  rfl

lemma jsonToSortOrders_write (order : SortOrder) : jsonToSortOrders (writeSortOrder order) = .ok order := by
  rw [writeSortOrder]
  set m := [(Names.orderId, Json.int order.orderId.toInt), (Names.fields, .array (order.fields.map writeSortField))]
    with hm
  have h1 : extractInt32Field m Names.orderId = .ok order.orderId := extractInt32Field_toInt rfl
  have h2 : extractArray "RAPIDJSON_ASSERT" jsonToSortField m Names.fields = .ok order.fields :=
    extractArray_map _ rfl (fun field _ => jsonToSortField_write field)
  simp only [jsonToSortOrders, ensureObject, ok_bind, h1, h2]
  rfl

lemma jsonToRef_write (ref : SnapshotRef) : jsonToRef (writeRef ref) = .ok ref := by
  rw [writeRef]
  set m := membersOf (refFields ref) with hm
  have hfind : ∀ name, Json.findMember name m = findField name (refFields ref) :=
    findMember_membersOf (by simp only [refFields, List.map]; decide)
  have h1 : extractInt64Field m Names.snapshotId = .ok ref.snapshotId := extractInt64Field_toInt (hfind _)
  have h2 : extractStringField m Names.type = .ok ref.type := extractStringField_string (hfind _)
  have h3 : extractOptionalInt32Field m Names.minSnapshotsToKeep = ref.minSnapshotsToKeep :=
    extractOptionalInt32Field_map (hfind _)
  have h4 : extractOptionalInt64Field m Names.maxSnapshotAgeMs = ref.maxSnapshotAgeMs :=
    extractOptionalInt64Field_map (hfind _)
  have h5 : extractOptionalInt64Field m Names.maxRefAgeMs = ref.maxRefAgeMs := extractOptionalInt64Field_map (hfind _)
  simp only [jsonToRef, ensureObject, ok_bind, h1, h2, h3, h4, h5]
  rfl

/-! ### Statistics -/

/-- The properties of a blob are written only when there are some, and always read. -/
lemma jsonToBlobMetadata_write {blob : BlobMetadata} (hnul : MapNulFree blob.properties) :
    jsonToBlobMetadata (writeBlobMetadata blob) =
      if blob.properties = ∅ then .error "ExtractStringMap: !document.HasMember(properties)" else .ok blob := by
  rw [writeBlobMetadata]
  set m := membersOf (blobFields blob) with hm
  have hfind : ∀ name, Json.findMember name m = findField name (blobFields blob) :=
    findMember_membersOf (by simp only [blobFields, List.map]; decide)
  have h1 : extractStringField m Names.type = .ok blob.type := extractStringField_string (hfind _)
  have h2 : extractInt64Field m Names.snapshotId = .ok blob.snapshotId := extractInt64Field_toInt (hfind _)
  have h3 : extractInt64Field m Names.sequenceNumber = .ok blob.sequenceNumber := extractInt64Field_toInt (hfind _)
  have h4 : extractFieldIds m = .ok blob.fieldIds := by
    apply extractArray_map _ (hfind _)
    intro id _
    rw [jsonToFieldId, deserializeInt32_toInt]
  have h5 : Json.findMember Names.properties m = writeProperties blob.properties := hfind _
  simp only [jsonToBlobMetadata, assertObject, ok_bind, h1, h2, h3, h4, extractStringMap, h5, writeProperties]
  by_cases hempty : blob.properties = ∅
  · have he : blob.properties.entries.isEmpty = true := by
      rw [hempty]
      rfl
    rw [if_pos hempty, if_pos he]
    rfl
  · have he : blob.properties.entries.isEmpty = false := by
      rw [Bool.eq_false_iff]
      exact fun h => hempty (eq_empty_of_isEmpty h)
    rw [if_neg hempty, he]
    simp only [Bool.false_eq_true, if_false, jsonToStringMap_write hnul, ok_bind]
    rfl

/-- Every blob of a statistics file has properties. -/
def BlobsHaveProperties (stat : Statistics) : Prop := ∀ blob ∈ stat.blobMetadata, blob.properties ≠ ∅

lemma jsonToStatistics_write {stat : Statistics} (hkey : stat.keyMetadata = none)
    (hnul : ∀ blob ∈ stat.blobMetadata, MapNulFree blob.properties) (r : Statistics) :
    jsonToStatistics (writeStatistic stat) = .ok r ↔ BlobsHaveProperties stat ∧ r = stat := by
  rw [writeStatistic]
  set m := [(Names.statisticsPath, Json.string stat.statisticsPath), (Names.snapshotId, .int stat.snapshotId.toInt),
    (Names.fileSizeInBytes, .int stat.fileSizeInBytes.toInt),
    (Names.fileFooterSizeInBytes, .int stat.fileFooterSizeInBytes.toInt),
    (Names.blobMetadata, .array (stat.blobMetadata.map writeBlobMetadata))] with hm
  have h1 : extractStringField m Names.statisticsPath = .ok stat.statisticsPath := extractStringField_string rfl
  have h2 : extractInt64Field m Names.snapshotId = .ok stat.snapshotId := extractInt64Field_toInt rfl
  have h3 : extractInt64Field m Names.fileSizeInBytes = .ok stat.fileSizeInBytes := extractInt64Field_toInt rfl
  have h4 : extractInt64Field m Names.fileFooterSizeInBytes = .ok stat.fileFooterSizeInBytes :=
    extractInt64Field_toInt rfl
  have h5 : extractBlobMetadata m =
      processArray jsonToBlobMetadata (.array (stat.blobMetadata.map writeBlobMetadata)) := rfl
  have h6 : ∀ blobs, extractBlobMetadata m = .ok blobs ↔ BlobsHaveProperties stat ∧ blobs = stat.blobMetadata := by
    intro blobs
    rw [h5]
    apply processArray_map_iff
    intro blob hblob b
    rw [jsonToBlobMetadata_write (hnul blob hblob)]
    by_cases hempty : blob.properties = ∅
    · simp [hempty]
    · simp [hempty, eq_comm]
  simp only [jsonToStatistics, ensureObject, ok_bind, h1, h2, h3, h4]
  constructor
  · intro h
    obtain ⟨blobs, hblobs, h⟩ := bind_ok h
    obtain ⟨hb, rfl⟩ := (h6 blobs).mp hblobs
    rw [← Except.ok.inj h, ← hkey]
    exact ⟨hb, rfl⟩
  · rintro ⟨hb, rfl⟩
    rw [(h6 _).mpr ⟨hb, rfl⟩, ok_bind, ← hkey]
    rfl

/-! ### The whole document -/

/-- What every metadata made by the builder satisfies. -/
structure Built (metadata : TableMetadataV2) : Prop where
  signs : TableMetadataV2Builder.assertSigns metadata = .ok ()
  check : defaultCheck metadata = .ok ()
  snapshotId : metadata.currentSnapshotId ≠ some (-1)

lemma normalizeSnapshotId_ne (id : Option Int64) : TableMetadataV2Builder.normalizeSnapshotId id ≠ some (-1) := by
  unfold TableMetadataV2Builder.normalizeSnapshotId
  split_ifs with h
  · simp
  · exact h

lemma built_of_build {builder : TableMetadataV2Builder} {metadata : TableMetadataV2}
    (h : builder.build = .ok metadata) : Built metadata := by
  unfold TableMetadataV2Builder.build at h
  -- the twelve fields that must be there
  iterate 12 obtain ⟨_, -, h⟩ := bind_ok h
  obtain ⟨⟨⟩, hsigns, h⟩ := bind_ok h
  obtain ⟨⟨⟩, hcheck, h⟩ := bind_ok h
  rw [← Except.ok.inj h]
  exact ⟨hsigns, hcheck, normalizeSnapshotId_ne _⟩

/-- The metadata holds values of the program's types, each snapshot names its operation, no
statistics file has key metadata, and the strings of its maps contain no zero byte. -/
structure Writable (metadata : TableMetadataV2) : Prop where
  schemas : ∀ schema ∈ metadata.schemas, SchemaTyped schema
  partitionSpecs : ∀ spec ∈ metadata.partitionSpecs, SpecTyped spec
  operation : ∀ snap ∈ metadata.snapshots, snap.summary.contains Names.operation = true
  keyMetadata : ∀ stat ∈ metadata.statistics, stat.keyMetadata = none
  properties : MapNulFree metadata.properties
  summaries : ∀ snap ∈ metadata.snapshots, MapNulFree snap.summary
  blobs : ∀ stat ∈ metadata.statistics, ∀ blob ∈ stat.blobMetadata, MapNulFree blob.properties
  refs : ∀ p ∈ metadata.refs.entries, (0 : Byte) ∉ p.1

/-- The document of a snapshot. -/
def snapshotJson (snap : Snapshot) : Json := .object (membersOf (snapshotFields snap))

lemma mapM_writeSnapshot {snapshots : List Snapshot}
    (h : ∀ snap ∈ snapshots, snap.summary.contains Names.operation = true) :
    snapshots.mapM writeSnapshot = .ok (snapshots.map snapshotJson) := by
  rw [mapM_ok_iff, List.forall₂_map_right_iff, List.forall₂_same]
  intro snap hsnap
  rw [writeSnapshot, h snap hsnap]
  rfl

lemma nodup_metadataFields (metadata : TableMetadataV2) (snapshots : List Json) :
    ((metadataFields metadata snapshots).map Prod.fst).Nodup := by
  simp only [metadataFields, List.map]
  decide +kernel

/-- The builder with the fields of some metadata; those that may be missing are given apart. -/
def filledBuilder (metadata : TableMetadataV2) (properties : Option (OrdMap Bytes Bytes))
    (snapshots : Option (List Snapshot)) (snapshotLog : Option (List SnapshotLog))
    (metadataLog : Option (List MetadataLog)) (refs : Option (OrdMap Bytes SnapshotRef)) : TableMetadataV2Builder :=
  { tableUuid := some metadata.tableUuid
    location := some metadata.location
    lastSequenceNumber := some metadata.lastSequenceNumber
    lastUpdatedMs := some metadata.lastUpdatedMs
    lastColumnId := some metadata.lastColumnId
    schemas := some metadata.schemas
    currentSchemaId := some metadata.currentSchemaId
    partitionSpecs := some metadata.partitionSpecs
    defaultSpecId := some metadata.defaultSpecId
    lastPartitionId := some metadata.lastPartitionId
    properties := properties
    currentSnapshotId := metadata.currentSnapshotId
    snapshots := snapshots
    snapshotLog := snapshotLog
    metadataLog := metadataLog
    sortOrders := some metadata.sortOrders
    defaultSortOrderId := some metadata.defaultSortOrderId
    refs := refs
    statistics := some metadata.statistics }

lemma build_filledBuilder {metadata : TableMetadataV2} (hb : Built metadata) {properties : Option (OrdMap Bytes Bytes)}
    {snapshots : Option (List Snapshot)} {snapshotLog : Option (List SnapshotLog)}
    {metadataLog : Option (List MetadataLog)} {refs : Option (OrdMap Bytes SnapshotRef)}
    (hproperties : properties.getD ∅ = metadata.properties) (hsnapshots : snapshots.getD [] = metadata.snapshots)
    (hsnapshotLog : snapshotLog.getD [] = metadata.snapshotLog)
    (hmetadataLog : metadataLog.getD [] = metadata.metadataLog) (hrefs : refs.getD ∅ = metadata.refs) :
    (filledBuilder metadata properties snapshots snapshotLog metadataLog refs).build = .ok metadata := by
  have hid : TableMetadataV2Builder.normalizeSnapshotId metadata.currentSnapshotId = metadata.currentSnapshotId :=
    if_neg hb.snapshotId
  simp only [TableMetadataV2Builder.build, filledBuilder, TableMetadataV2Builder.assertHasValue, ok_bind,
    hproperties, hsnapshots, hsnapshotLog, hmetadataLog, hrefs, hid, Option.getD_some]
  change (TableMetadataV2Builder.assertSigns metadata >>= fun _ =>
    defaultCheck metadata >>= fun _ => .ok metadata) = .ok metadata
  rw [hb.signs, ok_bind, hb.check, ok_bind]

lemma makeTableMetadataV2_write {metadata : TableMetadataV2} (hw : Writable metadata) (hb : Built metadata)
    (r : TableMetadataV2) :
    makeTableMetadataV2 (membersOf (metadataFields metadata (metadata.snapshots.map snapshotJson))) = .ok r ↔
      (∀ stat ∈ metadata.statistics, BlobsHaveProperties stat) ∧ r = metadata := by
  set fields := metadataFields metadata (metadata.snapshots.map snapshotJson) with hfields
  set m := membersOf fields with hm
  have hfind : ∀ name, Json.findMember name m = findField name fields :=
    findMember_membersOf (nodup_metadataFields _ _)
  have h1 : extractStringField m Names.tableUuid = .ok metadata.tableUuid := extractStringField_string (hfind _)
  have h2 : extractStringField m Names.location = .ok metadata.location := extractStringField_string (hfind _)
  have h3 : extractInt64Field m Names.lastSequenceNumber = .ok metadata.lastSequenceNumber :=
    extractInt64Field_toInt (hfind _)
  have h4 : extractInt64Field m Names.lastUpdatedMs = .ok metadata.lastUpdatedMs := extractInt64Field_toInt (hfind _)
  have h5 : extractInt32Field m Names.lastColumnId = .ok metadata.lastColumnId := extractInt32Field_toInt (hfind _)
  have h6 : extractSchemas m = .ok metadata.schemas :=
    extractArray_map _ (hfind _) (fun schema hs => jsonToSchema_writeSchema (hw.schemas schema hs))
  have h7 : extractInt32Field m Names.currentSchemaId = .ok metadata.currentSchemaId :=
    extractInt32Field_toInt (hfind _)
  have h8 : extractPartitionSpecs m = .ok metadata.partitionSpecs :=
    extractArray_map _ (hfind _) (fun spec hs => jsonPartitionSpec_write (hw.partitionSpecs spec hs))
  have h9 : extractInt32Field m Names.defaultSpecId = .ok metadata.defaultSpecId := extractInt32Field_toInt (hfind _)
  have h10 : extractInt32Field m Names.lastPartitionId = .ok metadata.lastPartitionId :=
    extractInt32Field_toInt (hfind _)
  obtain ⟨properties, h11, hproperties⟩ :
      ∃ o, extractProperties m = .ok o ∧ o.getD ∅ = metadata.properties :=
    extractIfPresent_map (hfind _) (jsonToStringMap_write hw.properties)
  have h12 : extractOptionalInt64Field m Names.currentSnapshotId = metadata.currentSnapshotId :=
    extractOptionalInt64Field_map (hfind _)
  obtain ⟨snapshots, h13, hsnapshots⟩ : ∃ o, extractSnapshots m = .ok o ∧ o.getD [] = metadata.snapshots :=
    extractIfPresent_nonEmpty (hfind _)
      (fun snap hs => jsonToSnapshot_write (hw.operation snap hs) (hw.summaries snap hs))
  obtain ⟨snapshotLog, h14, hsnapshotLog⟩ : ∃ o, extractSnapshotLog m = .ok o ∧ o.getD [] = metadata.snapshotLog :=
    extractIfPresent_nonEmpty (hfind _) (fun entry _ => jsonToSnapshotLogEntry_write entry)
  obtain ⟨metadataLog, h15, hmetadataLog⟩ : ∃ o, extractMetadataLog m = .ok o ∧ o.getD [] = metadata.metadataLog :=
    extractIfPresent_nonEmpty (hfind _) (fun entry _ => jsonToMetadataLogEntry_write entry)
  have h16 : extractSortOrders m = .ok metadata.sortOrders :=
    extractArray_map _ (hfind _) (fun order _ => jsonToSortOrders_write order)
  have h17 : extractInt32Field m Names.defaultSortOrderId = .ok metadata.defaultSortOrderId :=
    extractInt32Field_toInt (hfind _)
  obtain ⟨refs, h18, hrefs⟩ : ∃ o, extractRefs m = .ok o ∧ o.getD ∅ = metadata.refs :=
    extractIfPresent_map (hfind _) (jsonToMap_entries hw.refs (fun p _ => jsonToRef_write p.2) _)
  have h19 : ∀ o, extractStatistics m = .ok o ↔
      (∀ stat ∈ metadata.statistics, BlobsHaveProperties stat) ∧ o = some metadata.statistics := by
    have hs : Json.findMember Names.statistics m = some (.array (metadata.statistics.map writeStatistic)) := hfind _
    have hread := processArray_map_iff (fun stat hstat =>
      jsonToStatistics_write (hw.keyMetadata stat hstat) (hw.blobs stat hstat))
    intro o
    simp only [extractStatistics, extractIfPresent, hs]
    constructor
    · intro h
      obtain ⟨statistics, h, ho⟩ := bind_ok h
      obtain ⟨hstat, rfl⟩ := (hread _).mp h
      exact ⟨hstat, (Except.ok.inj ho).symm⟩
    · rintro ⟨hstat, rfl⟩
      rw [(hread _).mpr ⟨hstat, rfl⟩]
      rfl
  have hbuild := build_filledBuilder hb hproperties hsnapshots hsnapshotLog hmetadataLog hrefs
  simp only [makeTableMetadataV2, h1, h2, h3, h4, h5, h6, h7, h8, h9, h10, h11, h12, h13, h14, h15, h16, h17, h18,
    ok_bind]
  constructor
  · intro h
    obtain ⟨statistics, hstat, h⟩ := bind_ok h
    obtain ⟨hblobs, rfl⟩ := (h19 _).mp hstat
    exact ⟨hblobs, Except.ok.inj (h.symm.trans hbuild)⟩
  · rintro ⟨hblobs, rfl⟩
    rw [(h19 _).mpr ⟨hblobs, rfl⟩, ok_bind]
    exact hbuild

/-- Writing succeeds, and reading what was written gives the same metadata. -/
def RoundTrips (lib : JsonLibrary) (metadata : TableMetadataV2) : Prop :=
  ∃ json, writeTableMetadataV2 lib metadata = .ok json ∧ readTableMetadataV2 lib json = .ok (some metadata)

section
variable (lib : JsonLibrary) {metadata : TableMetadataV2}

/-- The document that is printed. -/
def metadataMembers (metadata : TableMetadataV2) : List (Bytes × Json) :=
  membersOf (metadataFields metadata (metadata.snapshots.map snapshotJson))

lemma writeTableMetadataV2_eq (hw : Writable metadata) :
    writeTableMetadataV2 lib metadata = .ok (lib.print (.object (metadataMembers metadata))) := by
  rw [writeTableMetadataV2, mapM_writeSnapshot hw.operation, ok_bind, cString_of_notMem (lib.zero_notMem_print _)]
  rfl

/-- The printed text is refused, or the document in it is read. -/
lemma readTableMetadataV2_print {document : List (Bytes × Json)} {r : TableMetadataV2} :
    readTableMetadataV2 lib (lib.print (.object document)) = .ok (some r) ↔ makeTableMetadataV2 document = .ok r := by
  rw [readTableMetadataV2, lib.parse_print]
  constructor
  · intro h
    obtain ⟨r', hr, h⟩ := bind_ok h
    rw [hr, Option.some.inj (Except.ok.inj h)]
  · intro h
    simp only [h, ok_bind]
    rfl

end

/-- Metadata made by the builder is written and read back unchanged exactly when every blob of
its statistics files has properties. -/
theorem readTableMetadataV2_write_iff (lib : JsonLibrary) (builder : TableMetadataV2Builder)
    (metadata : TableMetadataV2) (hbuild : builder.build = .ok metadata) (hw : Writable metadata) :
    RoundTrips lib metadata ↔ ∀ stat ∈ metadata.statistics, ∀ blob ∈ stat.blobMetadata, blob.properties ≠ ∅ := by
  have hwrite := writeTableMetadataV2_eq lib hw
  have hmake := makeTableMetadataV2_write hw (built_of_build hbuild) metadata
  constructor
  · rintro ⟨json, hj, h⟩
    rw [hwrite] at hj
    rw [← Except.ok.inj hj, readTableMetadataV2_print] at h
    exact (hmake.mp h).1
  · intro h
    refine ⟨_, hwrite, ?_⟩
    rw [readTableMetadataV2_print]
    exact hmake.mpr ⟨h, rfl⟩

/-! ### One table -/

/-- A snapshot of a table with one partition column. -/
def firstSnapshot : Snapshot :=
  { snapshotId := 7
    parentSnapshotId := none
    sequenceNumber := 1
    timestampMs := 1000
    manifestListLocation := bytes "m.avro"
    summary := OrdMap.insert ∅ Names.operation (bytes "append")
    schemaId := some 0 }

/-- A statistics file with one blob. -/
def oneBlobStatistics (properties : OrdMap Bytes Bytes) : Statistics :=
  { snapshotId := 7
    statisticsPath := bytes "s.puffin"
    fileSizeInBytes := 100
    fileFooterSizeInBytes := 40
    keyMetadata := none
    blobMetadata := [⟨bytes "ndv", 7, 1, [1], properties⟩] }

def oneBlobMetadata (properties : OrdMap Bytes Bytes) : TableMetadataV2 :=
  { tableUuid := bytes "u"
    location := bytes "loc"
    lastSequenceNumber := 1
    lastUpdatedMs := 1000
    lastColumnId := 3
    schemas := [⟨0, [⟨bytes "a", 1, true, .decimal 10 2⟩, ⟨bytes "b", 2, false, .list 3 false (.fixed 16)⟩]⟩]
    currentSchemaId := 0
    partitionSpecs := [⟨0, [⟨1, 1000, bytes "a", bytes "identity"⟩]⟩]
    defaultSpecId := 0
    lastPartitionId := 1000
    properties := ∅
    currentSnapshotId := some 7
    snapshots := [firstSnapshot]
    snapshotLog := [⟨1000, 7⟩]
    metadataLog := []
    sortOrders := [⟨0, []⟩]
    defaultSortOrderId := 0
    refs := OrdMap.insert ∅ (bytes "main") ⟨7, bytes "branch", none, none, none⟩
    statistics := [oneBlobStatistics properties] }

def oneBlobBuilder (properties : OrdMap Bytes Bytes) : TableMetadataV2Builder :=
  filledBuilder (oneBlobMetadata properties) none (some [firstSnapshot]) (some [⟨1000, 7⟩]) none
    (some (oneBlobMetadata properties).refs)

lemma oneBlobBuilder_build (properties : OrdMap Bytes Bytes) :
    (oneBlobBuilder properties).build = .ok (oneBlobMetadata properties) := by
  have hid : (oneBlobMetadata properties).currentSnapshotId = some 7 := rfl
  have hb : Built (oneBlobMetadata properties) := ⟨rfl, rfl, by rw [hid]; decide⟩
  apply build_filledBuilder hb <;> rfl

lemma writable_oneBlobMetadata {properties : OrdMap Bytes Bytes} (h : MapNulFree properties) :
    Writable (oneBlobMetadata properties) := by
  have hempty : MapNulFree ∅ := fun p hp => absurd hp List.not_mem_nil
  have hsummary : MapNulFree firstSnapshot.summary := by decide
  refine ⟨?_, ?_, ?_, ?_, hempty, ?_, ?_, ?_⟩
  · simp [oneBlobMetadata, SchemaTyped, Constructed, InInt32]
  · simp [oneBlobMetadata, SpecTyped, InInt32]
  · intro snap hsnap
    rw [List.mem_singleton.mp hsnap]
    rfl
  · simp [oneBlobMetadata, oneBlobStatistics]
  · intro snap hsnap
    rw [List.mem_singleton.mp hsnap]
    exact hsummary
  · simpa [oneBlobMetadata, oneBlobStatistics] using h
  · intro p hp
    rw [List.mem_singleton.mp hp]
    decide

/-- A blob with a property. -/
theorem readTableMetadataV2_write_ndv :
    (oneBlobBuilder (OrdMap.insert ∅ (bytes "ndv") (bytes "5"))).build =
        .ok (oneBlobMetadata (OrdMap.insert ∅ (bytes "ndv") (bytes "5"))) ∧
      Writable (oneBlobMetadata (OrdMap.insert ∅ (bytes "ndv") (bytes "5"))) ∧
      RoundTrips compactJson (oneBlobMetadata (OrdMap.insert ∅ (bytes "ndv") (bytes "5"))) := by
  have hbuild := oneBlobBuilder_build (OrdMap.insert ∅ (bytes "ndv") (bytes "5"))
  have hw : Writable (oneBlobMetadata (OrdMap.insert ∅ (bytes "ndv") (bytes "5"))) :=
    writable_oneBlobMetadata (by decide)
  refine ⟨hbuild, hw, (readTableMetadataV2_write_iff compactJson _ _ hbuild hw).mpr ?_⟩
  intro stat hstat blob hblob
  rw [List.mem_singleton.mp hstat] at hblob
  rw [List.mem_singleton.mp hblob]
  decide

/-- A blob without properties is written and cannot be read. -/
theorem blobWithoutProperties_notRead :
    (oneBlobBuilder ∅).build = .ok (oneBlobMetadata ∅) ∧ Writable (oneBlobMetadata ∅) ∧
      ¬RoundTrips compactJson (oneBlobMetadata ∅) := by
  have hbuild := oneBlobBuilder_build ∅
  have hw : Writable (oneBlobMetadata ∅) := writable_oneBlobMetadata (fun p hp => absurd hp List.not_mem_nil)
  refine ⟨hbuild, hw, ?_⟩
  rintro ⟨json, hj, h⟩
  rw [writeTableMetadataV2_eq compactJson hw] at hj
  rw [← Except.ok.inj hj, readTableMetadataV2_print] at h
  have hblobs := ((makeTableMetadataV2_write hw (built_of_build hbuild) _).mp h).1
  exact hblobs _ (List.mem_singleton.mpr rfl) _ (List.mem_singleton.mpr rfl) rfl

end IcebergCxx.Proofs

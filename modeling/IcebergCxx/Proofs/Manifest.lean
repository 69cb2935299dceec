import IcebergCxx.Proofs.ManifestSchema

/-!
# Reading a manifest back

The datum of an entry is the same whether one looks at what the setters leave of the default datum
or at what the readers take from it. An entry is read back with its partition values under their
names; only a partition field whose type or name cannot be declared stands in the way.
-/

namespace IcebergCxx.Proofs

open Lib IceAvro

/-- A pass over a list whose every call succeeds. -/
lemma exists_mapM_ok {α β : Type} {f : α → Except String β} {R : α → β → Prop} {l : List α}
    (h : ∀ a ∈ l, ∃ b, f a = .ok b ∧ R a b) : ∃ l', l.mapM f = .ok l' ∧ List.Forall₂ R l l' := by
  induction l with
  | nil => exact ⟨[], rfl, .nil⟩
  | cons a l ih =>
    obtain ⟨b, hb, hr⟩ := h a List.mem_cons_self
    obtain ⟨l', hl', hrs⟩ := ih (fun x hx => h x (List.mem_cons_of_mem _ hx))
    refine ⟨b :: l', ?_, .cons hr hrs⟩
    rw [List.mapM_cons, hb, ok_bind, hl']
    rfl

/-! ### Unions of null and a value -/

/-- The datum of an optional value. -/
def optionalDatum (s : AvroSchema) : Option AvroDatum → AvroDatum
  | none => .union [.null, s] 0 .null
  | some d => .union [.null, s] 1 d

/-- The datum of a container that is null when it is empty. -/
def arrayDatum (items : AvroSchema) (l : List AvroDatum) : AvroDatum :=
  optionalDatum (.array items) (if l.isEmpty then none else some (.array items l))

/-- The datum of an element of a map. -/
def pairDatum {α : Type} (value : α → AvroDatum) (p : Int × α) : AvroDatum :=
  .record [(bytes "key", .int .none p.1), (bytes "value", value p.2)]

section Optional

variable {α : Type} {s items : AvroSchema}

lemma setOptional_ok {set : α → AvroDatum → Except String AvroDatum} {datum : α → AvroDatum}
    (h : ∀ a, set a (defaultDatum s) = .ok (datum a)) (value : Option α) :
    WriteDatum.setOptional set value (defaultDatum (optionalSchema s)) = .ok (optionalDatum s (value.map datum)) := by
  cases value with
  | none => rfl
  | some a =>
    change (set a (defaultDatum s) >>= fun d => Except.ok (AvroDatum.union [.null, s] 1 d)) = _
    rw [h a]
    rfl

lemma conforms_optionalDatum {d : Option AvroDatum} (h : ∀ x ∈ d, Lib.Conforms s x) :
    Lib.Conforms (optionalSchema s) (optionalDatum s d) := by
  cases d with
  | none => exact .union rfl .null
  | some x => exact .union rfl (h x rfl)

lemma optional_int (value : Option Int) :
    ReadDatum.optional ReadDatum.int (optionalDatum (.int .none) (value.map (.int .none))) = .ok value := by
  cases value <;> rfl

lemma optional_long (value : Option Int) :
    ReadDatum.optional ReadDatum.long (optionalDatum (.long .none) (value.map (.long .none))) = .ok value := by
  cases value <;> rfl

lemma optional_string (value : Option Bytes) :
    ReadDatum.optional ReadDatum.string (optionalDatum .string (value.map .string)) = .ok value := by
  cases value <;> rfl

lemma serializeOptionalArray_ok {element : AvroSchema → α → Except String AvroDatum} {datum : α → AvroDatum}
    (h : ∀ a, element items a = .ok (datum a)) (values : List α) :
    WriteDatum.serializeOptionalArray element values (defaultDatum (optionalSchema (.array items))) =
      .ok (arrayDatum items (values.map datum)) := by
  cases values with
  | nil => rfl
  | cons a values =>
    have hmap : (a :: values).mapM (element items) = .ok ((a :: values).map datum) := by
      rw [mapM_ok_iff, List.forall₂_map_right_iff, List.forall₂_same]
      exact fun b _ => h b
    change (((a :: values).mapM (element items) >>= fun added => Except.ok (AvroDatum.array items ([] ++ added))) >>=
      fun d => Except.ok (AvroDatum.union [.null, .array items] 1 d)) = _
    rw [hmap]
    rfl

lemma conforms_arrayDatum {l : List AvroDatum} (h : ∀ d ∈ l, Lib.Conforms items d) :
    Lib.Conforms (optionalSchema (.array items)) (arrayDatum items l) := by
  apply conforms_optionalDatum
  intro x hx
  split_ifs at hx
  · cases hx
  · cases hx
    exact .array h

lemma vector_arrayDatum {f : AvroDatum → Except String α} {datum : α → AvroDatum}
    (h : ∀ a, f (datum a) = .ok a) (values : List α) :
    ReadDatum.vector f (arrayDatum items (values.map datum)) = .ok values := by
  cases values with
  | nil => rfl
  | cons a values =>
    change ((a :: values).map datum).mapM f = _
    rw [mapM_ok_iff, List.forall₂_map_left_iff, List.forall₂_same]
    exact fun b _ => h b

lemma map_arrayDatum {f : List (Bytes × AvroDatum) → Except String α} {datum : α → AvroDatum}
    (h : ∀ (k : Int) a, f [(bytes "key", .int .none k), (bytes "value", datum a)] = .ok a) (m : OrdMap Int α) :
    ReadDatum.map f (arrayDatum items (m.entries.map (pairDatum datum))) = .ok m := by
  have hpair : ∀ p : Int × α, ReadDatum.pair f (pairDatum datum p) = .ok p := by
    intro p
    change (f [(bytes "key", .int .none p.1), (bytes "value", datum p.2)] >>= fun second => Except.ok (p.1, second)) = _
    rw [h]
    rfl
  rw [ReadDatum.map, vector_arrayDatum hpair, ok_bind, OrdMap.foldl_emplace_entries]
  rfl

end Optional

/-! ### Partition values -/

/-- A value of the alternative that the type asks for, of the right size, or null. -/
def ValueConforms (type : IceType) (value : AvroValue) : Prop :=
  match type, value with
  | _, .null => True
  | .boolean, .bool _ => True
  | .int, .int _ => True
  | .date, .int _ => True
  | .long, .long _ => True
  | .time, .long _ => True
  | .timestamp, .long _ => True
  | .timestamptz, .long _ => True
  | .timestampNs, .long _ => True
  | .timestamptzNs, .long _ => True
  | .float, .float _ => True
  | .double, .double _ => True
  | .string, .string _ => True
  | .binary, .bytes _ => True
  | .uuid, .fixed v => v.length = 16
  | .decimal precision _, .fixed v => v.length = decimalSize precision
  | .fixed size, .fixed v => (v.length : Int) = size
  | _, _ => False

def schemaLogical : AvroSchema → LogicalType
  | .int logical => logical
  | .long logical => logical
  | .fixed _ _ logical => logical
  | _ => .none

/-- The datum of a partition value with a logical type. -/
def valueDatum (logical : LogicalType) : AvroValue → Option AvroDatum
  | .null => none
  | .bool v => some (.boolean v)
  | .int v => some (.int logical v.toInt)
  | .long v => some (.long logical v.toInt)
  | .float v => some (.float v)
  | .double v => some (.double v)
  | .string v => some (.string v)
  | .bytes v => some (.bytes v)
  | .fixed v => some (.fixed logical v)

def fieldDatum (type : IceType) (value : AvroValue) : AvroDatum :=
  optionalDatum (valueSchema type) (valueDatum (schemaLogical (valueSchema type)) value)

section Value

variable {type : IceType} {value : AvroValue}

lemma serializePartitionValue_ok (htype : Declarable type) (hvalue : ValueConforms type value) :
    WriteDatum.serializePartitionValue type value (defaultDatum (optionalSchema (valueSchema type))) =
      .ok (fieldDatum type value) := by
  cases type <;> cases value <;> first | rfl | exact absurd hvalue id | exact absurd htype id

lemma conforms_fieldDatum (htype : Declarable type) (hvalue : ValueConforms type value) :
    Lib.Conforms (optionalSchema (valueSchema type)) (fieldDatum type value) := by
  apply conforms_optionalDatum
  intro d hd
  cases value with
  | null => cases hd
  | bool v =>
    cases hd
    cases type <;> first | exact .boolean v | exact absurd hvalue id
  | int v =>
    cases hd
    have hrange : -2 ^ 31 ≤ v.toInt ∧ v.toInt < 2 ^ 31 := ⟨BitVec.le_toInt v, BitVec.toInt_lt⟩
    cases type <;> first | exact .int _ hrange | exact absurd hvalue id
  | long v =>
    cases hd
    have hrange : -2 ^ 63 ≤ v.toInt ∧ v.toInt < 2 ^ 63 := ⟨BitVec.le_toInt v, BitVec.toInt_lt⟩
    cases type <;> first | exact .long _ hrange | exact absurd hvalue id
  | float v =>
    cases hd
    cases type <;> first | exact .float v | exact absurd hvalue id
  | double v =>
    cases hd
    cases type <;> first | exact .double v | exact absurd hvalue id
  | string v =>
    cases hd
    cases type <;> first | exact .string v | exact absurd hvalue id
  | bytes v =>
    cases hd
    cases type <;> first | exact .bytes v | exact absurd hvalue id
  | fixed v =>
    cases hd
    cases type with
    | uuid =>
      have hlen : v.length = 16 := hvalue
      rw [valueSchema, ← hlen]
      exact .fixed _ _ v
    | decimal precision scale =>
      have hlen : v.length = decimalSize precision := hvalue
      rw [valueSchema, ← hlen]
      exact .fixed _ _ v
    | fixed size => exact absurd htype id
    | _ => exact absurd hvalue id

/-- The type that is read may be another one; the value is the same. -/
lemma partitionKey_fieldDatum (hconstructed : Constructed type) (htype : Declarable type)
    (hvalue : ValueConforms type value) (name : Bytes) :
    ∃ type', ReadDatum.partitionKey name (fieldDatum type value) = .ok ⟨name, value, type'⟩ := by
  have hint (v : BitVec 32) : BitVec.ofInt 32 v.toInt = v := BitVec.ofInt_toInt
  have hlong (v : BitVec 64) : BitVec.ofInt 64 v.toInt = v := BitVec.ofInt_toInt
  cases value with
  | null => exact ⟨none, rfl⟩
  | bool v => exact ⟨_, rfl⟩
  | int v =>
    cases type <;> first
      | exact absurd hvalue id
      | exact ⟨_, congrArg (fun x => Except.ok (PartitionKey.mk name (.int x) _)) (hint v)⟩
  | long v =>
    cases type <;> first
      | exact absurd hvalue id
      | exact ⟨_, congrArg (fun x => Except.ok (PartitionKey.mk name (.long x) _)) (hlong v)⟩
  | float v => exact ⟨_, rfl⟩
  | double v => exact ⟨_, rfl⟩
  | string v => exact ⟨_, rfl⟩
  | bytes v => exact ⟨_, rfl⟩
  | fixed v =>
    cases type with
    | uuid => exact ⟨_, rfl⟩
    | decimal precision scale =>
      obtain ⟨h1, h2, -⟩ := hconstructed
      have hlen : v.length = decimalSize precision := hvalue
      have hpos : (0 : Int) < v.length := by
        unfold decimalSize at hlen
        omega
      -- a scale above the precision makes the logical type malformed
      have hlogical : decimalLogical precision scale = .decimal precision scale ∨
          decimalLogical precision scale = .none := by
        unfold decimalLogical
        split_ifs with h
        · rw [fixedLogical]
          split_ifs
          · exact Or.inl rfl
          · exact Or.inr rfl
        · exact Or.inr rfl
      have hdatum : fieldDatum (.decimal precision scale) (.fixed v) =
          .union [.null, valueSchema (.decimal precision scale)] 1 (.fixed (decimalLogical precision scale) v) := rfl
      rw [hdatum]
      rcases hlogical with hl | hl
      · refine ⟨some (.decimal precision scale), ?_⟩
        rw [hl]
        simp only [ReadDatum.partitionKey, AvroDatum.content, makeDecimalType, if_pos (And.intro h1 h2), ok_bind]
        rfl
      · refine ⟨some (.fixed v.length), ?_⟩
        rw [hl]
        simp only [ReadDatum.partitionKey, AvroDatum.content, makeFixedType, if_pos hpos, ok_bind]
        rfl
    | fixed size => exact absurd htype id
    | _ => exact absurd hvalue id

end Value

/-! ### The partition record -/

/-- A value that a partition field may have; a field without a type is always null. -/
def FieldAllows (field : PartitionKeyField) (value : AvroValue) : Prop :=
  match field.type with
  | none => value = .null
  | some type => ValueConforms type value

/-- The tuple has a value for each field of the specification, under its name. -/
def TupleConforms (spec : List PartitionKeyField) (tuple : PartitionTuple) : Prop :=
  (tuple.fields.map PartitionKey.name).Perm (spec.map PartitionKeyField.name) ∧
    ∀ key ∈ tuple.fields, ∀ field ∈ spec, field.name = key.name → FieldAllows field key.value

/-- The names and the values of a tuple, in any order. -/
def SamePairs (t t' : PartitionTuple) : Prop :=
  (t.fields.map (fun key => (key.name, key.value))).Perm (t'.fields.map (fun key => (key.name, key.value)))

/-- The value under a name. -/
def keyValue (tuple : PartitionTuple) (name : Bytes) : AvroValue :=
  ((tuple.fields.find? (fun key => key.name = name)).map PartitionKey.value).getD .null

def partitionRecord (spec : List PartitionKeyField) (tuple : PartitionTuple) : List (Bytes × AvroDatum) :=
  spec.map (fun field => (field.name, fieldDatum (field.type.getD .boolean) (keyValue tuple field.name)))

/-- The specifications whose partition record can be declared under the names it has. -/
structure SpecDeclarable (spec : List PartitionKeyField) : Prop where
  declarable : ∀ field ∈ spec, FieldDeclarable field
  zero_notMem : ∀ field ∈ spec, (0 : Byte) ∉ field.name
  nodup : (spec.map PartitionKeyField.name).Nodup

lemma defaultFields_eq_map (fields : List (Bytes × AvroSchema)) :
    defaultFields fields = fields.map (fun p => (p.1, defaultDatum p.2)) := by
  induction fields with
  | nil => rfl
  | cons p fields ih =>
    rw [defaultFields, ih]
    rfl

lemma conformsFields_map {α : Type} {name : α → Bytes} {schema : α → AvroSchema} {datum : α → AvroDatum} {l : List α}
    (h : ∀ a ∈ l, Lib.Conforms (schema a) (datum a)) :
    ConformsFields (l.map (fun a => (name a, schema a))) (l.map (fun a => (name a, datum a))) := by
  induction l with
  | nil => exact .nil
  | cons a l ih => exact .cons _ (h a List.mem_cons_self) (ih (fun b hb => h b (List.mem_cons_of_mem _ hb)))

/-- The first element under a key, when no two have the same. -/
lemma find?_eq_some_of_nodup {α : Type} {f : α → Bytes} {l : List α} (h : (l.map f).Nodup) {a : α} (ha : a ∈ l) :
    l.find? (fun b => f b = f a) = some a := by
  induction l with
  | nil => cases ha
  | cons b l ih =>
    rw [List.map_cons, List.nodup_cons] at h
    rcases List.mem_cons.mp ha with rfl | ha
    · simp
    · have hne : f b ≠ f a := fun he => h.1 (he ▸ List.mem_map_of_mem ha)
      rw [List.find?_cons_of_neg (by simpa using hne)]
      exact ih h.2 ha

lemma findSetter_map {α : Type} (f : α → Bytes) (g : α → AvroDatum → Except String AvroDatum) (l : List α)
    (name : Bytes) :
    findSetter name (l.map (fun a => (f a, g a))) = (l.find? (fun a => f a = name)).map g := by
  induction l with
  | nil => rfl
  | cons a l ih =>
    rw [List.map_cons, findSetter, List.find?_cons]
    by_cases h : f a = name
    · simp [h]
    · simp [h, ih]

lemma modifyDatum_names {name : Bytes} {f : AvroDatum → Except String AvroDatum}
    {record record' : List (Bytes × AvroDatum)} (h : modifyDatum name f record = .ok record') :
    record'.map Prod.fst = record.map Prod.fst := by
  induction record generalizing record' with
  | nil => cases h
  | cons p record ih =>
    obtain ⟨k, d⟩ := p
    rw [modifyDatum] at h
    split_ifs at h
    · obtain ⟨d', -, h⟩ := bind_ok h
      cases h
      rfl
    · obtain ⟨rest, hrest, h⟩ := bind_ok h
      cases h
      rw [List.map_cons, ih hrest, List.map_cons]

lemma findDatum_isSome {name : Bytes} {record : List (Bytes × AvroDatum)} (h : name ∈ record.map Prod.fst) :
    ∃ d, findDatum name record = some d := by
  induction record with
  | nil => cases h
  | cons p record ih =>
    obtain ⟨k, d⟩ := p
    rw [findDatum]
    split_ifs with hk
    · exact ⟨d, rfl⟩
    · rcases List.mem_cons.mp h with h | h
      · exact absurd h.symm hk
      · exact ih h

section Partition

variable {spec : List PartitionKeyField} {tuple : PartitionTuple}

/-- Fields that the record has and the specification types are set one after another. -/
lemma foldlM_serializePartitionField {keys : List PartitionKey} {record : List (Bytes × AvroDatum)} {type : Bytes → IceType}
    (hnames : ∀ key ∈ keys, key.name ∈ record.map Prod.fst)
    (htypes : ∀ key ∈ keys, extractTypeFromPartitionSpec spec key.name = some (type key.name)) :
    keys.foldlM (serializePartitionField spec) record =
      (keys.map (fun key => (key.name, WriteDatum.serializePartitionValue (type key.name) key.value))).foldlM
        (fun record setter => modifyDatum setter.1 setter.2 record) record := by
  induction keys generalizing record with
  | nil => rfl
  | cons key keys ih =>
    obtain ⟨d, hd⟩ := findDatum_isSome (hnames key List.mem_cons_self)
    have hstep : serializePartitionField spec record key =
        modifyDatum key.name (WriteDatum.serializePartitionValue (type key.name) key.value) record := by
      rw [serializePartitionField, hd, htypes key List.mem_cons_self]
    rw [List.foldlM_cons, List.map_cons, List.foldlM_cons, hstep]
    cases hr : modifyDatum key.name (WriteDatum.serializePartitionValue (type key.name) key.value) record with
    | error e => rfl
    | ok record' =>
      rw [ok_bind, ok_bind]
      apply ih
      · intro key' hkey'
        rw [modifyDatum_names hr]
        exact hnames key' (List.mem_cons_of_mem _ hkey')
      · exact fun key' hkey' => htypes key' (List.mem_cons_of_mem _ hkey')

lemma keyValue_of_mem (h : (tuple.fields.map PartitionKey.name).Nodup) {key : PartitionKey} (hkey : key ∈ tuple.fields) :
    keyValue tuple key.name = key.value := by
  rw [keyValue, find?_eq_some_of_nodup h hkey]
  rfl

lemma extractType_of_mem (h : (spec.map PartitionKeyField.name).Nodup) {field : PartitionKeyField}
    (hfield : field ∈ spec) : extractTypeFromPartitionSpec spec field.name = field.type := by
  rw [extractTypeFromPartitionSpec, find?_eq_some_of_nodup h hfield]
  rfl

/-- The field of the specification with a name of the tuple, and the other way round. -/
lemma TupleConforms.exists_key (h : TupleConforms spec tuple) {field : PartitionKeyField} (hfield : field ∈ spec) :
    ∃ key ∈ tuple.fields, key.name = field.name := by
  have hmem := h.1.mem_iff.mpr (List.mem_map_of_mem hfield)
  obtain ⟨key, hkey, hname⟩ := List.mem_map.mp hmem
  exact ⟨key, hkey, hname⟩

lemma TupleConforms.exists_field (h : TupleConforms spec tuple) {key : PartitionKey} (hkey : key ∈ tuple.fields) :
    ∃ field ∈ spec, field.name = key.name := by
  have hmem := h.1.mem_iff.mp (List.mem_map_of_mem hkey)
  obtain ⟨field, hfield, hname⟩ := List.mem_map.mp hmem
  exact ⟨field, hfield, hname⟩

lemma TupleConforms.nodup (h : TupleConforms spec tuple) (hspec : SpecDeclarable spec) :
    (tuple.fields.map PartitionKey.name).Nodup :=
  h.1.nodup_iff.mpr hspec.nodup

/-- What the tuple has for a field. -/
lemma TupleConforms.value (h : TupleConforms spec tuple) (hspec : SpecDeclarable spec) {field : PartitionKeyField}
    (hfield : field ∈ spec) :
    ∃ type, field.type = some type ∧ Declarable type ∧ ValueConforms type (keyValue tuple field.name) := by
  obtain ⟨type, htype, hdeclarable⟩ := hspec.declarable field hfield
  obtain ⟨key, hkey, hname⟩ := h.exists_key hfield
  have hallows := h.2 key hkey field hfield hname.symm
  rw [FieldAllows, htype] at hallows
  refine ⟨type, htype, hdeclarable, ?_⟩
  rw [← hname, keyValue_of_mem (h.nodup hspec) hkey]
  exact hallows

lemma partitionFields_eq (hspec : SpecDeclarable spec) :
    partitionFields spec = spec.map (fun field => (field.name, fieldSchema field)) := by
  apply List.map_congr_left
  intro field hfield
  rw [cString_of_notMem (hspec.zero_notMem field hfield)]

lemma fieldSchema_of_type {field : PartitionKeyField} {type : IceType} (h : field.type = some type) :
    fieldSchema field = optionalSchema (valueSchema type) := by
  rw [fieldSchema, h]
  rfl

/-- The partition record is filled by name. -/
lemma serializePartition_ok (hspec : SpecDeclarable spec) (h : TupleConforms spec tuple) :
    serializePartition spec tuple (defaultDatum (partitionSchema spec)) = .ok (.record (partitionRecord spec tuple)) := by
  have hrecord : defaultFields (partitionFields spec) =
      spec.map (fun field => (field.name, defaultDatum (fieldSchema field))) := by
    rw [partitionFields_eq hspec, defaultFields_eq_map, List.map_map]
    rfl
  have hnames : (spec.map (fun field => (field.name, defaultDatum (fieldSchema field)))).map Prod.fst =
      spec.map PartitionKeyField.name := by
    rw [List.map_map]
    rfl
  have hmem : ∀ key ∈ tuple.fields, key.name ∈
      (spec.map (fun field => (field.name, defaultDatum (fieldSchema field)))).map Prod.fst := by
    intro key hkey
    rw [hnames]
    exact h.1.mem_iff.mp (List.mem_map_of_mem hkey)
  have htypes : ∀ key ∈ tuple.fields, extractTypeFromPartitionSpec spec key.name =
      some ((extractTypeFromPartitionSpec spec key.name).getD .boolean) := by
    intro key hkey
    obtain ⟨field, hfield, hname⟩ := h.exists_field hkey
    obtain ⟨type, htype, -⟩ := hspec.declarable field hfield
    rw [← hname, extractType_of_mem hspec.nodup hfield, htype]
    rfl
  have hfold : tuple.fields.foldlM (serializePartitionField spec) (defaultFields (partitionFields spec)) =
      .ok (partitionRecord spec tuple) := by
    rw [hrecord, @foldlM_serializePartitionField spec tuple.fields _
      (fun name => (extractTypeFromPartitionSpec spec name).getD .boolean) hmem htypes]
    apply foldlM_modifyDatum
    · rw [List.map_map]
      exact h.nodup hspec
    · rw [hnames]
      exact hspec.nodup
    · intro s hs
      obtain ⟨key, hkey, rfl⟩ := List.mem_map.mp hs
      exact hmem key hkey
    · rw [partitionRecord, List.forall₂_map_left_iff, List.forall₂_map_right_iff, List.forall₂_same]
      intro field hfield
      obtain ⟨type, htype, hdeclarable, hvalue⟩ := h.value hspec hfield
      obtain ⟨key, hkey, hname⟩ := h.exists_key hfield
      have hfind := findSetter_map PartitionKey.name (fun key =>
        WriteDatum.serializePartitionValue ((extractTypeFromPartitionSpec spec key.name).getD .boolean) key.value)
        tuple.fields field.name
      rw [← hname, find?_eq_some_of_nodup (h.nodup hspec) hkey, Option.map_some, hname,
        extractType_of_mem hspec.nodup hfield, htype] at hfind
      rw [← hname, keyValue_of_mem (h.nodup hspec) hkey] at hvalue
      refine ⟨rfl, ?_⟩
      simp only [hfind]
      rw [htype, fieldSchema_of_type htype, ← hname, keyValue_of_mem (h.nodup hspec) hkey]
      exact serializePartitionValue_ok hdeclarable hvalue
  rw [partitionSchema, defaultDatum, serializePartition, hfold]
  rfl

lemma conforms_partitionRecord (hspec : SpecDeclarable spec) (h : TupleConforms spec tuple) :
    Lib.Conforms (partitionSchema spec) (.record (partitionRecord spec tuple)) := by
  rw [partitionSchema, partitionFields_eq hspec]
  apply Lib.Conforms.record
  apply conformsFields_map
  intro field hfield
  obtain ⟨type, htype, hdeclarable, hvalue⟩ := h.value hspec hfield
  rw [fieldSchema_of_type htype, htype]
  exact conforms_fieldDatum hdeclarable hvalue

/-- The pairs of the tuple in the order of the specification. -/
lemma TupleConforms.pairs_perm (h : TupleConforms spec tuple) (hspec : SpecDeclarable spec) :
    (tuple.fields.map (fun key => (key.name, key.value))).Perm
      (spec.map (fun field => (field.name, keyValue tuple field.name))) := by
  have hperm := h.1.map (fun name => (name, keyValue tuple name))
  rw [List.map_map, List.map_map] at hperm
  have hsame : tuple.fields.map (fun key => (key.name, key.value)) =
      tuple.fields.map ((fun name => (name, keyValue tuple name)) ∘ PartitionKey.name) := by
    apply List.map_congr_left
    intro key hkey
    rw [Function.comp_apply, keyValue_of_mem (h.nodup hspec) hkey]
  rw [hsame]
  exact hperm

lemma partitionTuple_partitionRecord (hconstructed : SpecConstructed spec) (hspec : SpecDeclarable spec)
    (h : TupleConforms spec tuple) :
    ∃ tuple', ReadDatum.partitionTuple (.record (partitionRecord spec tuple)) = .ok tuple' ∧ SamePairs tuple tuple' := by
  have hfield : ∀ field ∈ spec, ∃ key,
      ReadDatum.partitionKey field.name (fieldDatum (field.type.getD .boolean) (keyValue tuple field.name)) = .ok key ∧
        (field.name, keyValue tuple field.name) = (key.name, key.value) := by
    intro field hfield
    obtain ⟨type, htype, hdeclarable, hvalue⟩ := h.value hspec hfield
    obtain ⟨type', hkey⟩ := partitionKey_fieldDatum (hconstructed field hfield type htype) hdeclarable hvalue field.name
    rw [htype]
    exact ⟨_, hkey, rfl⟩
  obtain ⟨keys, hkeys, hsame⟩ := exists_mapM_ok hfield
  have hpairs : keys.map (fun key => (key.name, key.value)) =
      spec.map (fun field => (field.name, keyValue tuple field.name)) := by
    rw [eq_comm, ← List.forall₂_eq_eq_eq, List.forall₂_map_left_iff, List.forall₂_map_right_iff]
    exact hsame
  have hread : (partitionRecord spec tuple).mapM (fun field => ReadDatum.partitionKey field.1 field.2) = .ok keys := by
    rw [partitionRecord, List.mapM_map]
    exact hkeys
  refine ⟨⟨keys.insertionSort (fun lhs rhs => lhs.name ≤ rhs.name)⟩, ?_, ?_⟩
  · simp only [ReadDatum.partitionTuple, AvroDatum.content, hread, ok_bind]
    rfl
  · rw [SamePairs]
    have hsort := (List.perm_insertionSort (fun lhs rhs : PartitionKey => lhs.name ≤ rhs.name) keys).map
      (fun key => (key.name, key.value))
    rw [hpairs] at hsort
    exact (h.pairs_perm hspec).trans hsort.symm

end Partition

/-! ### The record of a data file -/

/-- The datum of a map. -/
def mapDatum {α : Type} (entry : String) (s : AvroSchema) (datum : α → AvroDatum) (m : OrdMap Int α) : AvroDatum :=
  arrayDatum (.record (bytes entry) [(bytes "key", .int .none), (bytes "value", s)]) (m.entries.map (pairDatum datum))

/-- The members of the record, in the order of the schema. -/
def dataFileRecord (partition : AvroDatum) (f : ContentFile) : List (Bytes × AvroDatum) :=
  [(bytes "content", .int .none (contentNumber f.content)),
   (bytes "file_path", .string f.filePath),
   (bytes "file_format", .string f.fileFormat),
   (bytes "record_count", .long .none f.recordCount),
   (bytes "file_size_in_bytes", .long .none f.fileSizeInBytes),
   (bytes "equality_ids", arrayDatum (.int .none) (f.equalityIds.map (.int .none))),
   (bytes "referenced_data_file", optionalDatum .string (f.referencedDataFile.map .string)),
   (bytes "content_offset", optionalDatum (.long .none) (f.contentOffset.map (.long .none))),
   (bytes "content_size_in_bytes", optionalDatum (.long .none) (f.contentSizeInBytes.map (.long .none))),
   (bytes "column_sizes", mapDatum "k117_v118" (.long .none) (.long .none) f.columnSizes),
   (bytes "value_counts", mapDatum "k119_v120" (.long .none) (.long .none) f.valueCounts),
   (bytes "null_value_counts", mapDatum "k121_v122" (.long .none) (.long .none) f.nullValueCounts),
   (bytes "lower_bounds", mapDatum "k126_v127" .bytes .bytes f.lowerBounds),
   (bytes "upper_bounds", mapDatum "k129_v130" .bytes .bytes f.upperBounds),
   (bytes "nan_value_counts", mapDatum "k138_v139" (.long .none) (.long .none) f.nanValueCounts),
   (bytes "distinct_counts", mapDatum "k123_v124" (.long .none) (.long .none) f.distinctCounts),
   (bytes "split_offsets", arrayDatum (.long .none) (f.splitOffsets.map (.long .none))),
   (bytes "sort_order_id", optionalDatum (.int .none) (f.sortOrderId.map (.int .none))),
   (bytes "partition", partition)]

section DataFile

variable {spec : List PartitionKeyField} {f : ContentFile} {s partition : AvroSchema} {d : AvroDatum}

lemma serializeOptionalInt_ok (value : Option Int) :
    WriteDatum.serializeOptionalInt value (defaultDatum (optionalSchema (.int .none))) =
      .ok (optionalDatum (.int .none) (value.map (.int .none))) := by
  rw [WriteDatum.serializeOptionalInt]
  apply setOptional_ok
  intro v
  rfl

lemma serializeOptionalLong_ok (value : Option Int) :
    WriteDatum.serializeOptionalLong value (defaultDatum (optionalSchema (.long .none))) =
      .ok (optionalDatum (.long .none) (value.map (.long .none))) := by
  rw [WriteDatum.serializeOptionalLong]
  apply setOptional_ok
  intro v
  rfl

lemma serializeOptionalString_ok (value : Option Bytes) :
    WriteDatum.serializeOptionalString value (defaultDatum (optionalSchema .string)) =
      .ok (optionalDatum .string (value.map .string)) := by
  rw [WriteDatum.serializeOptionalString]
  apply setOptional_ok
  intro v
  rfl

lemma serializeOptionalMapIntLong_ok (entry : String) (m : OrdMap Int Int) :
    WriteDatum.serializeOptionalMapIntLong m (defaultDatum (mapSchema entry (.long .none))) =
      .ok (mapDatum entry (.long .none) (.long .none) m) :=
  serializeOptionalArray_ok (fun _ => rfl) m.entries

lemma serializeOptionalMapIntBytes_ok (entry : String) (m : OrdMap Int Bytes) :
    WriteDatum.serializeOptionalMapIntBytes m (defaultDatum (mapSchema entry .bytes)) =
      .ok (mapDatum entry .bytes .bytes m) :=
  serializeOptionalArray_ok (fun _ => rfl) m.entries

lemma serializeOptionalVectorInt_ok (values : List Int) :
    WriteDatum.serializeOptionalVectorInt values (defaultDatum (optionalSchema (.array (.int .none)))) =
      .ok (arrayDatum (.int .none) (values.map (.int .none))) :=
  serializeOptionalArray_ok (fun _ => rfl) values

lemma serializeOptionalVectorLong_ok (values : List Int) :
    WriteDatum.serializeOptionalVectorLong values (defaultDatum (optionalSchema (.array (.long .none)))) =
      .ok (arrayDatum (.long .none) (values.map (.long .none))) :=
  serializeOptionalArray_ok (fun _ => rfl) values

/-- All members are set, whatever the order. -/
lemma setMembers_ok {setters : List (Bytes × (AvroDatum → Except String AvroDatum))} {name : Bytes}
    {fields : List (Bytes × AvroSchema)} {result : List (Bytes × AvroDatum)} (hsetters : (setters.map Prod.fst).Nodup)
    (hperm : setters.map Prod.fst ⊆ fields.map Prod.fst) (hfields : (fields.map Prod.fst).Nodup)
    (h : List.Forall₂ (SetTo setters) (defaultFields fields) result) :
    setMembers setters (defaultDatum (.record name fields)) = .ok (.record result) := by
  have hnames : (defaultFields fields).map Prod.fst = fields.map Prod.fst := by
    rw [defaultFields_eq_map, List.map_map]
    rfl
  have hfold : setters.foldlM (fun record setter => modifyDatum setter.1 setter.2 record) (defaultFields fields) =
      .ok result := by
    apply foldlM_modifyDatum hsetters (by rw [hnames]; exact hfields) _ h
    intro s hs
    rw [hnames]
    exact hperm (List.mem_map_of_mem hs)
  rw [defaultDatum, setMembers, hfold]
  rfl

lemma serializeDataFile_ok
    (h : serializePartition spec f.partitionTuple (defaultDatum partition) = .ok d) :
    serializeDataFile spec f (defaultDatum (dataFileSchema partition)) = .ok (.record (dataFileRecord d f)) := by
  apply setMembers_ok
  · simp only [List.map_cons, List.map_nil]
    decide
  · simp only [List.map_cons, List.map_nil]
    decide
  · simp only [List.map_cons, List.map_nil]
    decide
  · refine .cons ⟨rfl, rfl⟩ (.cons ⟨rfl, rfl⟩ (.cons ⟨rfl, rfl⟩ (.cons ⟨rfl, rfl⟩ (.cons ⟨rfl, rfl⟩ ?_))))
    refine .cons ⟨rfl, serializeOptionalVectorInt_ok _⟩ (.cons ⟨rfl, serializeOptionalString_ok _⟩ ?_)
    refine .cons ⟨rfl, serializeOptionalLong_ok _⟩ (.cons ⟨rfl, serializeOptionalLong_ok _⟩ ?_)
    refine .cons ⟨rfl, serializeOptionalMapIntLong_ok _ _⟩ (.cons ⟨rfl, serializeOptionalMapIntLong_ok _ _⟩ ?_)
    refine .cons ⟨rfl, serializeOptionalMapIntLong_ok _ _⟩ (.cons ⟨rfl, serializeOptionalMapIntBytes_ok _ _⟩ ?_)
    refine .cons ⟨rfl, serializeOptionalMapIntBytes_ok _ _⟩ (.cons ⟨rfl, serializeOptionalMapIntLong_ok _ _⟩ ?_)
    refine .cons ⟨rfl, serializeOptionalMapIntLong_ok _ _⟩ (.cons ⟨rfl, serializeOptionalVectorLong_ok _⟩ ?_)
    exact .cons ⟨rfl, serializeOptionalInt_ok _⟩ (.cons ⟨rfl, h⟩ .nil)

end DataFile

/-! ### The numbers of an entry fit their types -/

def LongMapTyped (m : OrdMap Int Int) : Prop := ∀ p ∈ m.entries, InInt32 p.1 ∧ InInt64 p.2

def BytesMapTyped (m : OrdMap Int Bytes) : Prop := ∀ p ∈ m.entries, InInt32 p.1

structure ContentFileTyped (f : ContentFile) : Prop where
  recordCount : InInt64 f.recordCount
  fileSizeInBytes : InInt64 f.fileSizeInBytes
  columnSizes : LongMapTyped f.columnSizes
  valueCounts : LongMapTyped f.valueCounts
  nullValueCounts : LongMapTyped f.nullValueCounts
  nanValueCounts : LongMapTyped f.nanValueCounts
  distinctCounts : LongMapTyped f.distinctCounts
  lowerBounds : BytesMapTyped f.lowerBounds
  upperBounds : BytesMapTyped f.upperBounds
  splitOffsets : ∀ v ∈ f.splitOffsets, InInt64 v
  equalityIds : ∀ v ∈ f.equalityIds, InInt32 v
  sortOrderId : ∀ v ∈ f.sortOrderId, InInt32 v
  contentOffset : ∀ v ∈ f.contentOffset, InInt64 v
  contentSizeInBytes : ∀ v ∈ f.contentSizeInBytes, InInt64 v

structure ManifestEntryTyped (e : ManifestEntry) : Prop where
  snapshotId : ∀ v ∈ e.snapshotId, InInt64 v
  sequenceNumber : ∀ v ∈ e.sequenceNumber, InInt64 v
  fileSequenceNumber : ∀ v ∈ e.fileSequenceNumber, InInt64 v
  dataFile : ContentFileTyped e.dataFile

section Conforming

variable {f : ContentFile} {partition : AvroSchema} {d : AvroDatum}

lemma conforms_int {v : Int} (h : InInt32 v) : Lib.Conforms (.int .none) (.int .none v) := .int _ h

lemma conforms_long {v : Int} (h : InInt64 v) : Lib.Conforms (.long .none) (.long .none v) := by
  obtain ⟨h1, h2⟩ := h
  unfold int64Min at h1
  unfold int64Max at h2
  exact .long _ ⟨h1, by omega⟩

lemma conforms_optionalInt {value : Option Int} (h : ∀ v ∈ value, InInt32 v) :
    Lib.Conforms (optionalSchema (.int .none)) (optionalDatum (.int .none) (value.map (.int .none))) := by
  apply conforms_optionalDatum
  intro x hx
  obtain ⟨v, hv, rfl⟩ := Option.map_eq_some_iff.mp hx
  exact conforms_int (h v hv)

lemma conforms_optionalLong {value : Option Int} (h : ∀ v ∈ value, InInt64 v) :
    Lib.Conforms (optionalSchema (.long .none)) (optionalDatum (.long .none) (value.map (.long .none))) := by
  apply conforms_optionalDatum
  intro x hx
  obtain ⟨v, hv, rfl⟩ := Option.map_eq_some_iff.mp hx
  exact conforms_long (h v hv)

lemma conforms_optionalString (value : Option Bytes) :
    Lib.Conforms (optionalSchema .string) (optionalDatum .string (value.map .string)) := by
  apply conforms_optionalDatum
  intro x hx
  obtain ⟨v, -, rfl⟩ := Option.map_eq_some_iff.mp hx
  exact .string v

lemma conforms_mapDatum {α : Type} {entry : String} {s : AvroSchema} {datum : α → AvroDatum} {m : OrdMap Int α}
    (h : ∀ p ∈ m.entries, InInt32 p.1 ∧ Lib.Conforms s (datum p.2)) :
    Lib.Conforms (mapSchema entry s) (mapDatum entry s datum m) := by
  apply conforms_arrayDatum
  intro x hx
  obtain ⟨p, hp, rfl⟩ := List.mem_map.mp hx
  exact .record _ (.cons _ (conforms_int (h p hp).1) (.cons _ (h p hp).2 .nil))

lemma conforms_longMap {entry : String} {m : OrdMap Int Int} (h : LongMapTyped m) :
    Lib.Conforms (mapSchema entry (.long .none)) (mapDatum entry (.long .none) (.long .none) m) :=
  conforms_mapDatum (fun p hp => ⟨(h p hp).1, conforms_long (h p hp).2⟩)

lemma conforms_bytesMap {entry : String} {m : OrdMap Int Bytes} (h : BytesMapTyped m) :
    Lib.Conforms (mapSchema entry .bytes) (mapDatum entry .bytes .bytes m) :=
  conforms_mapDatum (fun p hp => ⟨h p hp, .bytes p.2⟩)

lemma conforms_longArray {values : List Int} (h : ∀ v ∈ values, InInt64 v) :
    Lib.Conforms (optionalSchema (.array (.long .none))) (arrayDatum (.long .none) (values.map (.long .none))) := by
  apply conforms_arrayDatum
  intro x hx
  obtain ⟨v, hv, rfl⟩ := List.mem_map.mp hx
  exact conforms_long (h v hv)

lemma conforms_intArray {values : List Int} (h : ∀ v ∈ values, InInt32 v) :
    Lib.Conforms (optionalSchema (.array (.int .none))) (arrayDatum (.int .none) (values.map (.int .none))) := by
  apply conforms_arrayDatum
  intro x hx
  obtain ⟨v, hv, rfl⟩ := List.mem_map.mp hx
  exact conforms_int (h v hv)

lemma inInt32_contentNumber (content : FileContent) : InInt32 (contentNumber content) := by
  cases content <;> simp [contentNumber, InInt32]

lemma inInt32_statusNumber (status : EntryStatus) : InInt32 (statusNumber status) := by
  cases status <;> simp [statusNumber, InInt32]

lemma conforms_dataFileRecord (hf : ContentFileTyped f) (hd : Lib.Conforms partition d) :
    Lib.Conforms (dataFileSchema partition) (.record (dataFileRecord d f)) := by
  apply Lib.Conforms.record
  refine .cons _ (conforms_int (inInt32_contentNumber _)) (.cons _ (.string _) (.cons _ (.string _) ?_))
  refine .cons _ (conforms_long hf.recordCount) (.cons _ (conforms_long hf.fileSizeInBytes) ?_)
  refine .cons _ (conforms_intArray hf.equalityIds) (.cons _ (conforms_optionalString _) ?_)
  refine .cons _ (conforms_optionalLong hf.contentOffset) (.cons _ (conforms_optionalLong hf.contentSizeInBytes) ?_)
  refine .cons _ (conforms_longMap hf.columnSizes) (.cons _ (conforms_longMap hf.valueCounts) ?_)
  refine .cons _ (conforms_longMap hf.nullValueCounts) (.cons _ (conforms_bytesMap hf.lowerBounds) ?_)
  refine .cons _ (conforms_bytesMap hf.upperBounds) (.cons _ (conforms_longMap hf.nanValueCounts) ?_)
  refine .cons _ (conforms_longMap hf.distinctCounts) (.cons _ (conforms_longArray hf.splitOffsets) ?_)
  exact .cons _ (conforms_optionalInt hf.sortOrderId) (.cons _ hd .nil)

end Conforming

/-! ### Reading a data file -/

section Reading

variable {f : ContentFile} {d : AvroDatum} {tuple : PartitionTuple}

lemma mapIntLong_mapDatum (entry : String) (m : OrdMap Int Int) :
    ReadDatum.mapIntLong (mapDatum entry (.long .none) (.long .none) m) = .ok m :=
  map_arrayDatum (fun _ _ => rfl) m

lemma mapIntBytes_mapDatum (entry : String) (m : OrdMap Int Bytes) :
    ReadDatum.mapIntBytes (mapDatum entry .bytes .bytes m) = .ok m :=
  map_arrayDatum (fun _ _ => rfl) m

lemma vector_int (values : List Int) :
    ReadDatum.vector ReadDatum.int (arrayDatum (.int .none) (values.map (.int .none))) = .ok values := by
  apply vector_arrayDatum
  intro v
  rfl

lemma vector_long (values : List Int) :
    ReadDatum.vector ReadDatum.long (arrayDatum (.long .none) (values.map (.long .none))) = .ok values := by
  apply vector_arrayDatum
  intro v
  rfl

lemma fileContent_contentNumber (content : FileContent) : ReadDatum.fileContent (contentNumber content) = .ok content := by
  cases content <;> rfl

lemma status_statusNumber (status : EntryStatus) : ReadDatum.status (statusNumber status) = .ok status := by
  cases status <;> rfl

open ReadDatum in
/-- A data file is read back with the partition that is read. -/
lemma deserializeDataFile_ok (h : ReadDatum.partitionTuple d = .ok tuple) :
    deserializeDataFile {} (.record (dataFileRecord d f)) = .ok { f with partitionTuple := tuple } := by
  have hcontent : (extractField int (dataFileRecord d f) "content" >>= fileContent) = .ok f.content :=
    fileContent_contentNumber f.content
  have hpath : extractField string (dataFileRecord d f) "file_path" = .ok f.filePath := rfl
  have hformat : extractField string (dataFileRecord d f) "file_format" = .ok f.fileFormat := rfl
  have hcount : extractField long (dataFileRecord d f) "record_count" = .ok f.recordCount := rfl
  have hsize : extractField long (dataFileRecord d f) "file_size_in_bytes" = .ok f.fileSizeInBytes := rfl
  have hsort : extractOr none (optional int) (dataFileRecord d f) "sort_order_id" = .ok f.sortOrderId :=
    optional_int f.sortOrderId
  have hreferenced : extractOr none (optional string) (dataFileRecord d f) "referenced_data_file" =
      .ok f.referencedDataFile := optional_string f.referencedDataFile
  have hoffset : extractOr none (optional long) (dataFileRecord d f) "content_offset" = .ok f.contentOffset :=
    optional_long f.contentOffset
  have hlength : extractOr none (optional long) (dataFileRecord d f) "content_size_in_bytes" =
      .ok f.contentSizeInBytes := optional_long f.contentSizeInBytes
  have hcolumns : extractOr ∅ mapIntLong (dataFileRecord d f) "column_sizes" = .ok f.columnSizes :=
    mapIntLong_mapDatum _ f.columnSizes
  have hvalues : extractOr ∅ mapIntLong (dataFileRecord d f) "value_counts" = .ok f.valueCounts :=
    mapIntLong_mapDatum _ f.valueCounts
  have hsplit : extractOr [] (vector long) (dataFileRecord d f) "split_offsets" = .ok f.splitOffsets :=
    vector_long f.splitOffsets
  have hnulls : extractOr ∅ mapIntLong (dataFileRecord d f) "null_value_counts" = .ok f.nullValueCounts :=
    mapIntLong_mapDatum _ f.nullValueCounts
  have hlower : extractOr ∅ mapIntBytes (dataFileRecord d f) "lower_bounds" = .ok f.lowerBounds :=
    mapIntBytes_mapDatum _ f.lowerBounds
  have hupper : extractOr ∅ mapIntBytes (dataFileRecord d f) "upper_bounds" = .ok f.upperBounds :=
    mapIntBytes_mapDatum _ f.upperBounds
  have hpartition : extractField partitionTuple (dataFileRecord d f) "partition" = .ok tuple := h
  have hnans : extractOr ∅ mapIntLong (dataFileRecord d f) "nan_value_counts" = .ok f.nanValueCounts :=
    mapIntLong_mapDatum _ f.nanValueCounts
  have hdistinct : extractOr ∅ mapIntLong (dataFileRecord d f) "distinct_counts" = .ok f.distinctCounts :=
    mapIntLong_mapDatum _ f.distinctCounts
  have hequality : extractOr [] (vector int) (dataFileRecord d f) "equality_ids" = .ok f.equalityIds :=
    vector_int f.equalityIds
  simp only [deserializeDataFile, AvroDatum.content, extractIf, if_true, hcontent, hpath, hformat, hcount, hsize, hsort,
    hreferenced, hoffset, hlength, hcolumns, hvalues, hsplit, hnulls, hlower, hupper, hpartition, hnans, hdistinct,
    hequality, ok_bind]
  rfl

end Reading

/-! ### Entries -/

def manifestEntryRecord (dataFile : AvroDatum) (e : ManifestEntry) : List (Bytes × AvroDatum) :=
  [(bytes "status", .int .none (statusNumber e.status)),
   (bytes "snapshot_id", optionalDatum (.long .none) (e.snapshotId.map (.long .none))),
   (bytes "sequence_number", optionalDatum (.long .none) (e.sequenceNumber.map (.long .none))),
   (bytes "file_sequence_number", optionalDatum (.long .none) (e.fileSequenceNumber.map (.long .none))),
   (bytes "data_file", dataFile)]

/-- The datum that an entry is written as. -/
def manifestEntryDatum (spec : List PartitionKeyField) (e : ManifestEntry) : AvroDatum :=
  .record (manifestEntryRecord
    (.record (dataFileRecord (.record (partitionRecord spec e.dataFile.partitionTuple)) e.dataFile)) e)

/-- All fields are the same, but for the order and the types of the partition values. -/
def SameEntry (e e' : ManifestEntry) : Prop :=
  ∃ tuple, SamePairs e.dataFile.partitionTuple tuple ∧
    e' = { e with dataFile := { e.dataFile with partitionTuple := tuple } }

section Entry

variable {spec : List PartitionKeyField} {e : ManifestEntry}

lemma serializeManifestEntry_ok (hspec : SpecDeclarable spec) (h : TupleConforms spec e.dataFile.partitionTuple) :
    serializeManifestEntry spec e (defaultDatum (manifestEntrySchema (partitionSchema spec))) =
      .ok (manifestEntryDatum spec e) := by
  have hfile := serializeDataFile_ok (serializePartition_ok hspec h)
  apply setMembers_ok
  · simp only [List.map_cons, List.map_nil]
    decide
  · simp only [List.map_cons, List.map_nil]
    decide
  · simp only [List.map_cons, List.map_nil]
    decide
  · refine .cons ⟨rfl, rfl⟩ (.cons ⟨rfl, serializeOptionalLong_ok _⟩ (.cons ⟨rfl, serializeOptionalLong_ok _⟩ ?_))
    exact .cons ⟨rfl, serializeOptionalLong_ok _⟩ (.cons ⟨rfl, hfile⟩ .nil)

lemma conforms_manifestEntryDatum (hspec : SpecDeclarable spec) (h : TupleConforms spec e.dataFile.partitionTuple)
    (he : ManifestEntryTyped e) :
    Lib.Conforms (manifestEntrySchema (partitionSchema spec)) (manifestEntryDatum spec e) := by
  apply Lib.Conforms.record
  refine .cons _ (conforms_int (inInt32_statusNumber _)) (.cons _ (conforms_optionalLong he.snapshotId) ?_)
  refine .cons _ (conforms_optionalLong he.sequenceNumber) (.cons _ (conforms_optionalLong he.fileSequenceNumber) ?_)
  exact .cons _ (conforms_dataFileRecord he.dataFile (conforms_partitionRecord hspec h)) .nil

open ReadDatum in
lemma deserializeManifestEntry_ok (hconstructed : SpecConstructed spec) (hspec : SpecDeclarable spec)
    (h : TupleConforms spec e.dataFile.partitionTuple) :
    ∃ e', deserializeManifestEntry {} (manifestEntryDatum spec e) = .ok e' ∧ SameEntry e e' := by
  obtain ⟨tuple, htuple, hsame⟩ := partitionTuple_partitionRecord hconstructed hspec h
  have hfile := @deserializeDataFile_ok e.dataFile _ tuple htuple
  refine ⟨{ e with dataFile := { e.dataFile with partitionTuple := tuple } }, ?_, tuple, hsame, rfl⟩
  generalize hrecord : AvroDatum.record (dataFileRecord (.record (partitionRecord spec e.dataFile.partitionTuple))
    e.dataFile) = dataFile at hfile
  have hdatum : manifestEntryDatum spec e = .record (manifestEntryRecord dataFile e) := by
    rw [manifestEntryDatum, hrecord]
  have hfind : findDatum (bytes "data_file") (manifestEntryRecord dataFile e) = some dataFile := rfl
  have hstatus : (extractField int (manifestEntryRecord dataFile e) "status" >>= status) = .ok e.status :=
    status_statusNumber e.status
  have hsnapshot : extractOr none (optional long) (manifestEntryRecord dataFile e) "snapshot_id" = .ok e.snapshotId :=
    optional_long e.snapshotId
  have hsequence : extractOr none (optional long) (manifestEntryRecord dataFile e) "sequence_number" =
      .ok e.sequenceNumber := optional_long e.sequenceNumber
  have hfileSequence : extractOr none (optional long) (manifestEntryRecord dataFile e) "file_sequence_number" =
      .ok e.fileSequenceNumber := optional_long e.fileSequenceNumber
  rw [hdatum]
  simp only [deserializeManifestEntry, AvroDatum.content, extractIf, if_true, hfind, hfile, hstatus, hsnapshot,
    hsequence, hfileSequence, ok_bind]
  rfl

end Entry

/-! ### The file -/

/-- The id of the schema is there, or can be taken from the text of the schema. -/
def SchemaIdReadable (json : JsonLibrary) (getInt : Option Json → Except String Int) (metadata : OrdMap Bytes Bytes) :
    Prop :=
  metadata.contains (bytes "schema-id") = true ∨
    ∀ schema document, metadata.find? (bytes "schema") = some schema →
      json.parse (cString schema) = some (.object document) →
      ∃ schemaId, getInt (Json.findMember (bytes "schema-id") document) = .ok schemaId

lemma fillSchemaId_ok_iff (json : JsonLibrary) (getInt : Option Json → Except String Int)
    (metadata : OrdMap Bytes Bytes) :
    (∃ filled, fillSchemaId json getInt metadata = .ok filled) ↔ SchemaIdReadable json getInt metadata := by
  unfold fillSchemaId SchemaIdReadable
  by_cases hid : metadata.contains (bytes "schema-id") = true
  · rw [if_pos hid]
    exact ⟨fun _ => Or.inl hid, fun _ => ⟨metadata, rfl⟩⟩
  · rw [if_neg hid]
    constructor
    · rintro ⟨filled, h⟩
      refine Or.inr ?_
      intro schema document hschema hparse
      rw [hschema] at h
      simp only [hparse] at h
      obtain ⟨schemaId, hget, -⟩ := bind_ok h
      exact ⟨schemaId, hget⟩
    · intro h
      have hread := h.resolve_left hid
      cases hschema : metadata.find? (bytes "schema") with
      | none => exact ⟨metadata, rfl⟩
      | some schema =>
        cases hparse : json.parse (cString schema) with
        | none =>
          simp only [hparse]
          exact ⟨metadata, rfl⟩
        | some j =>
          cases j with
          | object document =>
            obtain ⟨schemaId, hget⟩ := hread schema document hschema hparse
            simp only [hparse, hget]
            exact ⟨_, rfl⟩
          | _ =>
            simp only [hparse]
            exact ⟨metadata, rfl⟩

lemma forM_ensure_ok {α : Type} {p : α → Bool} {message : α → String} {l : List α} {u : PUnit} :
    l.forM (fun a => ensure (p a) (message a)) = .ok u ↔ ∀ a ∈ l, p a = true := by
  induction l with
  | nil => exact ⟨fun _ a ha => absurd ha List.not_mem_nil, fun _ => rfl⟩
  | cons a l ih =>
    rw [List.forall_mem_cons, ← ih]
    change (ensure (p a) (message a) >>= fun _ => l.forM _) = .ok u ↔ _
    constructor
    · intro h
      obtain ⟨_, ha, h⟩ := bind_ok h
      exact ⟨ensure_ok ha, h⟩
    · rintro ⟨ha, h⟩
      rw [ha, ensure_true, ok_bind]
      exact h

/-- The specification is compared with the names in the schema of the file. -/
lemma validatePartitionSpec_ok_iff {spec : List PartitionKeyField} {u : Unit} :
    validatePartitionSpec spec (manifestEntrySchema (partitionSchema spec)) = .ok u ↔
      ∀ field ∈ spec, field.name ∈ spec.map (fun field => cString field.name) := by
  have hnames : (partitionFields spec).map Prod.fst = spec.map (fun field => cString field.name) := by
    rw [partitionFields, List.map_map]
    rfl
  have hlen : decide (spec.length = (partitionFields spec).length) = true := by
    rw [partitionFields, List.length_map, decide_eq_true_eq]
  change (ensure (decide (spec.length = (partitionFields spec).length)) _ >>= fun _ => spec.forM _) = .ok u ↔ _
  rw [hlen, ensure_true, ok_bind, hnames, forM_ensure_ok]
  simp only [decide_eq_true_eq]

section File

variable (avro : AvroLibrary) (json : JsonLibrary) (getInt : Option Json → Except String Int)

/-- The metadata of a file has what was written under the two names that are looked up. -/
lemma schemaIdReadable_written (s : AvroSchema) (metadata : OrdMap Bytes Bytes) (data : List AvroDatum) :
    SchemaIdReadable json getInt
        (((avro.metadata (avro.writeFile s metadata data)).erase (bytes "avro.schema")).erase (bytes "avro.codec")) ↔
      SchemaIdReadable json getInt metadata := by
  have hfind : ∀ key, key ≠ bytes "avro.schema" → key ≠ bytes "avro.codec" →
      (((avro.metadata (avro.writeFile s metadata data)).erase (bytes "avro.schema")).erase
        (bytes "avro.codec")).find? key = metadata.find? key := by
    intro key hschema hcodec
    rw [OrdMap.find?_erase_of_ne _ hcodec, OrdMap.find?_erase_of_ne _ hschema, avro.metadata_write _ _ _ _ hschema hcodec]
  unfold SchemaIdReadable OrdMap.contains
  rw [hfind _ (by decide) (by decide), hfind _ (by decide) (by decide)]

/-- The entries that are read are those that were written. -/
def ManifestRoundTrips (m : Manifest) (spec : List PartitionKeyField) : Prop :=
  ∃ file, writeManifestEntries avro m spec = .ok file ∧
    ∃ r, readManifestEntries avro json getInt file spec {} true = .ok r ∧ List.Forall₂ SameEntry m.entries r.entries

variable {m : Manifest} {spec : List PartitionKeyField}

lemma manifestReaderSchema_eq (file : avro.File) :
    manifestReaderSchema avro file spec {} true = (makeSchemaManifestEntry spec {} >>= avroSchemaFromNode avro) := rfl

lemma ManifestRoundTrips.condition (hspec : SpecConstructed spec) (h : ManifestRoundTrips avro json getInt m spec) :
    SpecDeclarable spec ∧ SchemaIdReadable json getInt m.metadata := by
  obtain ⟨file, hwrite, r, hread, -⟩ := h
  unfold writeManifestEntries at hwrite
  obtain ⟨node, hnode, hwrite⟩ := bind_ok hwrite
  obtain ⟨s, hs, hwrite⟩ := bind_ok hwrite
  obtain ⟨data, -, hfile⟩ := bind_ok hwrite
  cases hfile
  have hschema : (makeSchemaManifestEntry spec {} >>= avroSchemaFromNode avro) = .ok s := by
    rw [hnode]
    exact hs
  obtain ⟨hdeclarable, hnodup, rfl⟩ := (manifestSchema_iff avro hspec s).mp hschema
  unfold readManifestEntries at hread
  obtain ⟨_, -, hread⟩ := bind_ok hread
  obtain ⟨_, hvalid, hread⟩ := bind_ok hread
  obtain ⟨filled, hfill, -⟩ := bind_ok hread
  rw [avro.dataSchema_write, validatePartitionSpec_ok_iff] at hvalid
  have hzero : ∀ field ∈ spec, (0 : Byte) ∉ field.name := by
    intro field hfield
    obtain ⟨field', -, hname⟩ := List.mem_map.mp (hvalid field hfield)
    rw [← hname, ← cString_eq_self_iff, hname]
    exact cString_of_notMem (by
      rw [← hname]
      exact fun hz => absurd (List.mem_takeWhile_imp hz) (by simp))
  have hnames : spec.map (fun field => cString field.name) = spec.map PartitionKeyField.name := by
    apply List.map_congr_left
    intro field hfield
    exact cString_of_notMem (hzero field hfield)
  rw [hnames] at hnodup
  refine ⟨⟨hdeclarable, hzero, hnodup⟩, ?_⟩
  rw [← schemaIdReadable_written avro json getInt, ← fillSchemaId_ok_iff]
  exact ⟨filled, hfill⟩

lemma roundTrips_of_condition (hconstructed : SpecConstructed spec) (htyped : ∀ e ∈ m.entries, ManifestEntryTyped e)
    (htuples : ∀ e ∈ m.entries, TupleConforms spec e.dataFile.partitionTuple) (hspec : SpecDeclarable spec)
    (hid : SchemaIdReadable json getInt m.metadata) : ManifestRoundTrips avro json getInt m spec := by
  have hnames : spec.map (fun field => cString field.name) = spec.map PartitionKeyField.name := by
    apply List.map_congr_left
    intro field hfield
    exact cString_of_notMem (hspec.zero_notMem field hfield)
  have hschema := (manifestSchema_iff avro hconstructed (manifestEntrySchema (partitionSchema spec))).mpr
    ⟨hspec.declarable, by rw [hnames]; exact hspec.nodup, rfl⟩
  have hdata : m.entries.mapM (fun entry => serializeManifestEntry spec entry
      (defaultDatum (manifestEntrySchema (partitionSchema spec)))) = .ok (m.entries.map (manifestEntryDatum spec)) := by
    rw [mapM_ok_iff, List.forall₂_map_right_iff, List.forall₂_same]
    exact fun e he => serializeManifestEntry_ok hspec (htuples e he)
  have hconforms : ∀ d ∈ m.entries.map (manifestEntryDatum spec),
      Lib.Conforms (manifestEntrySchema (partitionSchema spec)) d := by
    intro d hd
    obtain ⟨e, he, rfl⟩ := List.mem_map.mp hd
    exact conforms_manifestEntryDatum hspec (htuples e he) (htyped e he)
  obtain ⟨entries, hentries, hsame⟩ := exists_mapM_ok (fun e he => deserializeManifestEntry_ok hconstructed hspec (htuples e he))
  have hdecoded : (m.entries.map (manifestEntryDatum spec)).mapM (deserializeManifestEntry {}) = .ok entries := by
    rw [List.mapM_map]
    exact hentries
  have hwrite : writeManifestEntries avro m spec = .ok (avro.writeFile (manifestEntrySchema (partitionSchema spec))
      m.metadata (m.entries.map (manifestEntryDatum spec))) := by
    obtain ⟨node, hnode, hs⟩ := bind_ok hschema
    simp only [writeManifestEntries, hnode, hs, hdata, ok_bind]
    rfl
  obtain ⟨filled, hfill⟩ := (fillSchemaId_ok_iff json getInt _).mpr ((schemaIdReadable_written avro json getInt
    (manifestEntrySchema (partitionSchema spec)) m.metadata (m.entries.map (manifestEntryDatum spec))).mpr hid)
  have hvalid : validatePartitionSpec spec (manifestEntrySchema (partitionSchema spec)) = .ok () := by
    rw [validatePartitionSpec_ok_iff, hnames]
    exact fun field hfield => List.mem_map_of_mem hfield
  refine ⟨_, hwrite, ⟨filled, entries⟩, ?_, hsame⟩
  simp only [readManifestEntries, manifestReaderSchema_eq, hschema, avro.dataSchema_write, hvalid, hfill,
    avro.read_write _ _ _ hconforms, hdecoded, ok_bind]
  rfl

/-- A manifest is read back exactly when each partition field has a type that can be declared and a
name of its own without a zero byte, and the id of the schema can be read. -/
theorem manifest_roundTrips_iff (hconstructed : SpecConstructed spec)
    (htyped : ∀ e ∈ m.entries, ManifestEntryTyped e)
    (htuples : ∀ e ∈ m.entries, TupleConforms spec e.dataFile.partitionTuple) :
    ManifestRoundTrips avro json getInt m spec ↔ SpecDeclarable spec ∧ SchemaIdReadable json getInt m.metadata := by
  constructor
  · exact fun h => h.condition avro json getInt hconstructed
  · exact fun h => roundTrips_of_condition avro json getInt hconstructed htyped htuples h.1 h.2

end File

/-! ### Two manifests -/

/-- `GetInt` of a build with assertions. -/
def assertedInt : Option Json → Except String Int
  | some (.int i) => .ok i
  | _ => .error "RAPIDJSON_ASSERT"

/-- An entry with a tuple. -/
def partitionedEntry (tuple : PartitionTuple) : ManifestEntry :=
  { status := .added
    snapshotId := some 7
    dataFile :=
      { filePath := bytes "data.parquet"
        fileFormat := bytes "PARQUET"
        partitionTuple := tuple
        recordCount := 3
        splitOffsets := [4]
        lowerBounds := (∅ : OrdMap Int Bytes).insert 1 [0, 1]
        valueCounts := (∅ : OrdMap Int Int).insert 1 3 } }

lemma partitionedEntry_typed (tuple : PartitionTuple) : ManifestEntryTyped (partitionedEntry tuple) := by
  have hlongs : ∀ m : OrdMap Int Int, m.entries = [] → LongMapTyped m := by
    intro m hm p hp
    rw [hm] at hp
    cases hp
  have hbytes : ∀ m : OrdMap Int Bytes, m.entries = [] → BytesMapTyped m := by
    intro m hm p hp
    rw [hm] at hp
    cases hp
  have hcounts : LongMapTyped ((∅ : OrdMap Int Int).insert 1 3) := by
    intro p hp
    rw [show ((∅ : OrdMap Int Int).insert 1 3).entries = [(1, 3)] from rfl, List.mem_singleton] at hp
    subst hp
    simp [InInt32, InInt64, int64Min, int64Max]
  have hbounds : BytesMapTyped ((∅ : OrdMap Int Bytes).insert 1 [0, 1]) := by
    intro p hp
    rw [show ((∅ : OrdMap Int Bytes).insert 1 [0, 1]).entries = [(1, [0, 1])] from rfl, List.mem_singleton] at hp
    subst hp
    simp [InInt32]
  refine ⟨?_, ?_, ?_, ⟨?_, ?_, hlongs _ rfl, hcounts, hlongs _ rfl, hlongs _ rfl, hlongs _ rfl, hbounds, hbytes _ rfl, ?_, ?_,
    ?_, ?_, ?_⟩⟩ <;> simp [partitionedEntry, InInt64, int64Min, int64Max]

/-- A date, a decimal and a uuid. -/
def threeFields : List PartitionKeyField :=
  [⟨bytes "day", some .date⟩, ⟨bytes "price", some (.decimal 9 2)⟩, ⟨bytes "id", some .uuid⟩]

/-- The values, in another order; one is null. -/
def threeKeys : PartitionTuple :=
  ⟨[⟨bytes "id", .null, none⟩, ⟨bytes "day", .int 19000, some .date⟩, ⟨bytes "price", .fixed [0, 0, 1, 44], none⟩]⟩

def threeFieldsManifest : Manifest :=
  { metadata := ∅
    entries := [partitionedEntry threeKeys] }

theorem threeFieldsManifest_roundTrips :
    ManifestRoundTrips memoryAvro compactJson assertedInt threeFieldsManifest threeFields := by
  have hconstructed : SpecConstructed threeFields := by
    unfold SpecConstructed threeFields Constructed InInt32
    simp
  have htuples : ∀ e ∈ threeFieldsManifest.entries, TupleConforms threeFields e.dataFile.partitionTuple := by
    intro e he
    rw [List.mem_singleton.mp he]
    refine ⟨by decide, ?_⟩
    intro key hkey field hfield hname
    simp only [partitionedEntry, threeKeys, List.mem_cons, List.not_mem_nil, or_false] at hkey
    simp only [threeFields, List.mem_cons, List.not_mem_nil, or_false] at hfield
    rcases hkey with rfl | rfl | rfl <;> rcases hfield with rfl | rfl | rfl <;> first
      | exact absurd hname (by decide)
      | exact trivial
      | exact (by decide : (4 : Nat) = decimalSize 9)
  have hspec : SpecDeclarable threeFields := by
    refine ⟨?_, by decide, by decide⟩
    intro field hfield
    simp only [threeFields, List.mem_cons, List.not_mem_nil, or_false] at hfield
    rcases hfield with rfl | rfl | rfl
    · exact ⟨_, rfl, trivial⟩
    · exact ⟨_, rfl, (by decide : (0 : Int) ≤ 2)⟩
    · exact ⟨_, rfl, trivial⟩
  refine (manifest_roundTrips_iff memoryAvro compactJson assertedInt hconstructed ?_ htuples).mpr ⟨hspec, Or.inr ?_⟩
  · intro e he
    rw [List.mem_singleton.mp he]
    exact partitionedEntry_typed threeKeys
  · intro schema document hschema
    cases hschema

/-- A field of type `fixed(4)`. -/
def fixedField : List PartitionKeyField := [⟨bytes "code", some (.fixed 4)⟩]

def fixedFieldManifest : Manifest :=
  { metadata := ∅
    entries := [partitionedEntry ⟨[⟨bytes "code", .fixed [1, 2, 3, 4], some (.fixed 4)⟩]⟩] }

/-- The declaration of a `fixed` type has no name, so no schema is compiled from it. -/
theorem fixedFieldManifest_not_written :
    ¬∀ (m : Manifest) (spec : List PartitionKeyField), SpecConstructed spec →
      (∀ e ∈ m.entries, ManifestEntryTyped e) → (∀ e ∈ m.entries, TupleConforms spec e.dataFile.partitionTuple) →
      ManifestRoundTrips memoryAvro compactJson assertedInt m spec := by
  intro hall
  have hconstructed : SpecConstructed fixedField := by
    unfold SpecConstructed fixedField Constructed InInt32
    simp
  have h := hall fixedFieldManifest fixedField hconstructed ?_ ?_
  · obtain ⟨type, htype, hdeclarable⟩ :=
      (h.condition memoryAvro compactJson assertedInt hconstructed).1.declarable _ List.mem_cons_self
    cases htype
    exact hdeclarable
  · intro e he
    rw [List.mem_singleton.mp he]
    exact partitionedEntry_typed _
  · intro e he
    rw [List.mem_singleton.mp he]
    refine ⟨by decide, ?_⟩
    intro key hkey field hfield hname
    rw [List.mem_singleton.mp hkey, List.mem_singleton.mp hfield]
    exact rfl

end IcebergCxx.Proofs

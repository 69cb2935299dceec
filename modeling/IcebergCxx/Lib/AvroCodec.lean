import IcebergCxx.Lib.Avro

/-!
# Codecs of typed values

An `AvroCodec` is a typed value's place in a file: its schema, the datum it is encoded as and the
decoder of such data. The laws are fields, so a codec made by the combinators below is lossless;
`fileRoundTrip` carries that over to a file with any number of values.
-/

namespace IcebergCxx.Lib

structure AvroCodec (α : Type) where
  schema : AvroSchema
  encode : α → AvroDatum
  decode : AvroDatum → Except String α
  conforms : ∀ a, Conforms schema (encode a)
  decode_encode : ∀ a, decode (encode a) = .ok a

/-- The codec of the fields of a record, in the order of their declaration. -/
structure FieldsCodec (α : Type) where
  schema : List (Bytes × AvroSchema)
  encode : α → List (Bytes × AvroDatum)
  decode : List (Bytes × AvroDatum) → Except String α
  conforms : ∀ a, ConformsFields schema (encode a)
  decode_encode : ∀ a, decode (encode a) = .ok a

namespace AvroCodec

variable {α β : Type}

def boolean : AvroCodec Bool where
  schema := .boolean
  encode b := .boolean b
  decode
    | .boolean b => .ok b
    | _ => .error "not a boolean"
  conforms b := .boolean b
  decode_encode _ := rfl

def int32 : AvroCodec Int32 where
  schema := .int .none
  encode v := .int .none v.toInt
  decode
    | .int _ v => .ok (Int32.ofInt v)
    | _ => .error "not an int"
  conforms v := .int .none ⟨Int32.le_toInt v, Int32.toInt_lt v⟩
  decode_encode v := by simp only [Int32.ofInt_toInt]

def int64 : AvroCodec Int64 where
  schema := .long .none
  encode v := .long .none v.toInt
  decode
    | .long _ v => .ok (Int64.ofInt v)
    | _ => .error "not a long"
  conforms v := .long .none ⟨Int64.le_toInt v, Int64.toInt_lt v⟩
  decode_encode v := by simp only [Int64.ofInt_toInt]

def binary : AvroCodec Bytes where
  schema := .bytes
  encode v := .bytes v
  decode
    | .bytes v => .ok v
    | _ => .error "not bytes"
  conforms v := .bytes v
  decode_encode _ := rfl

def string : AvroCodec Bytes where
  schema := .string
  encode v := .string v
  decode
    | .string v => .ok v
    | _ => .error "not a string"
  conforms v := .string v
  decode_encode _ := rfl

/-- A union of null and one other type. -/
def optional (c : AvroCodec α) : AvroCodec (Option α) where
  schema := .union [.null, c.schema]
  encode
    | none => .union [.null, c.schema] 0 .null
    | some a => .union [.null, c.schema] 1 (c.encode a)
  decode
    | .union _ 0 _ => .ok none
    | .union _ 1 d => (c.decode d).map some
    | .union _ _ _ => .error "Union index too big"
    | _ => .error "not a union"
  conforms o := by
    cases o with
    | none => exact .union rfl .null
    | some a => exact .union rfl (c.conforms a)
  decode_encode o := by
    cases o with
    | none => rfl
    | some a => simp only [c.decode_encode a, Except.map]

lemma decodeList_encodeList (c : AvroCodec α) (l : List α) : (l.map c.encode).mapM c.decode = .ok l := by
  induction l with
  | nil => rfl
  | cons a l ih =>
    rw [List.map_cons, List.mapM_cons, c.decode_encode, ih]
    rfl

def array (c : AvroCodec α) : AvroCodec (List α) where
  schema := .array c.schema
  encode l := .array c.schema (l.map c.encode)
  decode
    | .array _ l => l.mapM c.decode
    | _ => .error "not an array"
  conforms l := by
    refine .array (fun d hd => ?_)
    obtain ⟨a, -, rfl⟩ := List.mem_map.mp hd
    exact c.conforms a
  decode_encode l := c.decodeList_encodeList l

end AvroCodec

namespace FieldsCodec

variable {α β : Type}

def nil : FieldsCodec Unit where
  schema := []
  encode _ := []
  decode
    | [] => .ok ()
    | _ => .error "too many fields"
  conforms _ := .nil
  decode_encode _ := rfl

def cons (name : Bytes) (c : AvroCodec α) (rest : FieldsCodec β) : FieldsCodec (α × β) where
  schema := (name, c.schema) :: rest.schema
  encode v := (name, c.encode v.1) :: rest.encode v.2
  decode
    | [] => .error "too few fields"
    | (_, d) :: l => do
      let a ← c.decode d
      let b ← rest.decode l
      return (a, b)
  conforms v := .cons name (c.conforms v.1) (rest.conforms v.2)
  decode_encode v := by
    simp only [c.decode_encode, rest.decode_encode]
    rfl

end FieldsCodec

/-- A record type, given by its fields as nested pairs. -/
def AvroCodec.record {α β : Type} (name : Bytes) (fields : FieldsCodec β) (toFields : α → β) (ofFields : β → α)
    (h : ∀ a, ofFields (toFields a) = a) : AvroCodec α where
  schema := .record name fields.schema
  encode a := .record (fields.encode (toFields a))
  decode
    | .record l => (fields.decode l).map ofFields
    | _ => .error "not a record"
  conforms a := .record name (fields.conforms (toFields a))
  decode_encode a := by simp only [fields.decode_encode, Except.map, h]

/-- Values written to a file with the schema of their codec are read back from it. -/
lemma AvroCodec.fileRoundTrip {α : Type} (c : AvroCodec α) (avro : AvroLibrary) (m : OrdMap Bytes Bytes) (l : List α) :
    (avro.readFile (avro.writeFile c.schema m (l.map c.encode)) c.schema >>= fun data => data.mapM c.decode) = .ok l := by
  rw [avro.read_write]
  · exact c.decodeList_encodeList l
  · intro d hd
    obtain ⟨a, -, rfl⟩ := List.mem_map.mp hd
    exact c.conforms a

end IcebergCxx.Lib

import IcebergCxx.Lib.Json
import IcebergCxx.Lib.OrdMap

/-!
# Avro schemas and data

`AvroSchema` is a schema tree, `AvroDatum` a generic datum that carries the schema of its unions
and arrays, `defaultDatum` the datum that a schema starts from, and `Conforms` says that a datum
can be written with a schema. `schemaOfJson` reads a schema declaration as the Avro specification
gives it: records and fixed types must be named. `AvroLibrary` is what a program may rely on when
it compiles schemas and writes and reads container files.
-/

namespace IcebergCxx.Lib

inductive LogicalType where
  | none
  | date
  | timeMicros
  | timestampMicros
  | timestampNanos
  | uuid
  | decimal (precision scale : Int)
  deriving DecidableEq

inductive AvroSchema where
  | null
  | boolean
  | int (logical : LogicalType)
  | long (logical : LogicalType)
  | float
  | double
  | bytes
  | string
  | fixed (name : Bytes) (size : Nat) (logical : LogicalType)
  | array (items : AvroSchema)
  | union (branches : List AvroSchema)
  | record (name : Bytes) (fields : List (Bytes × AvroSchema))

/-- A generic datum; floating-point values are their bit patterns. -/
inductive AvroDatum where
  | null
  | boolean (value : Bool)
  | int (logical : LogicalType) (value : Int)
  | long (logical : LogicalType) (value : Int)
  | float (bits : BitVec 32)
  | double (bits : BitVec 64)
  | bytes (value : Bytes)
  | string (value : Bytes)
  | fixed (logical : LogicalType) (value : Bytes)
  | array (items : AvroSchema) (elements : List AvroDatum)
  | union (branches : List AvroSchema) (branch : Nat) (datum : AvroDatum)
  | record (fields : List (Bytes × AvroDatum))

mutual

/-- The datum a schema starts from: zeros, empty containers and the first branch of a union. -/
def defaultDatum : AvroSchema → AvroDatum
  | .null => .null
  | .boolean => .boolean false
  | .int logical => .int logical 0
  | .long logical => .long logical 0
  | .float => .float 0
  | .double => .double 0
  | .bytes => .bytes []
  | .string => .string []
  | .fixed _ size logical => .fixed logical (List.replicate size 0)
  | .array items => .array items []
  | .union [] => .union [] 0 .null
  | .union (s :: branches) => .union (s :: branches) 0 (defaultDatum s)
  | .record _ fields => .record (defaultFields fields)

def defaultFields : List (Bytes × AvroSchema) → List (Bytes × AvroDatum)
  | [] => []
  | (name, s) :: fields => (name, defaultDatum s) :: defaultFields fields

end

namespace AvroDatum

/-- What `type()` and `value()` see: the datum inside of a union. -/
def content : AvroDatum → AvroDatum
  | union _ _ datum => datum
  | datum => datum

/-- Selects a branch of a union and starts its datum anew. -/
def selectBranch (branch : Nat) : AvroDatum → Except String AvroDatum
  | union branches _ _ =>
    match branches[branch]? with
    | some s => .ok (union branches branch (defaultDatum s))
    | none => .error "Index too large"
  | _ => .error "selectBranch: not a union"

/-- Changes the datum inside of a union, or the datum itself. -/
def modifyContent (f : AvroDatum → Except String AvroDatum) : AvroDatum → Except String AvroDatum
  | union branches branch datum => do
    let datum ← f datum
    return union branches branch datum
  | datum => f datum

end AvroDatum

/-- The value of a field of a record. -/
def findDatum (name : Bytes) : List (Bytes × AvroDatum) → Option AvroDatum
  | [] => none
  | (k, d) :: fields => if k = name then some d else findDatum name fields

/-- Changes the value of a field of a record. -/
def modifyDatum (name : Bytes) (f : AvroDatum → Except String AvroDatum) :
    List (Bytes × AvroDatum) → Except String (List (Bytes × AvroDatum))
  | [] => .error "Invalid field name"
  | (k, d) :: fields =>
    if k = name then do
      let d ← f d
      return (k, d) :: fields
    else do
      let fields ← modifyDatum name f fields
      return (k, d) :: fields

mutual

/-- The datum can be written with the schema. -/
inductive Conforms : AvroSchema → AvroDatum → Prop
  | null : Conforms .null .null
  | boolean (b : Bool) : Conforms .boolean (.boolean b)
  | int (logical : LogicalType) {v : Int} (h : -2 ^ 31 ≤ v ∧ v < 2 ^ 31) : Conforms (.int logical) (.int logical v)
  | long (logical : LogicalType) {v : Int} (h : -2 ^ 63 ≤ v ∧ v < 2 ^ 63) : Conforms (.long logical) (.long logical v)
  | float (v : BitVec 32) : Conforms .float (.float v)
  | double (v : BitVec 64) : Conforms .double (.double v)
  | bytes (v : Bytes) : Conforms .bytes (.bytes v)
  | string (v : Bytes) : Conforms .string (.string v)
  | fixed (name : Bytes) (logical : LogicalType) (v : Bytes) : Conforms (.fixed name v.length logical) (.fixed logical v)
  | array {items : AvroSchema} {l : List AvroDatum} (h : ∀ d ∈ l, Conforms items d) :
    Conforms (.array items) (.array items l)
  | union {branches : List AvroSchema} {branch : Nat} {s : AvroSchema} {d : AvroDatum}
    (hs : branches[branch]? = some s) (hd : Conforms s d) : Conforms (.union branches) (.union branches branch d)
  | record (name : Bytes) {fields : List (Bytes × AvroSchema)} {values : List (Bytes × AvroDatum)}
    (h : ConformsFields fields values) : Conforms (.record name fields) (.record values)

inductive ConformsFields : List (Bytes × AvroSchema) → List (Bytes × AvroDatum) → Prop
  | nil : ConformsFields [] []
  | cons (name : Bytes) {s : AvroSchema} {d : AvroDatum} {fields : List (Bytes × AvroSchema)}
    {values : List (Bytes × AvroDatum)} (hd : Conforms s d) (h : ConformsFields fields values) :
    ConformsFields ((name, s) :: fields) ((name, d) :: values)

end

/-! ### Schema declarations -/

def memberString (members : List (Bytes × Json)) (name : Bytes) : Option Bytes :=
  match Json.findMember name members with
  | some (.string s) => some s
  | _ => none

def memberInt (members : List (Bytes × Json)) (name : Bytes) : Option Int :=
  match Json.findMember name members with
  | some (.int i) => some i
  | _ => none

def memberArray (members : List (Bytes × Json)) (name : Bytes) : Option (List Json) :=
  match Json.findMember name members with
  | some (.array l) => some l
  | _ => none

/-- The logical type that a declaration asks for; an unknown or malformed one is ignored. -/
def logicalTypeOf (members : List (Bytes × Json)) : LogicalType :=
  match memberString members (bytes "logicalType") with
  | none => .none
  | some t =>
    if t = bytes "date" then .date
    else if t = bytes "time-micros" then .timeMicros
    else if t = bytes "timestamp-micros" then .timestampMicros
    else if t = bytes "timestamp-nanos" then .timestampNanos
    else if t = bytes "uuid" then .uuid
    else if t = bytes "decimal" then
      let precision := (memberInt members (bytes "precision")).getD 0
      let scale := (memberInt members (bytes "scale")).getD 0
      if 0 < precision ∧ 0 ≤ scale ∧ scale ≤ precision then .decimal precision scale else .none
    else .none

/-- The logical type of an `int`; one for another type is ignored. -/
def intLogical : LogicalType → LogicalType
  | .date => .date
  | _ => .none

def longLogical : LogicalType → LogicalType
  | .timeMicros => .timeMicros
  | .timestampMicros => .timestampMicros
  | .timestampNanos => .timestampNanos
  | _ => .none

/-- A decimal needs as many bytes as its largest value. -/
def fixedLogical (size : Nat) : LogicalType → LogicalType
  | .uuid => .uuid
  | .decimal precision scale =>
    if 10 ^ precision.toNat ≤ 2 ^ (8 * size - 1) then .decimal precision scale else .none
  | _ => .none

def primitiveSchema (name : Bytes) (logical : LogicalType) : Option AvroSchema :=
  if name = bytes "null" then some .null
  else if name = bytes "boolean" then some .boolean
  else if name = bytes "int" then some (.int (intLogical logical))
  else if name = bytes "long" then some (.long (longLogical logical))
  else if name = bytes "float" then some .float
  else if name = bytes "double" then some .double
  else if name = bytes "bytes" then some .bytes
  else if name = bytes "string" then some .string
  else none

/-- A letter, a digit or an underscore. -/
def isNameChar (c : Byte) : Bool :=
  (65 ≤ c.val && c.val ≤ 90) || (97 ≤ c.val && c.val ≤ 122) || (48 ≤ c.val && c.val ≤ 57) || c.val = 95

/-- The name of a type: a simple name, perhaps after a namespace and a dot. -/
def validName (name : Bytes) : Bool :=
  let simple := (name.reverse.takeWhile (fun c => c ≠ 46)).reverse
  let space := name.take (name.length - simple.length - 1)
  !simple.isEmpty && simple.all isNameChar && space.all (fun c => isNameChar c || c = 46 || c = 36) &&
    space.head? ≠ some 46 && space.getLast? ≠ some 46

/-- The schema of a declaration: a type name, a list of branches, or an object with a `type`. A
record and a fixed type need a valid `name`, and no two fields of a record share theirs. The fuel
bounds the nesting. -/
def schemaOfJson : Nat → Json → Option AvroSchema
  | 0, _ => none
  | _ + 1, .string name => primitiveSchema name .none
  | fuel + 1, .array branches => do
    let branches ← branches.mapM (schemaOfJson fuel)
    return .union branches
  | fuel + 1, .object m => do
    let type ← memberString m (bytes "type")
    if type = bytes "record" then do
      let name ← memberString m (bytes "name")
      let fields ← memberArray m (bytes "fields")
      let fields ← fields.mapM (fun field =>
        match field with
        | .object f => do
          let fieldName ← memberString f (bytes "name")
          let fieldType ← Json.findMember (bytes "type") f
          let s ← schemaOfJson fuel fieldType
          return (fieldName, s)
        | _ => none)
      if validName name ∧ (fields.map Prod.fst).Nodup then return .record name fields else none
    else if type = bytes "fixed" then do
      let name ← memberString m (bytes "name")
      let size ← memberInt m (bytes "size")
      if validName name ∧ 0 < size then return .fixed name size.toNat (fixedLogical size.toNat (logicalTypeOf m))
      else none
    else if type = bytes "array" then do
      let items ← Json.findMember (bytes "items") m
      let items ← schemaOfJson fuel items
      return .array items
    else primitiveSchema type (logicalTypeOf m)
  | _ + 1, _ => none

/-! ### The library -/

/-- A library that compiles schema declarations and keeps data in container files. What was
written with a schema is read back with the same schema. -/
structure AvroLibrary where
  File : Type
  compileJsonSchema : Json → Except String AvroSchema
  compile_ok : ∀ j s, schemaOfJson j.depth j = some s → compileJsonSchema j = .ok s
  compile_error : ∀ j, schemaOfJson j.depth j = none → ∃ e, compileJsonSchema j = .error e
  writeFile : AvroSchema → OrdMap Bytes Bytes → List AvroDatum → File
  dataSchema : File → AvroSchema
  metadata : File → OrdMap Bytes Bytes
  readFile : File → AvroSchema → Except String (List AvroDatum)
  dataSchema_write : ∀ s m l, dataSchema (writeFile s m l) = s
  metadata_write : ∀ s m l key, key ≠ bytes "avro.schema" → key ≠ bytes "avro.codec" →
    (metadata (writeFile s m l)).find? key = m.find? key
  read_write : ∀ s m l, (∀ d ∈ l, Conforms s d) → readFile (writeFile s m l) s = .ok l

/-- A library that keeps its files in memory. -/
def memoryAvro : AvroLibrary where
  File := AvroSchema × OrdMap Bytes Bytes × List AvroDatum
  compileJsonSchema j :=
    match schemaOfJson j.depth j with
    | some s => .ok s
    | none => .error "not a schema"
  compile_ok j s h := by rw [h]
  compile_error j h := by rw [h]; exact ⟨_, rfl⟩
  writeFile s m l := (s, m, l)
  dataSchema file := file.1
  metadata file := file.2.1
  readFile file _ := .ok file.2.2
  dataSchema_write _ _ _ := rfl
  metadata_write _ _ _ _ _ _ := rfl
  read_write _ _ _ _ := rfl

end IcebergCxx.Lib

import IcebergCxx.EqualityDelete
import IcebergCxx.MemoryState

/-!
# Keys of the general equality delete

A `GenericDeleteKey` is a buffer whose size is computed by `GetWidth`, counted against the memory limit, and then filled
by `WriteToData`. The two functions go through the types of Arrow apart from each other.
-/

namespace IcebergCxx

open Lib

/-- `arrow::Type` of a column of a general delete: the types of `KeyType` and the others. -/
inductive ColumnType
  | key (type : KeyType)
  | bool
  | float
  | double
  | fixedSizeBinary (byteWidth : Nat)
  | decimal128
  | list
  | other (byteWidth : Option Nat)
deriving DecidableEq

/-- `byte_width()`, absent where Arrow answers -1: the bits of a value divided by 8. -/
def ColumnType.byteWidth : ColumnType → Option Nat
  | .key type => type.byteWidth
  | .bool => some 0
  | .float => some 4
  | .double => some 8
  | .fixedSizeBinary byteWidth => some byteWidth
  | .decimal128 => some 16
  | .list => none
  | .other byteWidth => byteWidth

/-- The number of bytes of what `GetView` answers, where the type determines it. -/
def ColumnType.viewWidth : ColumnType → Option Nat
  | .bool => some 1
  | type => type.byteWidth

/-- An `arrow::Array`. The view of a list is the text of its elements. -/
structure KeyColumn where
  type : ColumnType
  slots : List KeySlot
  fits : ∀ slot ∈ slots, ∀ width, type.viewWidth = some width → slot.view.length = width

namespace KeyColumn

def slot (column : KeyColumn) (row : Nat) : KeySlot :=
  column.slots[row]?.getD ⟨false, List.replicate (column.type.viewWidth.getD 0) 0⟩

def isNull (column : KeyColumn) (row : Nat) : Bool := (column.slot row).isNull

/-- `GetView`. -/
def getView (column : KeyColumn) (row : Nat) : Bytes := (column.slot row).view

end KeyColumn

/-- `GetWidth`, an `int`. -/
def KeyColumn.getWidth (column : KeyColumn) (row : Nat) : Except Exit Int :=
  match column.type.byteWidth with
  | some width => .ok width
  | none =>
    match column.type with
    | .key .string | .key .binary => .ok (wrapInt32 (4 + (column.getView row).length))
    | _ => .error (.thrown "GetWidth: unexpected type")

/-- `WriteStringViewToData`. -/
def writeStringViewToData (value : Bytes) : Bytes := leBytes 4 value.length ++ value

/-- `WriteToData`. -/
def KeyColumn.writeToData (column : KeyColumn) (row : Nat) : Except Exit Bytes :=
  match column.type with
  | .key .string | .key .binary | .fixedSizeBinary _ | .decimal128 | .list =>
    .ok (writeStringViewToData (column.getView row))
  | .key _ | .bool | .float | .double => .ok (column.getView row)
  | .other _ => .error (.thrown "WriteToData: unexpected type")

/-- A key: the size of its buffer, and what the constructor wrote from the start of the buffer on. -/
structure GenericDeleteKey where
  size : Nat
  written : Bytes
deriving DecidableEq

namespace GenericDeleteKey

/-- `SizedPtr::Size`, of which a pointer keeps 16 bits. -/
def sizedPtrSize (key : GenericDeleteKey) : Nat := key.size % 2 ^ 16

/-- The bytes that are compared and hashed. -/
def comparedBytes (key : GenericDeleteKey) : Bytes := key.written.take key.sizedPtrSize

/-- `operator==`. -/
def same (key other : GenericDeleteKey) : Bool :=
  key.sizedPtrSize == other.sizedPtrSize && key.comparedBytes == other.comparedBytes

/-- The null bits of a row. -/
def nullBitmask (columns : List KeyColumn) (row : Nat) : Nat :=
  bitmask (List.range columns.length) (fun i => (columns.map (fun column => column.isNull row)).getD i false)

/-- The sum of the widths, a `uint64_t`. -/
def totalWidth (columns : List KeyColumn) (row : Nat) : Except Exit Int :=
  columns.foldlM (fun total column =>
    if column.isNull row then pure total
    else do
      let width ← column.getWidth row
      return (total + width) % 2 ^ 64) 0

/-- What the constructor does before it writes: the size of the buffer, a `uint32_t`, is counted. -/
def allocateBuffer (columns : List KeyColumn) (row : Nat) : MemoryM Nat := do
  let totalWidth ← MemoryM.ofExcept (totalWidth columns row)
  allocate 4
  let size := ((8 + totalWidth) % 2 ^ 32).toNat
  allocate size
  return size

/-- The bytes that the constructor writes, one behind the other. -/
def writtenData (columns : List KeyColumn) (row : Nat) : Except Exit Bytes :=
  columns.foldlM (fun data column =>
    if column.isNull row then pure data
    else do
      let value ← column.writeToData row
      return data ++ value) (leBytes 8 (nullBitmask columns row))

/-- The constructor. -/
def construct (columns : List KeyColumn) (row : Nat) : MemoryM GenericDeleteKey := do
  let size ← allocateBuffer columns row
  let written ← MemoryM.ofExcept (writtenData columns row)
  return { size, written }

/-- The keys of a general delete. A copy of a key is counted nowhere; its destructor is. -/
def traits : KeyTraits GenericDeleteKey where
  same := same
  slotSize := 40
  released := fun key => 4 + key.sizedPtrSize

end GenericDeleteKey

/-- The arrays of the simple types are columns. -/
def KeyArray.toKeyColumn (array : KeyArray) : KeyColumn := ⟨.key array.type, array.slots, array.fits⟩

end IcebergCxx

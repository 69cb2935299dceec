import IcebergCxx.Basic
import IcebergCxx.Lib.Packing

/-!
# Equality deletes

An equality delete remembers deleted key rows with the greatest layer they were deleted in.
`MakeEqualityDelete` chooses between a general implementation, which serializes a row into a
byte string, one for a single integer column, and one that packs several integer columns
into a wide number. The memory accounting, which can only make a call fail, is left out.
-/

namespace IcebergCxx

open Lib

/-- `arrow::Type` of a key column. -/
inductive KeyType
  | int8
  | int16
  | int32
  | int64
  | date32
  | time64
  | timestamp
  | string
  | binary
deriving DecidableEq, Repr

/-- `byte_width()`, absent where Arrow answers -1. -/
def KeyType.byteWidth : KeyType → Option Nat
  | .int8 => some 1
  | .int16 => some 2
  | .int32 | .date32 => some 4
  | .int64 | .time64 | .timestamp => some 8
  | .string | .binary => none

/-- `TypeToBitWidth`. -/
def typeToBitWidth : KeyType → Except String Nat
  | .int16 => .ok 16
  | .int32 => .ok 32
  | .int64 => .ok 64
  | .timestamp => .ok 64
  | _ => .error "TypeToBitWidth: unsupported type"

/-- A slot of an array: the bytes of a null slot are there too, and may be anything. -/
structure KeySlot where
  isNull : Bool
  view : Bytes
deriving DecidableEq, Repr

/-- An `arrow::Array` of a key column, with the bytes of its integers in little-endian order. -/
structure KeyArray where
  type : KeyType
  slots : List KeySlot
  fits : ∀ slot ∈ slots, ∀ width, type.byteWidth = some width → slot.view.length = width

def KeyArray.slot (array : KeyArray) (row : Nat) : KeySlot :=
  array.slots[row]?.getD ⟨false, List.replicate (array.type.byteWidth.getD 0) 0⟩

def KeyArray.isNull (array : KeyArray) (row : Nat) : Bool := (array.slot row).isNull

/-- `GetView`. -/
def KeyArray.getView (array : KeyArray) (row : Nat) : Bytes := (array.slot row).view

def KeyArray.nullCount (array : KeyArray) : Nat := array.slots.countP KeySlot.isNull

instance : Inhabited KeyArray := ⟨⟨.string, [], fun _ h => absurd h List.not_mem_nil⟩⟩

/-! ### The general implementation -/

/-- `GetWidth`. -/
def getWidth (array : KeyArray) (row : Nat) : Nat :=
  match array.type.byteWidth with
  | some width => width
  | none => 4 + (array.getView row).length

/-- `WriteToData`. -/
def writeToData (array : KeyArray) (row : Nat) : Bytes :=
  match array.type.byteWidth with
  | some _ => array.getView row
  | none => leBytes 4 (array.getView row).length ++ array.getView row

/-- The null bits of a row, as `GenericDeleteKey` sets them. -/
def nullBitmask (arrays : List KeyArray) (row : Nat) : Nat :=
  bitmask (List.range arrays.length) (fun i => (arrays.getD i default).isNull row)

/-- The size of a serialized row. -/
def keySize (arrays : List KeyArray) (row : Nat) : Nat :=
  8 + ((arrays.filter (fun array => !array.isNull row)).map (fun array => getWidth array row)).sum

/-- A serialized row. -/
def keyData (arrays : List KeyArray) (row : Nat) : Bytes :=
  leBytes 8 (nullBitmask arrays row) ++
    (arrays.filter (fun array => !array.isNull row)).flatMap (fun array => writeToData array row)

/-- `GenericDeleteKey`: a `SizedPtr` keeps 16 bits of the size, and only the bytes below it are
compared. -/
def genericDeleteKey (arrays : List KeyArray) (row : Nat) : Bytes :=
  (keyData arrays row).take (keySize arrays row % 2 ^ 16)

structure GenericEqualityDelete where
  values : OrdMap Bytes Int := {}
deriving DecidableEq

/-- `GenericEqualityDelete::Add`. -/
def GenericEqualityDelete.add (del : GenericEqualityDelete) (arrays : List KeyArray) (rowsCount : Nat)
    (deleteLayer : Int) : Except String GenericEqualityDelete := do
  ensure (decide (arrays.length ≤ 64)) "GenericEqualityDelete is not implemented for more than 64 columns"
  .ok { values := (List.range rowsCount).foldl
          (fun values row => values.updateMax (genericDeleteKey arrays row) deleteLayer) del.values }

/-- Whether the layer found for a key deletes a row of the data layer. -/
def layerDeletes (deleteLayer : Option Int) (dataLayer : Int) : Bool :=
  match deleteLayer with
  | none => false
  | some layer => decide (dataLayer ≤ layer)

/-- `GenericEqualityDelete::IsDeleted`. -/
def GenericEqualityDelete.isDeleted (del : GenericEqualityDelete) (arrays : List KeyArray) (row : Nat)
    (dataLayer : Int) : Bool :=
  layerDeletes (del.values.find? (genericDeleteKey arrays row)) dataLayer

/-! ### One integer column -/

structure SpecializedDeleteOneColumn where
  type : KeyType
  containsNull : Bool := false
  values : OrdMap Bytes Int := {}
deriving DecidableEq

/-- One row of `SpecializedDeleteOneColumn::Add`. -/
def SpecializedDeleteOneColumn.addRow (array : KeyArray) (deleteLayer : Int) (del : SpecializedDeleteOneColumn)
    (row : Nat) : SpecializedDeleteOneColumn :=
  if array.isNull row then { del with containsNull := true }
  else { del with values := del.values.updateMax (array.getView row) deleteLayer }

/-- `SpecializedDeleteOneColumn::Add`. -/
def SpecializedDeleteOneColumn.add (del : SpecializedDeleteOneColumn) (arrays : List KeyArray) (rowsCount : Nat)
    (deleteLayer : Int) : Except String SpecializedDeleteOneColumn :=
  match arrays with
  | [array] =>
    if array.type ≠ del.type then .error "SpecializedDeleteOneColumn (Add): unexpected type"
    else .ok ((List.range rowsCount).foldl (SpecializedDeleteOneColumn.addRow array deleteLayer) del)
  | _ => .error "SpecializedDeleteOneColumn (Add): unexpected number of columns"

/-- `SpecializedDeleteOneColumn::IsDeleted`. -/
def SpecializedDeleteOneColumn.isDeleted (del : SpecializedDeleteOneColumn) (arrays : List KeyArray) (row : Nat)
    (dataLayer : Int) : Bool :=
  let array := arrays.getD 0 default
  if array.isNull row then del.containsNull
  else layerDeletes (del.values.find? (array.getView row)) dataLayer

/-! ### Several integer columns -/

/-- `SpecializedDeleteMultipleColumn` with a value type of `bits` bits. -/
structure SpecializedDeleteMultipleColumn where
  types : List KeyType
  order : List Nat
  bitWidth : List Nat
  bits : Nat
  values : OrdMap Nat Int := {}
  valuesWithNulls : OrdMap Nat (OrdMap Nat Int) := {}
deriving DecidableEq

namespace SpecializedDeleteMultipleColumn

/-- The loop of `ConstructRow` and `ConstructRowIgnoreNulls`, which differ in whether the columns
that are null are left out. -/
def packRow (skipNulls : Bool) (del : SpecializedDeleteMultipleColumn) (arrays : List KeyArray) (row : Nat) : Nat :=
  (del.order.foldl (fun (result, currentShift) id =>
    let array := arrays.getD id default
    if skipNulls && array.isNull row then (result, currentShift)
    else ((result + ofLeBytes (array.getView row) <<< currentShift) % 2 ^ del.bits,
      currentShift + del.bitWidth.getD id 0)) (0, 0)).1

def constructRow := packRow true

def constructRowIgnoreNulls := packRow false

/-- The null mask of a row, a `uint8_t`. -/
def nullsMask (del : SpecializedDeleteMultipleColumn) (arrays : List KeyArray) (row : Nat) : Nat :=
  bitmask del.order (fun id => (arrays.getD id default).isNull row) % 2 ^ 8

/-- One row of `Add` when no array has a null. -/
def addRow (arrays : List KeyArray) (deleteLayer : Int) (del : SpecializedDeleteMultipleColumn) (row : Nat) :
    SpecializedDeleteMultipleColumn :=
  { del with values := del.values.updateMax (del.constructRow arrays row) deleteLayer }

/-- One row of `Add` when some array has a null. -/
def addRowWithNulls (arrays : List KeyArray) (deleteLayer : Int) (del : SpecializedDeleteMultipleColumn) (row : Nat) :
    SpecializedDeleteMultipleColumn :=
  let mask := del.nullsMask arrays row
  let key := del.constructRowIgnoreNulls arrays row
  if mask = 0 then { del with values := del.values.updateMax key deleteLayer }
  else { del with
    valuesWithNulls := del.valuesWithNulls.alter mask
      (fun values => (values.getD {}).updateMax key deleteLayer) }

/-- `SpecializedDeleteMultipleColumn::Add`. -/
def add (del : SpecializedDeleteMultipleColumn) (arrays : List KeyArray) (rowsCount : Nat) (deleteLayer : Int) :
    Except String SpecializedDeleteMultipleColumn := do
  ensure (arrays.length == del.types.length) "SpecializedDeleteMultipleColumn (Add): unexpected number of columns"
  ensure (arrays.map KeyArray.type == del.types) "SpecializedDeleteMultipleColumn (Add): unexpected type"
  if arrays.all (fun array => array.nullCount == 0) then
    .ok ((List.range rowsCount).foldl (addRow arrays deleteLayer) del)
  else do
    ensure (decide (arrays.length < 9))
      "Equality deletes with nulls and more than 8 columns are not supported"
    .ok ((List.range rowsCount).foldl (addRowWithNulls arrays deleteLayer) del)

/-- `SpecializedDeleteMultipleColumn::IsDeleted`. -/
def isDeleted (del : SpecializedDeleteMultipleColumn) (arrays : List KeyArray) (row : Nat) (dataLayer : Int) : Bool :=
  if arrays.any (fun array => array.isNull row) then
    match del.valuesWithNulls.find? (del.nullsMask arrays row) with
    | none => false
    | some values => layerDeletes (values.find? (del.constructRowIgnoreNulls arrays row)) dataLayer
  else layerDeletes (del.values.find? (del.constructRow arrays row)) dataLayer

end SpecializedDeleteMultipleColumn

/-! ### The choice -/

inductive EqualityDelete
  | generic (del : GenericEqualityDelete)
  | oneColumn (del : SpecializedDeleteOneColumn)
  | multipleColumn (del : SpecializedDeleteMultipleColumn)
deriving DecidableEq

/-- The types the specialized implementations take. -/
def KeyType.isSpecialized : KeyType → Bool
  | .int16 | .int32 | .int64 | .timestamp => true
  | _ => false

/-- `MakeEqualityDelete`. -/
def makeEqualityDelete (sortBy : ∀ width : Nat → Nat, DescendingSort width) (types : List KeyType)
    (useSpecializedDeletes : Bool) : Except String EqualityDelete :=
  if useSpecializedDeletes = false then .ok (.generic {})
  else
    match types with
    | [type] => if type.isSpecialized then .ok (.oneColumn { type }) else .ok (.generic {})
    | _ =>
      if types.all KeyType.isSpecialized then do
        let widths ← types.mapM typeToBitWidth
        if 128 < widths.sum then .ok (.generic {})
        else
          let order := (sortBy (fun id => widths.getD id 0)).sort (List.range widths.length)
          let bits := if widths.sum ≤ 32 then 32 else if widths.sum ≤ 64 then 64 else 128
          .ok (.multipleColumn { types, order, bitWidth := widths, bits })
      else .ok (.generic {})

namespace EqualityDelete

def add (del : EqualityDelete) (arrays : List KeyArray) (rowsCount : Nat) (deleteLayer : Int) :
    Except String EqualityDelete :=
  match del with
  | .generic del => (del.add arrays rowsCount deleteLayer).map .generic
  | .oneColumn del => (del.add arrays rowsCount deleteLayer).map .oneColumn
  | .multipleColumn del => (del.add arrays rowsCount deleteLayer).map .multipleColumn

def isDeleted (del : EqualityDelete) (arrays : List KeyArray) (row : Nat) (dataLayer : Int) : Bool :=
  match del with
  | .generic del => del.isDeleted arrays row dataLayer
  | .oneColumn del => del.isDeleted arrays row dataLayer
  | .multipleColumn del => del.isDeleted arrays row dataLayer

end EqualityDelete

/-- A call of `Add`. -/
structure AddCall where
  arrays : List KeyArray
  rowsCount : Nat
  deleteLayer : Int

/-- Calls of `Add`, one after the other. -/
def EqualityDelete.addAll (del : EqualityDelete) (calls : List AddCall) : Except String EqualityDelete :=
  calls.foldlM (fun del call => del.add call.arrays call.rowsCount call.deleteLayer) del

end IcebergCxx

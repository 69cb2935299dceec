import IcebergCxx.GenericDeleteKey

/-!
# Equality deletes that count their memory

The implementations of an equality delete again, with their hash tables and what they count on the shared `MemoryState`.
A call of `Add` goes through its rows; those added before one that fails stay.
-/

namespace IcebergCxx

open Lib

/-- The array to which a specialized implementation casts a column, after it has compared the types. -/
def KeyColumn.toKeyArray : KeyColumn → KeyArray
  | ⟨.key type, slots, fits⟩ => ⟨type, slots, fits⟩
  | _ => default

/-- How a call of `Add` ends: without an exit, it returns. -/
structure Counted (D : Type) where
  exit : Option Exit
  del : D
  memory : MemoryState

def Counted.map {D D' : Type} (f : D → D') (outcome : Counted D) : Counted D' :=
  ⟨outcome.exit, f outcome.del, outcome.memory⟩

/-- The loop of `Add`. -/
def addRows {D : Type} (addRow : D → Nat → MemoryM D) : D → List Nat → MemoryState → Counted D
  | del, [], m => ⟨none, del, m⟩
  | del, row :: rows, m =>
    match addRow del row m with
    | .ok del m => addRows addRow del rows m
    | .error e m => ⟨some e, del, m⟩

/-! ### The general implementation -/

/-- `GenericEqualityDelete`. -/
structure CountedGenericDelete where
  values : FlatHashMap GenericDeleteKey := {}
deriving DecidableEq

namespace CountedGenericDelete

/-- A scope that ends with the destructor of a key. -/
def keyScope {α : Type} (key : GenericDeleteKey) (body : MemoryM α) : MemoryM α :=
  destroying (fun m => m.deallocate (GenericDeleteKey.traits.released key)) body

/-- One row of `Add`. -/
def addRow (growth : Growth) (columns : List KeyColumn) (deleteLayer : Int) (del : CountedGenericDelete) (row : Nat) :
    MemoryM CountedGenericDelete := do
  let key ← GenericDeleteKey.construct columns row
  keyScope key do
    let values ← del.values.updateMax growth GenericDeleteKey.traits key deleteLayer
    return { values }

/-- `Add`. -/
def add (growth : Growth) (del : CountedGenericDelete) (columns : List KeyColumn) (rowsCount : Nat) (deleteLayer : Int)
    (m : MemoryState) : Counted CountedGenericDelete :=
  if 64 < columns.length then
    ⟨some (.thrown "GenericEqualityDelete is not implemented for more than 64 columns"), del, m⟩
  else addRows (addRow growth columns deleteLayer) del (List.range rowsCount) m

/-- `IsDeleted`. -/
def isDeleted (del : CountedGenericDelete) (columns : List KeyColumn) (row : Nat) (dataLayer : Int) : MemoryM Bool := do
  let key ← GenericDeleteKey.construct columns row
  keyScope key (return layerDeletes (del.values.get GenericDeleteKey.traits key) dataLayer)

end CountedGenericDelete

/-! ### One integer column -/

/-- `SpecializedDeleteOneColumn`. -/
structure CountedOneColumnDelete where
  type : KeyType
  containsNull : Bool := false
  values : FlatHashMap Bytes := {}
deriving DecidableEq

namespace CountedOneColumnDelete

def traits (type : KeyType) : KeyTraits Bytes where
  same := (· == ·)
  slotSize :=
    match type with
    | .int16 | .int32 => 8
    | _ => 16
  released := fun _ => 0

/-- One row of `Add`. -/
def addRow (growth : Growth) (array : KeyArray) (deleteLayer : Int) (del : CountedOneColumnDelete) (row : Nat) :
    MemoryM CountedOneColumnDelete :=
  if array.isNull row then return { del with containsNull := true }
  else exceptionFlagGuard true do
    let values ← del.values.updateMax growth (traits del.type) (array.getView row) deleteLayer
    return { del with values }

/-- `Add`. -/
def add (growth : Growth) (del : CountedOneColumnDelete) (columns : List KeyColumn) (rowsCount : Nat) (deleteLayer : Int)
    (m : MemoryState) : Counted CountedOneColumnDelete :=
  match columns with
  | [column] =>
    if column.type ≠ .key del.type then ⟨some (.status "SpecializedDeleteOneColumn (Add): unexpected type"), del, m⟩
    else addRows (addRow growth column.toKeyArray deleteLayer) del (List.range rowsCount) m
  | _ => ⟨some (.thrown "SpecializedDeleteOneColumn (Add): unexpected number of columns"), del, m⟩

end CountedOneColumnDelete

/-! ### Several integer columns -/

/-- `SpecializedDeleteMultipleColumn` with a value type of `bits` bits. -/
structure CountedMultipleColumnDelete where
  types : List KeyType
  order : List Nat
  bitWidth : List Nat
  bits : Nat
  values : FlatHashMap Nat := {}
  valuesWithNulls : OrdMap Nat (FlatHashMap Nat) := {}
deriving DecidableEq

namespace CountedMultipleColumnDelete

/-- How the delete packs rows. -/
def packing (del : CountedMultipleColumnDelete) : SpecializedDeleteMultipleColumn where
  types := del.types
  order := del.order
  bitWidth := del.bitWidth
  bits := del.bits

/-- A number and a layer take twice the number, since they are aligned as it is. -/
def traits (bits : Nat) : KeyTraits Nat where
  same := (· == ·)
  slotSize := bits / 4
  released := fun _ => 0

/-- One row of `Add` when no array has a null. The status of the first allocation is returned, that of the second, in
`ConstructRow`, is thrown. -/
def addRow (growth : Growth) (arrays : List KeyArray) (deleteLayer : Int) (del : CountedMultipleColumnDelete)
    (row : Nat) : MemoryM CountedMultipleColumnDelete := do
  allocateWithStatus (del.bits / 8) .status
  allocateWithStatus (del.bits / 8) .thrown
  let values ← del.values.updateMax growth (traits del.bits) (del.packing.constructRow arrays row) deleteLayer
  return { del with values }

/-- One row of `Add` when some array has a null. -/
def addRowWithNulls (growth : Growth) (arrays : List KeyArray) (deleteLayer : Int) (del : CountedMultipleColumnDelete)
    (row : Nat) : MemoryM CountedMultipleColumnDelete := do
  let nullsMask := del.packing.nullsMask arrays row
  allocateWithStatus (del.bits / 8) .status
  allocateWithStatus (del.bits / 8) .thrown
  let key := del.packing.constructRowIgnoreNulls arrays row
  if nullsMask = 0 then
    let values ← del.values.updateMax growth (traits del.bits) key deleteLayer
    return { del with values }
  else
    let values ← ((del.valuesWithNulls.find? nullsMask).getD {}).updateMax growth (traits del.bits) key deleteLayer
    return { del with valuesWithNulls := del.valuesWithNulls.insert nullsMask values }

/-- `Add`. -/
def add (growth : Growth) (del : CountedMultipleColumnDelete) (columns : List KeyColumn) (rowsCount : Nat)
    (deleteLayer : Int) (m : MemoryState) : Counted CountedMultipleColumnDelete :=
  if columns.length ≠ del.types.length then
    ⟨some (.status "SpecializedDeleteMultipleColumn (Add): unexpected number of columns"), del, m⟩
  else if columns.map KeyColumn.type ≠ del.types.map .key then
    ⟨some (.status "SpecializedDeleteMultipleColumn (Add): unexpected type"), del, m⟩
  else
    let arrays := columns.map KeyColumn.toKeyArray
    if arrays.all (fun array => array.nullCount == 0) then
      addRows (addRow growth arrays deleteLayer) del (List.range rowsCount) m
    else if 9 ≤ columns.length then
      ⟨some (.status "Equality deletes with nulls and more than 8 columns are not supported"), del, m⟩
    else addRows (addRowWithNulls growth arrays deleteLayer) del (List.range rowsCount) m

end CountedMultipleColumnDelete

/-! ### Deletes that share a limit -/

inductive CountedDelete
  | generic (del : CountedGenericDelete)
  | oneColumn (del : CountedOneColumnDelete)
  | multipleColumn (del : CountedMultipleColumnDelete)
deriving DecidableEq

namespace CountedDelete

def add (growth : Growth) (del : CountedDelete) (columns : List KeyColumn) (rowsCount : Nat) (deleteLayer : Int)
    (m : MemoryState) : Counted CountedDelete :=
  match del with
  | .generic del => (del.add growth columns rowsCount deleteLayer m).map .generic
  | .oneColumn del => (del.add growth columns rowsCount deleteLayer m).map .oneColumn
  | .multipleColumn del => (del.add growth columns rowsCount deleteLayer m).map .multipleColumn

end CountedDelete

/-- The type of a column of the specialized implementations, if it is one. -/
def ColumnType.keyType? : ColumnType → Option KeyType
  | .key type => some type
  | _ => none

/-- `MakeEqualityDelete`, which reserves room for the rows of a file in the table of a specialized delete. -/
def makeCountedDelete (growth : Growth) (sortBy : ∀ width : Nat → Nat, DescendingSort width) (types : List ColumnType)
    (useSpecializedDeletes : Bool) (numRows : Nat) : MemoryM CountedDelete :=
  match types.mapM ColumnType.keyType? with
  | none => return .generic {}
  | some types =>
    match makeEqualityDelete sortBy types useSpecializedDeletes with
    | .error message => throw (.thrown message)
    | .ok (.generic _) => return .generic {}
    | .ok (.oneColumn del) => do
      let values ← ({} : FlatHashMap Bytes).reserve growth (CountedOneColumnDelete.traits del.type) numRows
      return .oneColumn { type := del.type, values }
    | .ok (.multipleColumn del) => do
      let values ← ({} : FlatHashMap Nat).reserve growth (CountedMultipleColumnDelete.traits del.bits) numRows
      return .multipleColumn { types := del.types, order := del.order, bitWidth := del.bitWidth, bits := del.bits, values }

/-- The deletes of a reader and the state they share. -/
structure CountedDeletes where
  memory : MemoryState
  deletes : List CountedDelete := []

/-- A call that makes a delete, or adds rows to one. -/
inductive DeleteCall
  | make (types : List ColumnType) (useSpecializedDeletes : Bool) (numRows : Nat)
  | add (index : Nat) (columns : List KeyColumn) (rowsCount : Nat) (deleteLayer : Int)

namespace CountedDeletes

/-- A call, and how it ends. -/
def step (growth : Growth) (sortBy : ∀ width : Nat → Nat, DescendingSort width) (s : CountedDeletes) :
    DeleteCall → Option Exit × CountedDeletes
  | .make types useSpecializedDeletes numRows =>
    match makeCountedDelete growth sortBy types useSpecializedDeletes numRows s.memory with
    | .ok del memory => (none, ⟨memory, s.deletes ++ [del]⟩)
    | .error e memory => (some e, ⟨memory, s.deletes⟩)
  | .add index columns rowsCount deleteLayer =>
    match s.deletes[index]? with
    | none => (none, s)
    | some del =>
      let outcome := del.add growth columns rowsCount deleteLayer s.memory
      (outcome.exit, ⟨outcome.memory, s.deletes.set index outcome.del⟩)

/-- The state after some calls. -/
def run (growth : Growth) (sortBy : ∀ width : Nat → Nat, DescendingSort width) (s : CountedDeletes)
    (calls : List DeleteCall) : CountedDeletes :=
  calls.foldl (fun s call => (s.step growth sortBy call).2) s

end CountedDeletes

end IcebergCxx

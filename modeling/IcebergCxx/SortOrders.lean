import IcebergCxx.Failure
import IcebergCxx.TableMetadata

/-!
# The sort orders of a table

`GetSortOrder` and `SetSortOrder` of `table_metadata.cpp`. Sort orders are shared objects: the table holds pointers to
them, and an order that is set may get another id before its pointer is appended. The object behind each pointer is
part of the state; no pointer is null.
-/

namespace IcebergCxx

/-- The shared objects, and the members of `TableMetadataV2` that concern sort orders. -/
structure SortOrderState (P : Type) where
  objects : P → SortOrder
  sortOrders : List P
  defaultSortOrderId : Int32

/-- The loop that counts up to an id that is not taken; the increment of the largest `int32_t` is undefined. -/
def nextOrderId (ids : List Int32) (orderId : Int32) : Except Failure Int32 :=
  if orderId ∈ ids then
    if orderId.toInt < 2 ^ 31 - 1 then nextOrderId ids (orderId + 1) else .error .undefined
  else .ok orderId
termination_by (2 ^ 31 - 1 - orderId.toInt).toNat
decreasing_by
  have hlower := Int32.le_toInt orderId
  have hone : (1 : Int32).toInt = 1 := rfl
  rw [Int32.toInt_add, hone, Int.bmod_eq_of_le (by omega) (by omega)]
  omega

namespace SortOrderState

variable {P : Type}

/-- Table metadata with these sort orders. -/
def toMetadata (s : SortOrderState P) (metadata : TableMetadataV2) : TableMetadataV2 :=
  { metadata with
    sortOrders := s.sortOrders.map s.objects
    defaultSortOrderId := s.defaultSortOrderId }

def orderIds (s : SortOrderState P) : List Int32 := s.sortOrders.map (fun order => (s.objects order).orderId)

def getSortOrder (s : SortOrderState P) : Option SortOrder :=
  (s.sortOrders.find? (fun order => (s.objects order).orderId = s.defaultSortOrderId)).map s.objects

/-- `SetSortOrder`: the state after the call, and the id it returns. -/
def setSortOrder [DecidableEq P] (s : SortOrderState P) (order : P) : Except Failure (SortOrderState P × Int32) :=
  match s.sortOrders.find? (fun known => (s.objects known).fields = (s.objects order).fields) with
  | some known =>
    let orderId := (s.objects known).orderId
    .ok ({ s with defaultSortOrderId := orderId }, orderId)
  | none => do
    let ids := s.orderIds
    let objects ←
      if (s.objects order).orderId = 0 ∨ (s.objects order).orderId ∈ ids then do
        let orderId ← nextOrderId ids 1
        pure (Function.update s.objects order { s.objects order with orderId := orderId })
      else pure s.objects
    let orderId := (objects order).orderId
    return ({ objects := objects, sortOrders := s.sortOrders ++ [order], defaultSortOrderId := orderId }, orderId)

end SortOrderState

end IcebergCxx

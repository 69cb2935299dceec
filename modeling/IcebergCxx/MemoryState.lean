import IcebergCxx.Basic

/-!
# The memory limit of the equality deletes

The equality deletes of a reader count their bytes on one `MemoryState`. While a key is put into a hash table an exceeded
limit is only remembered: the destructor of an `ExceptionFlagGuard` raises the error afterwards. An exception out of a
destructor ends the program. Of `absl::flat_hash_map` it is open when a table grows and what storage it then asks for.
-/

namespace IcebergCxx

/-- How a call ends that does not return a result. -/
inductive Exit
  | status (message : String)
  | thrown (message : String)
  | badAlloc
  | terminated
deriving DecidableEq

structure MemoryState where
  maxSize : Option UInt64
  throwOnAllocExceeded : Bool
  allowThrow : Bool := true
  limitExceeded : Bool := false
  allocatedSize : UInt64 := 0
  -- Not in the source: whether an update of the counter, or its difference to the limit, has ever wrapped around.
  counterWrapped : Bool := false
  remainingWrapped : Bool := false
deriving DecidableEq

/-- Calls that count memory. What they have changed stays changed when they fail. -/
abbrev MemoryM := EStateM Exit MemoryState

def MemoryM.ofExcept {α : Type} : Except Exit α → MemoryM α
  | .ok a => pure a
  | .error e => throw e

namespace MemoryState

/-- Notes that `max_size_ - allocated_size_` is computed. -/
def subtracted (m : MemoryState) : MemoryState :=
  match m.maxSize with
  | none => m
  | some maxSize => { m with remainingWrapped := m.remainingWrapped || decide (maxSize < m.allocatedSize) }

/-- `RemainingAllocateSize`. -/
def remainingAllocateSize (m : MemoryState) : UInt64 :=
  match m.maxSize with
  | none => UInt64.ofNat (2 ^ 64 - 1)
  | some maxSize => maxSize - m.allocatedSize

/-- The comparison of `AllocateCommon`. -/
def exceeds (m : MemoryState) (bytes : UInt64) : Bool :=
  match m.maxSize with
  | none => false
  | some maxSize => decide (maxSize - m.allocatedSize < bytes)

/-- `AllocateCommon`, whose status is whether it succeeds. -/
def allocateCommon (m : MemoryState) (bytes : UInt64) : Bool × MemoryState :=
  let m := m.subtracted
  if m.exceeds bytes && m.throwOnAllocExceeded && m.allowThrow then (false, m)
  else
    (true, { m with
      limitExceeded := m.limitExceeded || m.exceeds bytes
      allocatedSize := m.allocatedSize + bytes
      counterWrapped := m.counterWrapped || decide (2 ^ 64 ≤ m.allocatedSize.toNat + bytes.toNat) })

/-- `Deallocate` and `DeallocateArray`. -/
def deallocate (m : MemoryState) (bytes : Nat) : MemoryState :=
  { m with
    allocatedSize := m.allocatedSize - UInt64.ofNat bytes
    counterWrapped := m.counterWrapped || decide (m.allocatedSize.toNat < bytes) }

end MemoryState

/-- `Allocate` and `AllocateArray`. -/
def allocate (bytes : Nat) : MemoryM Unit := fun m =>
  match m.allocateCommon (UInt64.ofNat bytes) with
  | (true, m) => .ok () m
  | (false, m) => .error .badAlloc m

/-- `AllocateWithStatus`, with what the caller does with a status that is not ok. -/
def allocateWithStatus (bytes : Nat) (failed : String → Exit) : MemoryM Unit := fun m =>
  match m.allocateCommon (UInt64.ofNat bytes) with
  | (true, m) => .ok () m
  | (false, m) => .error (failed ("Error to allocate " ++ toString bytes ++ " bytes")) m

/-- `SetExceptionFlag`. -/
def setExceptionFlag (flag : Bool) : MemoryM Unit := fun m =>
  let m := { m with allowThrow := flag }
  if flag && m.limitExceeded && m.throwOnAllocExceeded then .error .badAlloc m else .ok () m

/-- `CheckLimitsBeforeAllocation`. -/
def checkLimitsBeforeAllocation (predicted : Nat) : MemoryM Unit := fun m =>
  let m := m.subtracted
  if decide (m.remainingAllocateSize < UInt64.ofNat predicted) && m.throwOnAllocExceeded then .error .badAlloc m
  else .ok () m

/-- Code in whose scope there is an object with a destructor that counts. -/
def destroying {α : Type} (destructor : MemoryState → MemoryState) (body : MemoryM α) : MemoryM α := fun m =>
  match body m with
  | .ok a m => .ok a (destructor m)
  | .error .terminated m => .error .terminated m
  | .error e m => .error e (destructor m)

/-- Code under an `ExceptionFlagGuard`. An exception out of the guard's destructor terminates the program. -/
def exceptionFlagGuard {α : Type} (initialState : Bool) (body : MemoryM α) : MemoryM α := do
  setExceptionFlag initialState
  fun m =>
    match body m with
    | .error .terminated m => .error .terminated m
    | .ok a m =>
      match setExceptionFlag (!initialState) m with
      | .ok () m => .ok a m
      | .error _ m => .error .terminated m
    | .error e m =>
      match setExceptionFlag (!initialState) m with
      | .ok () m => .error e m
      | .error _ m => .error .terminated m

/-! ### Hash tables -/

/-- How a hash table grows. -/
structure Growth where
  /-- Whether a table with a capacity and a number of elements grows for one more element. -/
  full : Nat → Nat → Bool
  next : Nat → Nat
  /-- The capacity for a number of elements. -/
  reserved : Nat → Nat
  /-- The bytes of a table with slots of a size and a capacity other than 0. -/
  storage : Nat → Nat → Nat

/-- What a table does with its keys: `operator==`, `sizeof` a key with its layer, and what a destructor counts. -/
structure KeyTraits (K : Type) where
  same : K → K → Bool
  slotSize : Nat
  released : K → Nat

structure FlatHashMap (K : Type) where
  capacity : Nat := 0
  slots : List (K × Int) := []
deriving DecidableEq

namespace FlatHashMap

variable {K : Type} (growth : Growth) (traits : KeyTraits K)

/-- `Get`. -/
def get (map : FlatHashMap K) (key : K) : Option Int :=
  (map.slots.find? (fun slot => traits.same slot.1 key)).map Prod.snd

def storage (map : FlatHashMap K) : Nat := if map.capacity = 0 then 0 else growth.storage traits.slotSize map.capacity

/-- A larger table is allocated, every element is copied into it and destroyed, and the old table is freed. -/
def resize (map : FlatHashMap K) (capacity : Nat) : MemoryM (FlatHashMap K) := do
  allocate (growth.storage traits.slotSize capacity)
  modify (fun m => map.slots.foldl (fun m slot => m.deallocate (traits.released slot.1)) m)
  modify (fun m => m.deallocate (map.storage growth traits))
  return { map with capacity }

/-- `values_[key] = value`. -/
def assign (map : FlatHashMap K) (key : K) (value : Int) : MemoryM (FlatHashMap K) :=
  if (map.get traits key).isSome then
    return { map with slots := map.slots.map (fun slot => if traits.same slot.1 key then (slot.1, value) else slot) }
  else do
    let map ← if growth.full map.capacity map.slots.length then map.resize growth traits (growth.next map.capacity)
      else pure map
    return { map with slots := map.slots ++ [(key, value)] }

/-- The size that `Set` checks before it allocates; `max_load_factor()` is 1. -/
def predictedReallocSize (map : FlatHashMap K) : Nat :=
  if map.capacity < map.slots.length + 1 then 2 * map.capacity * traits.slotSize else traits.slotSize

/-- `Set`, which takes its key by value. -/
def set (map : FlatHashMap K) (key : K) (value : Int) : MemoryM (FlatHashMap K) :=
  destroying (fun m => m.deallocate (traits.released key)) do
    checkLimitsBeforeAllocation (map.predictedReallocSize traits)
    exceptionFlagGuard false (map.assign growth traits key value)

/-- `UpdateMax`. -/
def updateMax (map : FlatHashMap K) (key : K) (value : Int) : MemoryM (FlatHashMap K) :=
  match map.get traits key with
  | none => map.set growth traits key value
  | some oldValue => map.set growth traits key (max oldValue value)

/-- `Reserve`. -/
def reserve (map : FlatHashMap K) (size : Nat) : MemoryM (FlatHashMap K) :=
  if map.capacity < growth.reserved size then map.resize growth traits (growth.reserved size) else pure map

end FlatHashMap

end IcebergCxx

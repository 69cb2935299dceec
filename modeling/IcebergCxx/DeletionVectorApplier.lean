import IcebergCxx.DeletionVector
import IcebergCxx.FilteringStream
import IcebergCxx.PositionalDeleteApplier

/-!
# The deletion vector applier

`DeletionVectorApplier` takes the rows of a deletion vector out of the batches of a
`FilteringStream`. The positions of a batch are those from its first row to its last one.
-/

namespace IcebergCxx

open Lib

/-- `static_cast<int32_t>` of a `uint64_t`. -/
def castToInt32 (x : UInt64) : Int := Int.bmod x.toNat (2 ^ 32)

structure DeletionVectorApplier (roaring : RoaringLibrary) where
  input : FilteringStream
  dv : DeletionVector roaring

namespace DeletionVectorApplier

variable {roaring : RoaringLibrary}

def getRelativeElems (dv : DeletionVector roaring) (start last : UInt64) : Except String (List Int) := do
  ensure ((last - start).toNat ≤ 2 ^ 31 - 1) "batch is too large"
  let absElems ← dv.getElems start last
  return absElems.map (fun pos => castToInt32 (UInt64.ofNat pos - start))

def applyDeletionVector (batch : FilteredBatch) (dv : DeletionVector roaring) : Except String FilteredBatch := do
  let start := UInt64.ofInt batch.rowPosition
  let last := start + UInt64.ofNat batch.numRows - 1
  let relative ← getRelativeElems dv start last
  if relative.isEmpty then return batch
  else return { batch with selectionVector := deleteIfEqual batch.selectionVector relative }

def readNext (applier : DeletionVectorApplier roaring) : ReadResult FilteredBatch × DeletionVectorApplier roaring :=
  match applier.input.readNext with
  | (.batch batch, input) =>
    match applyDeletionVector batch applier.dv with
    | .ok batch => (.batch batch, { applier with input })
    | .error message => (.thrown message, { applier with input })
  | (result, input) => (result, { applier with input })

/-- The applier after some calls. -/
def after (applier : DeletionVectorApplier roaring) : Nat → DeletionVectorApplier roaring
  | 0 => applier
  | n + 1 => (applier.after n).readNext.2

/-- The result of a call, counted from 0. -/
def result (applier : DeletionVectorApplier roaring) (n : Nat) : ReadResult FilteredBatch :=
  (applier.after n).readNext.1

end DeletionVectorApplier

end IcebergCxx

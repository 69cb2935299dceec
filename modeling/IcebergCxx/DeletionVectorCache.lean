import IcebergCxx.ScanMetadata

/-!
# The deletion vector cache of `FileReaderBuilder`

The last part of `FileReaderBuilder::Build`: the vector of the last data file is kept, under the
path of the file, and applied to the stream. A call may throw before it comes to that part, which
leaves the cache as it is, and opening the vector may throw.
-/

namespace IcebergCxx

open Lib

/-- `last_data_file_path_` and `last_dv_`. -/
structure DvCache (V : Type) where
  lastDataFilePath : Bytes := []
  lastDv : Option V := none

/-- A call of `Build`: the path and the deletion vector of the `AnnotatedDataPath`, whether the call
comes to the deletion vector at all, and whether opening it throws. -/
structure BuildCall where
  path : Bytes
  deletionVector : Option DeletionVectorInfo
  prepared : Bool := true
  openFails : Bool := false

section
variable {V : Type} (content : DeletionVectorInfo → V)

/-- The vector that the returned stream applies, and the cache after the call; `content` is what a
vector holds that is opened. -/
def buildDv (call : BuildCall) (cache : DvCache V) : Except String (Option V) × DvCache V :=
  if !call.prepared then (.error "MakeArrowReader", cache)
  else if call.path ≠ cache.lastDataFilePath then
    match call.deletionVector with
    | none => (.ok none, { lastDataFilePath := call.path, lastDv := none })
    | some dvInfo =>
      if call.openFails then (.error "OpenDeletionVector", { lastDataFilePath := call.path, lastDv := none })
      else (.ok (some (content dvInfo)), { lastDataFilePath := call.path, lastDv := some (content dvInfo) })
  else (.ok cache.lastDv, cache)

/-- The cache after some calls. -/
def cacheAfter (calls : List BuildCall) : DvCache V :=
  calls.foldl (fun cache call => (buildDv content call cache).2) {}

end

end IcebergCxx

import IcebergCxx.Failure
import IcebergCxx.Manifest
import IcebergCxx.Puffin

/-!
# Validation of manifests

`ValidateManifests` of `tools/validation.cpp` with its restrictions and its log of errors. The sizes of the row groups
of a file are computed from its split offsets.
-/

namespace IcebergCxx

open Lib

structure RestrictionsManifests where
  maxEqualityDeletesCount : Int := 2 ^ 31 - 1
  maxPositionDeletesCount : Int := 2 ^ 31 - 1
  maxDataFilesCount : Int := 2 ^ 31 - 1
  maxDeleteFilesCount : Int := 2 ^ 31 - 1
  maxRowGroupsPerFile : Int := 2 ^ 31 - 1
  maxRowGroupSizePercentile : Int := 100
  minRowGroupSizePercentile : Int := 0
  maxRowGroupSizeBytes : Int := 2 ^ 63 - 1
  minRowGroupSizeBytes : Int := -2 ^ 63
  deriving DecidableEq

structure ErrorLog where
  errors : String := ""
  was : List String := []

namespace ErrorLog

def errorMessage : String := "The following restrictions have been violated:\n"

def add (log : ErrorLog) (message : String) : ErrorLog := { log with errors := log.errors ++ message }

def check (log : ErrorLog) (condition : Bool) (message : String) : Bool × ErrorLog :=
  if !condition then (false, log.add message) else (true, log)

/-- A message that was logged before is not logged again. -/
def checkOnce (log : ErrorLog) (condition : Bool) (message : String) : Bool × ErrorLog :=
  if !condition && !log.was.contains message then
    (false, { errors := log.errors ++ message, was := message :: log.was })
  else (true, log)

def throwIfWasError (log : ErrorLog) : Except String Unit :=
  ensure (log.errors.isEmpty) (errorMessage ++ log.errors)

end ErrorLog

namespace ManifestEntryHelper

def isData (entry : ManifestEntry) : Bool := entry.dataFile.content = .data

def isEqualityDeletes (entry : ManifestEntry) : Bool := entry.dataFile.content = .equalityDeletes

def isPositionDeletes (entry : ManifestEntry) : Bool := entry.dataFile.content = .positionDeletes

end ManifestEntryHelper

structure IcebergMetadataValidator where
  restrictionsManifests : Option RestrictionsManifests := none

namespace IcebergMetadataValidator

open ManifestEntryHelper

/-! ### Counts -/

/-- The counters of `ValidateManifests`, of the type `int32_t`. -/
structure FileCounts where
  equalityDeletesCount : Int := 0
  positionDeletesCount : Int := 0
  dataFilesCount : Int := 0
  deleteFilesCount : Int := 0

/-- `++count`. -/
def increment (count : Int) : Except Failure Int :=
  if count < 2 ^ 31 - 1 then .ok (count + 1) else .error .undefined

def countFile (counts : FileCounts) (entry : ManifestEntry) : Except Failure FileCounts := do
  let counts ← if isEqualityDeletes entry then do
      let equalityDeletesCount ← increment counts.equalityDeletesCount
      let deleteFilesCount ← increment counts.deleteFilesCount
      pure { counts with equalityDeletesCount, deleteFilesCount }
    else pure counts
  let counts ← if isPositionDeletes entry then do
      let positionDeletesCount ← increment counts.positionDeletesCount
      let deleteFilesCount ← increment counts.deleteFilesCount
      pure { counts with positionDeletesCount, deleteFilesCount }
    else pure counts
  if isData entry then do
    let dataFilesCount ← increment counts.dataFilesCount
    pure { counts with dataFilesCount }
  else pure counts

/-! ### Row groups -/

/-- `a - b` for `int64_t`. -/
def subtract (a b : Int) : Except Failure Int :=
  if -2 ^ 63 ≤ a - b ∧ a - b < 2 ^ 63 then .ok (a - b) else .error .undefined

/-- `v[i]`. -/
def elementAt (v : List Int) (i : Nat) : Except Failure Int := v[i]?.elim (.error .undefined) .ok

/-- `v.back()`. -/
def back (v : List Int) : Except Failure Int := v.getLast?.elim (.error .undefined) .ok

/-- `row_group_sizes`, before it is sorted. -/
def rowGroupSizes (dataFile : ContentFile) : Except Failure (List Int) := do
  let gaps ← (dataFile.splitOffsets.zip dataFile.splitOffsets.tail).mapM (fun pair => subtract pair.2 pair.1)
  let last ← back dataFile.splitOffsets
  let first ← elementAt dataFile.splitOffsets 0
  let span ← subtract last first
  let lastSize ← subtract dataFile.fileSizeInBytes span
  .ok (gaps ++ [lastSize])

/-- `percentile * (num_row_groups - 1) / 100`, a product in `size_t`. -/
def percentileIndex (percentile : Int) (numRowGroups : Nat) : Nat :=
  (toSizeT percentile * (numRowGroups - 1)) % 2 ^ 64 / 100

/-! ### Validation -/

/-- The checks in the loop over the entries of a manifest. -/
def checkFile (restrictions : RestrictionsManifests) (log : ErrorLog) (dataFile : ContentFile) :
    Except Failure ErrorLog := do
  let log := (log.checkOnce (dataFile.fileFormat = bytes "PARQUET") "Unsupported file format\n").2
  let numRowGroups := dataFile.splitOffsets.length
  let log := (log.checkOnce (numRowGroups ≤ toSizeT restrictions.maxRowGroupsPerFile) "Too many row groups\n").2
  let sizes ← rowGroupSizes dataFile
  let sizes := sizes.insertionSort (· ≤ ·)
  let low ← elementAt sizes (percentileIndex restrictions.minRowGroupSizePercentile numRowGroups)
  let log := (log.checkOnce (restrictions.minRowGroupSizeBytes ≤ low) "row group size is too small\n").2
  let high ← elementAt sizes (percentileIndex restrictions.maxRowGroupSizePercentile numRowGroups)
  let log := (log.checkOnce (high ≤ restrictions.maxRowGroupSizeBytes) "row group size is too big\n").2
  .ok log

/-- The body of that loop. -/
def validateEntry (restrictions : RestrictionsManifests) (s : FileCounts × ErrorLog) (entry : ManifestEntry) :
    Except Failure (FileCounts × ErrorLog) := do
  let counts ← countFile s.1 entry
  let log ← checkFile restrictions s.2 entry.dataFile
  .ok (counts, log)

/-- The message of a count that is too high. -/
def countMessage (what : String) (limit actual : Int) : String :=
  "Too many " ++ what ++ " : expected no more than " ++ toString limit ++ ", actual is " ++ toString actual ++ "\n"

/-- The checks after the loops. -/
def checkCounts (restrictions : RestrictionsManifests) (counts : FileCounts) (log : ErrorLog) : ErrorLog :=
  let log := (log.check (counts.equalityDeletesCount ≤ restrictions.maxEqualityDeletesCount)
    (countMessage "equality deletes" restrictions.maxEqualityDeletesCount counts.equalityDeletesCount)).2
  let log := (log.check (counts.positionDeletesCount ≤ restrictions.maxPositionDeletesCount)
    (countMessage "position deletes" restrictions.maxPositionDeletesCount counts.positionDeletesCount)).2
  let log := (log.check (counts.deleteFilesCount ≤ restrictions.maxDeleteFilesCount)
    (countMessage "delete files" restrictions.maxDeleteFilesCount counts.deleteFilesCount)).2
  (log.check (counts.dataFilesCount ≤ restrictions.maxDataFilesCount)
    (countMessage "data files" restrictions.maxDataFilesCount counts.dataFilesCount)).2

def validateManifests (validator : IcebergMetadataValidator) (manifests : List Manifest) : Except Failure Unit :=
  match validator.restrictionsManifests with
  | none => .error (.thrown "Restrictions manifests are not assigned yet\n")
  | some restrictions => do
    let s ← manifests.foldlM (fun s manifest => manifest.entries.foldlM (validateEntry restrictions) s) ({}, {})
    throwing (checkCounts restrictions s.1 s.2).throwIfWasError

end IcebergMetadataValidator

end IcebergCxx

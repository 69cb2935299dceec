import IcebergCxx.Planner

/-!
# Concurrent calls of the planner

`ReferencedDataFileAwareScanPlannerMT` takes its mutex while `AddEntry` notes what the entry says about
the deletes, and `ScanMetadataBuilderMT` takes another one while it stores the file. Other calls may run
between the two steps. A call that fails leaves behind what it has changed.
-/

namespace IcebergCxx

open Lib

/-- Where a call of `AddEntry` stands. -/
inductive AddEntryPhase
  | called
  | noted
  | returned
  | failed (message : String)

structure AddEntryCall where
  entry : ManifestEntry
  phase : AddEntryPhase := .called

def AddEntryCall.failure (call : AddEntryCall) : Option String :=
  match call.phase with
  | .failed message => some message
  | _ => none

def AddEntryCall.finished (call : AddEntryCall) : Bool :=
  match call.phase with
  | .called | .noted => false
  | .returned | .failed _ => true

structure ReferencedDataFileAwareScanPlannerMT where
  planner : ReferencedDataFileAwareScanPlanner
  calls : List AddEntryCall

namespace ReferencedDataFileAwareScanPlannerMT

def start (tableMetadata : TableMetadata) (entries : List ManifestEntry) : ReferencedDataFileAwareScanPlannerMT where
  planner := .make tableMetadata
  calls := entries.map (fun entry => { entry := entry })

/-- The planner after a step of a call, and where the call then stands. -/
def stepCall (planner : ReferencedDataFileAwareScanPlanner) (call : AddEntryCall) :
    Option (ReferencedDataFileAwareScanPlanner × AddEntryPhase) :=
  match call.phase with
  | .called =>
    if call.entry.status = .deleted then some (planner, .returned)
    else
      match planner.noteEntry call.entry with
      | .ok planner => some (planner, .noted)
      -- only `HandlePositionDelete` fails, after it has set the flag
      | .error message => some ({ planner with hasReferencedDataFile := true }, .failed message)
  | .noted =>
    match planner.builder.addEntry call.entry with
    | .ok builder => some ({ planner with builder := builder }, .returned)
    | .error message => some (planner, .failed message)
  | .returned | .failed _ => none

/-- The call at an index takes its next step. -/
def step (s : ReferencedDataFileAwareScanPlannerMT) (index : Nat) : Option ReferencedDataFileAwareScanPlannerMT :=
  match s.calls[index]? with
  | none => none
  | some call => (stepCall s.planner call).map (fun (planner, phase) =>
      { planner := planner, calls := s.calls.set index { call with phase := phase } })

def finished (s : ReferencedDataFileAwareScanPlannerMT) : Bool := s.calls.all AddEntryCall.finished

/-- The first failed status, or else the plan. -/
def result (s : ReferencedDataFileAwareScanPlannerMT) : Except String ScanMetadata :=
  match s.calls.findSome? AddEntryCall.failure with
  | some message => .error message
  | none => s.planner.getResult

end ReferencedDataFileAwareScanPlannerMT

/-- `GetScanMetadata` on the entries in the order in which the stream gives them. -/
def getScanMetadata (tableMetadata : TableMetadata) (entries : List ManifestEntry) : Except String ScanMetadata := do
  let planner ← (ReferencedDataFileAwareScanPlanner.make tableMetadata).addEntries entries
  planner.getResult

end IcebergCxx

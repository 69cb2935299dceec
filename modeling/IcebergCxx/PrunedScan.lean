import IcebergCxx.ManifestSkipping
import IcebergCxx.TableScan

/-!
# Planning with a statistics filter

With `threads_num = 0` `GetScanMetadata` gives its filter to `AllEntriesStream::Make`, which leaves out the manifests that
the filter excludes by their partition summaries, of data files and of deletes alike. A getter of partition bounds may
throw, and then no manifest is left out.
-/

namespace IcebergCxx

open Lib

/-! ### The statistics filter over a getter that throws -/

/-- What is done with a status, unless something was thrown before. -/
def ifReturned {α β : Type} (x : Except String (Except String α)) (f : α → Except String (Except String β)) :
    Except String (Except String β) :=
  match x with
  | .error thrown => .error thrown
  | .ok (.error status) => .ok (.error status)
  | .ok (.ok a) => f a

section
variable (getter : ThrowingStatsGetter) (shift : Option (SignedInt 64))

mutual

/-- `StatsFilterVisitor::Visit`: what it throws around what it returns. -/
def visitThrowing : Node → Except String (Except String GenericStats)
  | .function signature arguments =>
    ifReturned (visitThrowingAll arguments) (fun evaluatedArguments =>
      .ok (registryEvaluate shift signature.functionId evaluatedArguments))
  | .const ⟨_, none⟩ => .ok (.error "ConstNode with null is not supported")
  | .const ⟨type, some value⟩ => .ok (.ok {
      minMax := ⟨type, ⟨value, value⟩⟩
      count := { containsNull := false, containsNonNull := true } })
  | .variable valueType columnName =>
    match getter columnName valueType with
    | .error thrown => .error thrown
    | .ok (some stats) => .ok (.ok stats)
    | .ok none => .ok (.error ("No stats for " ++ text columnName ++ " found"))
  | .scalarOverArray signature useOr scalar array =>
    ifReturned (visitThrowing scalar) (fun lhs =>
      .ok (evaluateArray shift signature.functionId useOr lhs array.1 (BoolStatsAggregator.init useOr) array.2))
  | .ifNode condition thenNode elseNode =>
    ifReturned (visitThrowing condition) (fun evaluatedCond =>
      ifReturned (.ok evaluatedCond.getBool) (fun stats =>
        if stats.min then visitThrowing thenNode
        else if !stats.max then visitThrowing elseNode
        else ifReturned (visitThrowing thenNode) (fun thenRes =>
          ifReturned (visitThrowing elseNode) (fun elseRes => .ok (mergeBranches thenRes elseRes)))))
  | .logical .not [argument] =>
    ifReturned (visitThrowing argument) (fun evaluatedArg =>
      ifReturned (.ok evaluatedArg.getBool) (fun stats =>
        .ok (.ok { evaluatedArg with minMax := stats.not.toGeneric })))
  | .logical .not _ => .ok (.error "unexpected argument number for kNot function")
  | .logical .or arguments => visitThrowingLogical true (BoolStatsAggregator.init true) arguments
  | .logical .and arguments => visitThrowingLogical false (BoolStatsAggregator.init false) arguments

/-- The arguments of a function, up to the first failure. -/
def visitThrowingAll : List Node → Except String (Except String (List GenericStats))
  | [] => .ok (.ok [])
  | argument :: arguments =>
    ifReturned (visitThrowing argument) (fun stats =>
      ifReturned (visitThrowingAll arguments) (fun rest => .ok (.ok (stats :: rest))))

/-- The loop over the arguments of `kAnd` and `kOr`: a failed status counts as unknown, an exception does not. -/
def visitThrowingLogical (useOr : Bool) (current : BoolStats) : List Node → Except String (Except String GenericStats)
  | [] => .ok (.ok (BoolStatsAggregator.result current))
  | argument :: arguments =>
    match visitThrowing argument with
    | .error thrown => .error thrown
    | .ok (.error _) => visitThrowingLogical useOr (BoolStatsAggregator.add useOr current boolStatsUnknown) arguments
    | .ok (.ok evaluatedArg) =>
      ifReturned (.ok evaluatedArg.getBool) (fun stats =>
        let current := BoolStatsAggregator.add useOr current stats
        if BoolStatsAggregator.isFinal useOr current then .ok (.ok (BoolStatsAggregator.result current))
        else visitThrowingLogical useOr current arguments)

end

end

/-- `StatsFilter`: the expression and the shift of its settings. -/
structure StatsFilter where
  root : Option Node
  timestampToTimestamptzShiftUs : Option (SignedInt 64) := none

/-- `ApplyFilter` over a getter that may throw. -/
def StatsFilter.tryApplyFilter (filter : StatsFilter) (getter : ThrowingStatsGetter) : Except String MatchedRows :=
  match filter.root with
  | .none => .ok .some
  | .some root =>
    match visitThrowing getter filter.timestampToTimestamptzShiftUs root with
    | .error thrown => .error thrown
    | .ok (.error _) => .ok .some
    | .ok (.ok result) =>
      match result.getBool with
      | .error _ => .ok .some
      | .ok stats =>
        if stats = boolStatsFalse then .ok .none
        else if stats = boolStatsTrue then .ok .all
        else .ok .some

/-! ### The manifests that are read -/

namespace ScanRequest

/-- The queue of `AllEntriesStream::Make`. -/
def manifestFilesQueue (request : ScanRequest) (statsFilter : Option StatsFilter)
    (manifestMetadatas : List ManifestFile) : List ManifestFile :=
  match statsFilter with
  | none => manifestMetadatas
  | some filter =>
    match filterManifests filter.tryApplyFilter request.tableMetadata.currentSchema
        request.tableMetadata.partitionSpecs manifestMetadatas with
    | .error _ => manifestMetadatas
    | .ok canSkip => (manifestMetadatas.zip canSkip).filterMap (fun (manifest, skip) =>
        if skip then none else some manifest)

/-- `GetScanMetadata` with `threads_num = 0` and a filter. -/
def getScanMetadataFiltered (request : ScanRequest) (statsFilter : Option StatsFilter) : Except String ScanMetadata := do
  let manifestFiles ← request.getManifestFiles
  let planner ← (request.manifestFilesQueue statsFilter manifestFiles).foldlM request.addManifest
    (.make request.tableMetadata)
  planner.getResult

end ScanRequest

end IcebergCxx

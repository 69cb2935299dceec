import IcebergCxx.FilterNode

/-!
# The statistics filter

`StatsFilter` evaluates an expression on the bounds of the columns of a row group instead of
on its rows, to tell whether no row or every row can match.
-/

namespace IcebergCxx

open Lib

structure MinMaxStats (α : Type) where
  min : α
  max : α
deriving DecidableEq, Repr

structure CountStats where
  containsNull : Bool
  containsNonNull : Bool
deriving DecidableEq, Repr

abbrev GenericMinMaxStats := Σ type : ValueType, MinMaxStats (PhysicalType type)

structure GenericStats where
  minMax : GenericMinMaxStats
  count : CountStats := { containsNull := true, containsNonNull := true }

abbrev BoolStats := MinMaxStats Bool

def boolStatsTrue : BoolStats := ⟨true, true⟩
def boolStatsFalse : BoolStats := ⟨false, false⟩
def boolStatsUnknown : BoolStats := ⟨false, true⟩

namespace BoolStats

/-- `operator||`. -/
def or (lhs rhs : BoolStats) : BoolStats :=
  if lhs = boolStatsTrue ∨ rhs = boolStatsTrue then boolStatsTrue
  else if lhs = boolStatsFalse ∧ rhs = boolStatsFalse then boolStatsFalse
  else boolStatsUnknown

/-- `operator&&`. -/
def and (lhs rhs : BoolStats) : BoolStats :=
  if lhs = boolStatsTrue ∧ rhs = boolStatsTrue then boolStatsTrue
  else if lhs = boolStatsFalse ∨ rhs = boolStatsFalse then boolStatsFalse
  else boolStatsUnknown

/-- `operator!`. -/
def not (arg : BoolStats) : BoolStats := ⟨!arg.max, !arg.min⟩

def toGeneric (stats : BoolStats) : GenericMinMaxStats := ⟨.bool, stats⟩

end BoolStats

/-- `min_max.Get<kBool>()` behind the check of the value type. -/
def GenericStats.getBool (stats : GenericStats) : Except String BoolStats :=
  match stats.minMax with
  | ⟨.bool, value⟩ => .ok value
  | _ => .error "expected bool stats"

/-! ### The registry -/

section
variable {α : Type} [LinearOrder α]

/-- `EvaluateMonotoneComparison`. -/
def evaluateMonotoneComparison (cmp : α → α → Bool) (lhs rhs : MinMaxStats α) : BoolStats :=
  let results := [cmp lhs.min rhs.min, cmp lhs.min rhs.max, cmp lhs.max rhs.min, cmp lhs.max rhs.max]
  if results.all (fun result => !result) then boolStatsFalse
  else if results.all (fun result => result) then boolStatsTrue
  else boolStatsUnknown

def evaluateLess : MinMaxStats α → MinMaxStats α → BoolStats :=
  evaluateMonotoneComparison (fun a b => decide (a < b))

def evaluateGreater : MinMaxStats α → MinMaxStats α → BoolStats :=
  evaluateMonotoneComparison (fun a b => decide (b < a))

def evaluateLessThanOrEqualTo : MinMaxStats α → MinMaxStats α → BoolStats :=
  evaluateMonotoneComparison (fun a b => decide (a ≤ b))

def evaluateGreaterThanOrEqualTo : MinMaxStats α → MinMaxStats α → BoolStats :=
  evaluateMonotoneComparison (fun a b => decide (b ≤ a))

def evaluateEqual (lhs rhs : MinMaxStats α) : BoolStats :=
  (evaluateLessThanOrEqualTo lhs rhs).and (evaluateGreaterThanOrEqualTo lhs rhs)

def evaluateNotEqual (lhs rhs : MinMaxStats α) : BoolStats := (evaluateEqual lhs rhs).not

/-- The evaluators that `kBinaryEvaluators` registers for a comparable type. -/
def binaryEvaluator : FunctionID → Option (MinMaxStats α → MinMaxStats α → BoolStats)
  | .lessThan => some evaluateLess
  | .greaterThan => some evaluateGreater
  | .lessThanOrEqualTo => some evaluateLessThanOrEqualTo
  | .greaterThanOrEqualTo => some evaluateGreaterThanOrEqualTo
  | .equal => some evaluateEqual
  | .notEqual => some evaluateNotEqual
  | _ => none

end

/-- The search of `kBinaryEvaluators`, and `EvaluateBinary`. -/
def evaluateBinary (functionId : FunctionID) (lhs rhs : GenericStats) : Except String GenericStats :=
  if h : rhs.minMax.1 = lhs.minMax.1 then
    if lhs.minMax.1.isComparable then
      match binaryEvaluator functionId with
      | some evaluator => .ok {
          minMax := (evaluator lhs.minMax.2 (h ▸ rhs.minMax.2)).toGeneric
          count := {
            containsNull := lhs.count.containsNull || rhs.count.containsNull
            containsNonNull := lhs.count.containsNonNull || rhs.count.containsNonNull } }
      | none => .error "number of arguments = 2, unexpected function id"
    else .error "number of arguments = 2, unexpected function id"
  else .error "number of arguments = 2, unexpected function id"

/-- `EvaluateIsNull`. -/
def evaluateIsNull (stats : GenericStats) : GenericStats where
  minMax := BoolStats.toGeneric ⟨!stats.count.containsNonNull, stats.count.containsNull⟩
  count := { containsNull := false, containsNonNull := true }

def evaluateCastInt2Int4 (arg : MinMaxStats (SignedInt 16)) : MinMaxStats (SignedInt 32) :=
  ⟨toInt32 arg.min.val, toInt32 arg.max.val⟩

def evaluateCastInt2Int8 (arg : MinMaxStats (SignedInt 16)) : MinMaxStats (SignedInt 64) :=
  ⟨toInt64 arg.min.val, toInt64 arg.max.val⟩

def evaluateCastInt4Int8 (arg : MinMaxStats (SignedInt 32)) : MinMaxStats (SignedInt 64) :=
  ⟨toInt64 arg.min.val, toInt64 arg.max.val⟩

/-- All 64-bit timestamps. -/
def allTimestamps : MinMaxStats (SignedInt 64) := ⟨⟨int64Min, by decide⟩, ⟨int64Max, by decide⟩⟩

def maxSupportedDate : Int := 1000000

/-- `EvaluateCastDateTimestamp`: `abs` of a 32-bit integer is a 32-bit integer. -/
def evaluateCastDateTimestamp (arg : MinMaxStats (SignedInt 32)) : MinMaxStats (SignedInt 64) :=
  if (toInt32 |arg.min.val|).val ≤ maxSupportedDate ∧ (toInt32 |arg.max.val|).val ≤ maxSupportedDate then
    ⟨toInt64 (arg.min.val * microsInDay), toInt64 (arg.max.val * microsInDay)⟩
  else allTimestamps

def maxSupportedTimestamp : Int := 10 ^ 18

/-- `EvaluateCastTimestamptzTimestamp`. -/
def evaluateCastTimestamptzTimestamp (arg : MinMaxStats (SignedInt 64)) (shift : SignedInt 64) :
    MinMaxStats (SignedInt 64) :=
  if (toInt64 |arg.min.val|).val ≤ maxSupportedTimestamp ∧ (toInt64 |arg.max.val|).val ≤ maxSupportedTimestamp ∧
      (toInt64 |shift.val|).val ≤ maxSupportedTimestamp then
    ⟨toInt64 (arg.min.val + shift.val), toInt64 (arg.max.val + shift.val)⟩
  else allTimestamps

/-- A signed operation of the machine and its exact result. -/
structure SignedOperation where
  width : Nat
  exact : Int

/-- The result does not fit, so the operation is undefined. -/
def SignedOperation.Overflows (op : SignedOperation) : Prop :=
  ¬(-2 ^ (op.width - 1) ≤ op.exact ∧ op.exact < 2 ^ (op.width - 1))

/-- The operations of `abs(x) <= bound && …`: a value that fails the check is the last one whose
`abs` is taken. -/
def checkOperations (width : Nat) (bound : Int) : List Int → List SignedOperation
  | [] => []
  | x :: rest =>
    ⟨width, |x|⟩ :: if Int.bmod |x| (2 ^ width) ≤ bound then checkOperations width bound rest else []

/-- The operations of `EvaluateCastDateTimestamp`, in order. -/
def castDateTimestampOperations (arg : MinMaxStats (SignedInt 32)) : List SignedOperation :=
  checkOperations 32 maxSupportedDate [arg.min.val, arg.max.val] ++
    if (toInt32 |arg.min.val|).val ≤ maxSupportedDate ∧ (toInt32 |arg.max.val|).val ≤ maxSupportedDate then
      [⟨64, arg.min.val * microsInDay⟩, ⟨64, arg.max.val * microsInDay⟩]
    else []

/-- The operations of `EvaluateCastTimestamptzTimestamp`, in order. -/
def castTimestamptzTimestampOperations (arg : MinMaxStats (SignedInt 64)) (shift : SignedInt 64) :
    List SignedOperation :=
  checkOperations 64 maxSupportedTimestamp [arg.min.val, arg.max.val, shift.val] ++
    if (toInt64 |arg.min.val|).val ≤ maxSupportedTimestamp ∧ (toInt64 |arg.max.val|).val ≤ maxSupportedTimestamp ∧
        (toInt64 |shift.val|).val ≤ maxSupportedTimestamp then
      [⟨64, arg.min.val + shift.val⟩, ⟨64, arg.max.val + shift.val⟩]
    else []

/-- The unordered pair of the types of two arguments. -/
def areTypes (a b : ValueType) (lhs rhs : GenericStats) : Bool :=
  decide (lhs.minMax.1 = a ∧ rhs.minMax.1 = b ∨ lhs.minMax.1 = b ∧ rhs.minMax.1 = a)

def castToInt4 (arg : GenericStats) : GenericStats :=
  match arg.minMax with
  | ⟨.int2, stats⟩ => { arg with minMax := ⟨.int4, evaluateCastInt2Int4 stats⟩ }
  | _ => arg

def castToInt8 (arg : GenericStats) : GenericStats :=
  match arg.minMax with
  | ⟨.int2, stats⟩ => { arg with minMax := ⟨.int8, evaluateCastInt2Int8 stats⟩ }
  | ⟨.int4, stats⟩ => { arg with minMax := ⟨.int8, evaluateCastInt4Int8 stats⟩ }
  | _ => arg

def castToTimestamp (shift : Option (SignedInt 64)) (arg : GenericStats) : Except String GenericStats :=
  match arg.minMax with
  | ⟨.date, stats⟩ => .ok { arg with minMax := ⟨.timestamp, evaluateCastDateTimestamp stats⟩ }
  | ⟨.timestamptz, stats⟩ =>
    match shift with
    | none => .error ("unsupported cast from timestamptz to timestamp because " ++
        "timestamp_to_timestamptz_shift_us is not set")
    | some shift => .ok { arg with minMax := ⟨.timestamp, evaluateCastTimestamptzTimestamp stats shift⟩ }
  | _ => .ok arg

/-- `Registry::CastToSameTypeForComparison`, on the two arguments of a comparison. -/
def castToSameTypeForComparison (shift : Option (SignedInt 64)) (lhs rhs : GenericStats) :
    Except String (GenericStats × GenericStats) :=
  if lhs.minMax.1 = rhs.minMax.1 then .ok (lhs, rhs)
  else if areTypes .int2 .int4 lhs rhs then .ok (castToInt4 lhs, castToInt4 rhs)
  else if areTypes .int4 .int8 lhs rhs || areTypes .int2 .int8 lhs rhs then .ok (castToInt8 lhs, castToInt8 rhs)
  else if areTypes .timestamp .timestamptz lhs rhs || areTypes .timestamp .date lhs rhs ||
      areTypes .timestamptz .date lhs rhs then do
    let lhs ← castToTimestamp shift lhs
    let rhs ← castToTimestamp shift rhs
    .ok (lhs, rhs)
  else .error "unsupported cast"

/-- The search of `kUnaryEvaluators`. -/
def evaluateUnary (functionId : FunctionID) (arg : GenericStats) : Except String GenericStats :=
  match functionId, arg.minMax with
  | .castInt4, ⟨.int2, stats⟩ => .ok { arg with minMax := ⟨.int4, evaluateCastInt2Int4 stats⟩ }
  | .castInt8, ⟨.int2, stats⟩ => .ok { arg with minMax := ⟨.int8, evaluateCastInt2Int8 stats⟩ }
  | .castInt8, ⟨.int4, stats⟩ => .ok { arg with minMax := ⟨.int8, evaluateCastInt4Int8 stats⟩ }
  | .isNull, _ => .ok (evaluateIsNull arg)
  | _, _ => .error "number of arguments = 1, unexpected function id"

/-- `Registry::Evaluate`. -/
def registryEvaluate (shift : Option (SignedInt 64)) (functionId : FunctionID) :
    List GenericStats → Except String GenericStats
  | [lhs, rhs] => do
    let (lhs, rhs) ← (if functionId.isComparison then castToSameTypeForComparison shift lhs rhs else .ok (lhs, rhs))
    evaluateBinary functionId lhs rhs
  | [arg] => evaluateUnary functionId arg
  | _ => .error "unexpected number of arguments"

/-! ### The visitor -/

namespace BoolStatsAggregator

def init (useOr : Bool) : BoolStats := if useOr then boolStatsFalse else boolStatsTrue

/-- `BoolStatsAggregator::Add`: the new result. -/
def add (useOr : Bool) (current newValue : BoolStats) : BoolStats :=
  if useOr then current.or newValue else current.and newValue

/-- Whether `Add` tells that no further value can change the result. -/
def isFinal (useOr : Bool) (current : BoolStats) : Bool :=
  decide (current = if useOr then boolStatsTrue else boolStatsFalse)

def result (current : BoolStats) : GenericStats := { minMax := current.toGeneric }

end BoolStatsAggregator

/-- `IStatsGetter::GetStats`. -/
abbrev StatsGetter := Bytes → ValueType → Option GenericStats

/-- One element of an array in `TypedVisit(ScalarOverArrayFunctionNode)`. -/
def evaluateElement (shift : Option (SignedInt 64)) (functionId : FunctionID) (lhs : GenericStats) (type : ValueType) :
    Option (PhysicalType type) → Except String BoolStats
  | none => .ok boolStatsUnknown
  | some value => do
    let stats ← registryEvaluate shift functionId
      [lhs, { minMax := ⟨type, ⟨value, value⟩⟩, count := { containsNull := false, containsNonNull := true } }]
    stats.getBool

/-- The loop over the elements of an array. -/
def evaluateArray (shift : Option (SignedInt 64)) (functionId : FunctionID) (useOr : Bool) (lhs : GenericStats)
    (type : ValueType) (current : BoolStats) : List (Option (PhysicalType type)) → Except String GenericStats
  | [] => .ok (BoolStatsAggregator.result current)
  | elem :: elems => do
    let arg ← evaluateElement shift functionId lhs type elem
    let current := BoolStatsAggregator.add useOr current arg
    if BoolStatsAggregator.isFinal useOr current then .ok (BoolStatsAggregator.result current)
    else evaluateArray shift functionId useOr lhs type current elems

/-- The stats of an `IfNode` whose condition does not decide the branch. -/
def mergeBranches (thenRes elseRes : GenericStats) : Except String GenericStats :=
  if h : elseRes.minMax.1 = thenRes.minMax.1 then
    if thenRes.minMax.1.isComparable then
      let elseStats : MinMaxStats (PhysicalType thenRes.minMax.1) := h ▸ elseRes.minMax.2
      .ok { minMax := ⟨thenRes.minMax.1, ⟨min thenRes.minMax.2.min elseStats.min, max thenRes.minMax.2.max elseStats.max⟩⟩ }
    else .error "comparison is not supported for type"
  else .error "expected same value types for then_node and else_node"

section
variable (getter : StatsGetter) (shift : Option (SignedInt 64))

mutual

/-- `StatsFilterVisitor::Visit`. -/
def visitStats : Node → Except String GenericStats
  | .function signature arguments => do
    let evaluatedArguments ← visitStatsAll arguments
    registryEvaluate shift signature.functionId evaluatedArguments
  | .const ⟨_, none⟩ => .error "ConstNode with null is not supported"
  | .const ⟨type, some value⟩ => .ok {
      minMax := ⟨type, ⟨value, value⟩⟩
      count := { containsNull := false, containsNonNull := true } }
  | .variable valueType columnName =>
    match getter columnName valueType with
    | some stats => .ok stats
    | none => .error ("No stats for " ++ text columnName ++ " found")
  | .scalarOverArray signature useOr scalar array => do
    let lhs ← visitStats scalar
    evaluateArray shift signature.functionId useOr lhs array.1 (BoolStatsAggregator.init useOr) array.2
  | .ifNode condition thenNode elseNode => do
    let evaluatedCond ← visitStats condition
    let stats ← evaluatedCond.getBool
    if stats.min then visitStats thenNode
    else if !stats.max then visitStats elseNode
    else do
      let thenRes ← visitStats thenNode
      let elseRes ← visitStats elseNode
      mergeBranches thenRes elseRes
  | .logical .not [argument] => do
    let evaluatedArg ← visitStats argument
    let stats ← evaluatedArg.getBool
    .ok { evaluatedArg with minMax := stats.not.toGeneric }
  | .logical .not _ => .error "unexpected argument number for kNot function"
  | .logical .or arguments => visitStatsLogical true (BoolStatsAggregator.init true) arguments
  | .logical .and arguments => visitStatsLogical false (BoolStatsAggregator.init false) arguments

/-- The arguments of a function, up to the first failure. -/
def visitStatsAll : List Node → Except String (List GenericStats)
  | [] => .ok []
  | argument :: arguments => do
    let stats ← visitStats argument
    let rest ← visitStatsAll arguments
    .ok (stats :: rest)

/-- The loop over the arguments of `kAnd` and `kOr`: a failed argument counts as unknown. -/
def visitStatsLogical (useOr : Bool) (current : BoolStats) : List Node → Except String GenericStats
  | [] => .ok (BoolStatsAggregator.result current)
  | argument :: arguments =>
    match visitStats argument with
    | .error _ => visitStatsLogical useOr (BoolStatsAggregator.add useOr current boolStatsUnknown) arguments
    | .ok evaluatedArg => do
      let stats ← evaluatedArg.getBool
      let current := BoolStatsAggregator.add useOr current stats
      if BoolStatsAggregator.isFinal useOr current then .ok (BoolStatsAggregator.result current)
      else visitStatsLogical useOr current arguments

end

inductive MatchedRows
  | none
  | some
  | all
deriving DecidableEq, Repr

/-- `StatsFilter::ApplyFilter`. -/
def StatsFilter.applyFilter (root : Option Node) : MatchedRows :=
  match root with
  | .none => .some
  | .some root =>
    match visitStats getter shift root with
    | .error _ => .some
    | .ok result =>
      match result.getBool with
      | .error _ => .some
      | .ok stats =>
        if stats = boolStatsFalse then .none
        else if stats = boolStatsTrue then .all
        else .some

end

end IcebergCxx

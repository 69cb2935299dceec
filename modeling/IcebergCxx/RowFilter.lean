import IcebergCxx.FilterSemantics

/-!
# The row filter

`RowFilter` translates an expression into a Gandiva expression and selects the rows on which
that one is true. `gandivaEval` gives the meaning of the Gandiva nodes: its integer operations
are exact, the functions that this repository registers are modelled, and every other function
is a parameter.
-/

namespace IcebergCxx

open Lib

inductive ArrowType
  | boolean | int16 | int32 | int64 | float32 | float64 | utf8 | date32 | timestamp | timestamptz | time64
  | decimal (precision scale : Int)
  | other (name : Bytes)
deriving DecidableEq, Repr

/-- The values of an Arrow type. Floating point values are not modelled. -/
def ArrowType.valueType : ArrowType → Option ValueType
  | .boolean => some .bool
  | .int16 => some .int2
  | .int32 => some .int4
  | .int64 => some .int8
  | .utf8 => some .string
  | .date32 => some .date
  | .timestamp => some .timestamp
  | .timestamptz => some .timestamptz
  | .time64 => some .time
  | .decimal _ _ => some .numeric
  | .float32 | .float64 | .other _ => none

/-- The set of an `InExpressionNode`. -/
inductive InValues
  | int32 (values : List Int)
  | int64 (values : List Int)
  | string (values : List Bytes)
deriving DecidableEq, Repr

/-- The type of a literal. -/
def literalType : ValueType → ArrowType
  | .bool => .boolean
  | .int2 => .int16
  | .int4 => .int32
  | .int8 => .int64
  | .string => .utf8
  | .date => .date32
  | .timestamp => .timestamp
  | .timestamptz => .timestamptz
  | .time => .time64
  | .numeric => .decimal 1 0
  | .interval => .int64

/-- `gandiva::Node`. -/
inductive GandivaNode
  | field (name : Bytes) (type : ArrowType)
  | literal (value : Scalar)
  | decimalLiteral (digits : Bytes) (precision scale : Int)
  | null (type : ArrowType)
  | function (name : String) (arguments : List GandivaNode) (type : ArrowType)
  | ifNode (condition thenNode elseNode : GandivaNode) (type : ArrowType)
  | boolean (useOr : Bool) (arguments : List GandivaNode)
  | inExpression (node : GandivaNode) (values : InValues)

namespace GandivaNode

def returnType : GandivaNode → ArrowType
  | field _ type => type
  | literal value => literalType value.1
  | decimalLiteral _ precision scale => .decimal precision scale
  | null type => type
  | function _ _ type => type
  | ifNode _ _ _ type => type
  | boolean _ _ => .boolean
  | inExpression _ _ => .boolean

end GandivaNode

open GandivaNode

/-! ### The registry -/

section
variable (shift : SignedInt 64)

def promoteToInt4 (gnode : GandivaNode) : GandivaNode := function "castINT" [gnode] .int32

def promoteToInt8 (gnode : GandivaNode) : GandivaNode := function "castBIGINT" [gnode] .int64

def promoteToFloat8 (gnode : GandivaNode) : GandivaNode := function "castFLOAT8" [gnode] .float64

def promoteToTimestamp (gnode : GandivaNode) : GandivaNode :=
  function "castTIMESTAMP" [gnode, literal ⟨.int8, toInt64 (-shift.val)⟩] .timestamp

def promoteToTimestamptz (gnode : GandivaNode) : GandivaNode :=
  function "castTIMESTAMPTZ" [gnode, literal ⟨.int8, shift⟩] .timestamptz

/-- `PromoteLtoR`: the new left argument. -/
def promoteLtoR (a b : GandivaNode) : GandivaNode :=
  let a := if a.returnType = .int16 ∧ b.returnType = .int32 then promoteToInt4 a else a
  let a := if (a.returnType = .int32 ∨ a.returnType = .int16) ∧ b.returnType = .int64 then promoteToInt8 a else a
  let a := if a.returnType = .float32 ∧ b.returnType = .float64 then promoteToFloat8 a else a
  if a.returnType = .timestamptz ∧ (b.returnType = .timestamp ∨ b.returnType = .date32) then promoteToTimestamp shift a
  else a

def promote (l r : GandivaNode) : GandivaNode × GandivaNode :=
  let l := promoteLtoR shift l r
  let r := promoteLtoR shift r l
  (l, r)

def FunctionID.isArithmetic : FunctionID → Bool
  | .addWithChecks | .addWithoutChecks | .subtractWithoutChecks | .subtractWithChecks | .multiplyWithoutChecks
  | .multiplyWithChecks | .divideWithoutChecks | .divideWithChecks | .moduloWithChecks => true
  | _ => false

/-- The functions that become one Gandiva function of the same arguments, with its return type;
`none` stands for the type of the first argument. -/
def gandivaFunction : FunctionID → Option (String × Option ArrowType)
  | .lessThan => some ("less_than", some .boolean)
  | .lessThanOrEqualTo => some ("less_than_or_equal_to", some .boolean)
  | .greaterThan => some ("greater_than", some .boolean)
  | .greaterThanOrEqualTo => some ("greater_than_or_equal_to", some .boolean)
  | .equal => some ("equal", some .boolean)
  | .notEqual => some ("not_equal", some .boolean)
  | .addWithChecks => some ("AddOverflow", none)
  | .subtractWithChecks => some ("SubOverflow", none)
  | .multiplyWithChecks => some ("MulOverflow", none)
  | .divideWithChecks => some ("DivSafe", none)
  | .moduloWithChecks => some ("ModSafe", none)
  | .addWithoutChecks => some ("add", none)
  | .subtractWithoutChecks => some ("subtract", none)
  | .multiplyWithoutChecks => some ("multiply", none)
  | .divideWithoutChecks => some ("divide", none)
  | .bitwiseAnd => some ("bitwise_and", none)
  | .bitwiseOr => some ("bitwise_or", none)
  | .bitwiseNot => some ("bitwise_not", none)
  | .xor => some ("xor", none)
  | .absolute => some ("abs", none)
  | .negative => some ("negative", none)
  | .sign => some ("sign", none)
  | .ceil => some ("ceil", none)
  | .floor => some ("floor", none)
  | .round => some ("BankersRound", none)
  | .sqrt => some ("sqrt", none)
  | .cbrt => some ("cbrt", none)
  | .exp => some ("exp", none)
  | .log10 => some ("log10", none)
  | .sin => some ("sin", none)
  | .cos => some ("cos", none)
  | .tan => some ("tan", none)
  | .cot => some ("cot", none)
  | .atan => some ("atan", none)
  | .atan2 => some ("atan2", none)
  | .asin => some ("asin", none)
  | .acos => some ("acos", none)
  | .sinh => some ("sinh", none)
  | .cosh => some ("cosh", none)
  | .tanh => some ("tanh", none)
  | .charLength => some ("char_length", some .int32)
  | .lower => some ("lower", none)
  | .upper => some ("upper", none)
  | .lTrim => some ("ltrim", none)
  | .rTrim => some ("rtrim", none)
  | .bTrim => some ("btrim", none)
  | .concatenate => some ("concatOperator", none)
  | .castInt8 => some ("castBIGINT", some .int64)
  | .castInt4 => some ("castINT", some .int32)
  | .castFloat8 => some ("castFLOAT8", some .float64)
  | .dateDiff => some ("DateDiff", some .int32)
  | _ => none

/-- The string of a literal node, for `LikePatternValidator` and `TimeUnitExtractor`. -/
def literalString (visitor : String) : GandivaNode → Except String Bytes
  | null _ => .error (visitor ++ ": null is not expected")
  | literal ⟨.string, value⟩ => .ok value
  | literal _ => .error (visitor ++ ": string expected")
  | decimalLiteral _ _ _ => .error (visitor ++ ": string expected")
  | _ => .error "NotImplemented"

/-- `LikePatternValidator`: 92 is the backslash. -/
def validateLikePattern (pattern : GandivaNode) : Except String Unit := do
  let pattern ← literalString "LikePatternValidator" pattern
  if 92 ∈ pattern then .error "LikePatternValidator: escape characters are not supported" else .ok ()

/-- `std::tolower` on the letters. -/
def lowerLetter (c : Byte) : Byte := if 65 ≤ c.val ∧ c.val ≤ 90 then c + 32 else c

def upperLetter (c : Byte) : Byte := if 97 ≤ c.val ∧ c.val ≤ 122 then c - 32 else c

def extractUnits : List Bytes :=
  ["millennium", "century", "decade", "year", "quarter", "month", "week", "day", "hour", "minute", "second",
    "milliseconds", "microseconds"].map bytes

def dateTruncUnits : List Bytes :=
  ["millennium", "century", "decade", "year", "quarter", "month", "week", "day", "hour", "minute", "second",
    "milliseconds"].map bytes

/-- The function of a time unit: `Extract` and `DateTrunc` have one for each supported unit. -/
def timeUnitFunction (name family : String) (units : List Bytes) (node : GandivaNode) : Except String String := do
  let unit ← literalString "TimeUnitExtractor" node
  let unit := unit.map lowerLetter
  if unit ∈ units then .ok (family ++ text ((unit.take 1).map upperLetter ++ unit.drop 1))
  else .error (name ++ " for " ++ text unit ++ " is not supported")

def isTimestamptz (gnode : GandivaNode) : Bool := decide (gnode.returnType = .timestamptz)

/-- `GandivaFunctionRegistry::CreateFunction`, behind the promotion of the arguments. -/
def createPromoted (functionId : FunctionID) (arguments : List GandivaNode) : Except String GandivaNode :=
  match gandivaFunction functionId with
  | some (name, some type) => .ok (function name arguments type)
  | some (name, none) =>
    match arguments with
    | [] => .error "no arguments"
    | first :: _ => .ok (function name arguments first.returnType)
  | none =>
    match functionId, arguments with
    | .like, value :: pattern :: rest => do
      validateLikePattern pattern
      .ok (function "like" (value :: pattern :: rest ++ [literal ⟨.string, bytes "\\"⟩]) .boolean)
    | .notLike, value :: pattern :: rest => do
      validateLikePattern pattern
      .ok (function "not" [function "like" (value :: pattern :: rest ++ [literal ⟨.string, bytes "\\"⟩]) .boolean]
        .boolean)
    | .iLike, value :: pattern :: rest => do
      validateLikePattern pattern
      .ok (function "ilike" (value :: pattern :: rest) .boolean)
    | .notILike, value :: pattern :: rest => do
      validateLikePattern pattern
      .ok (function "not" [function "ilike" (value :: pattern :: rest) .boolean] .boolean)
    | .substring, value :: positions =>
      .ok (function "substring" (value :: positions.map promoteToInt8) value.returnType)
    | .locate, first :: second :: rest => .ok (function "locate" (second :: first :: rest) .int32)
    | .isNull, argument :: rest =>
      let argument := if isTimestamptz argument then promoteToTimestamp shift argument else argument
      .ok (function "isnull" (argument :: rest) .boolean)
    | .extractTimestamp, unit :: argument :: _ => do
      let name ← timeUnitFunction "ExtractTimestamp" "Extract" extractUnits unit
      .ok (function name [argument] .float64)
    | .dateTrunc, unit :: argument :: _ => do
      let name ← timeUnitFunction "DateTrunc" "DateTrunc" dateTruncUnits unit
      .ok (function name [argument] argument.returnType)
    | .castTimestamp, argument :: _ => .ok (promoteToTimestamp shift argument)
    | .castTimestamptz, argument :: _ => .ok (promoteToTimestamptz shift argument)
    | .castDate, argument :: rest =>
      let argument := if isTimestamptz argument then promoteToTimestamp shift argument else argument
      .ok (function "castDATE" (argument :: rest) .date32)
    | _, _ => .error "GandivaFunctionRegistry::CreateFunction"

/-- `GandivaFunctionRegistry::CreateFunction`. -/
def createFunction (functionId : FunctionID) (arguments : List GandivaNode) : Except String GandivaNode :=
  match arguments with
  | [l, r] =>
    if functionId.isComparison || functionId.isArithmetic then
      createPromoted shift functionId [(promote shift l r).1, (promote shift l r).2]
    else createPromoted shift functionId [l, r]
  | _ => createPromoted shift functionId arguments

end

/-! ### The visitor -/

/-- `TreeRewriter::ScalarOverArrayToLogical`. -/
def scalarOverArrayToLogical (signature : FunctionSignature) (useOr : Bool) (scalar : Node) (array : ArrayHolder) : Node :=
  .logical (if useOr then .or else .and)
    (array.2.map (fun elem => .function signature [scalar, .const ⟨array.1, elem⟩]))

/-- `ProcessNull`. -/
def processNull : ValueType → Except String GandivaNode
  | .bool => .ok (null .boolean)
  | .int2 => .ok (null .int16)
  | .int4 => .ok (null .int32)
  | .int8 => .ok (null .int64)
  | .date => .ok (null .date32)
  | .timestamp => .ok (null .timestamp)
  | .timestamptz => .ok (null .timestamptz)
  | .numeric => .ok (null (.decimal 1 0))
  | .time => .ok (null .time64)
  | .string => .ok (null .utf8)
  | .interval => .error "Internal error in iceberg. Null-interval is not expected"

/-- `IArrowFieldResolver::CreateField`: the name and the type of the field of a column. -/
abbrev ArrowFieldResolver := Bytes → Option (Bytes × ArrowType)

/-- `ValuesToUnorderedSet`, for integers. -/
def integersOf {bits : Nat} (values : List (Option (SignedInt bits))) : Except String (List Int) :=
  values.mapM (fun value =>
    match value with
    | none => .error "Null not supported"
    | some x => .ok x.val)

/-- `ValuesToUnorderedSet`, for strings. -/
def stringsOf (values : List (Option Bytes)) : Except String (List Bytes) :=
  values.mapM (fun value =>
    match value with
    | none => .error "Null not supported"
    | some x => .ok x)

/-- `try_to_build_in`. -/
def tryToBuildIn (evaluatedScalar : GandivaNode) : ArrayHolder → Except String GandivaNode
  | ⟨.int2, values⟩ | ⟨.int4, values⟩ => do
    let evaluatedScalar :=
      if evaluatedScalar.returnType = .int16 then promoteToInt4 evaluatedScalar else evaluatedScalar
    if evaluatedScalar.returnType = .int32 then do
      let values ← integersOf values
      .ok (inExpression evaluatedScalar (.int32 values))
    else if evaluatedScalar.returnType = .int64 then do
      let values ← integersOf values
      .ok (inExpression evaluatedScalar (.int64 values))
    else .error "IN for type is not supported"
  | ⟨.int8, values⟩ => do
    let evaluatedScalar :=
      if evaluatedScalar.returnType = .int32 ∨ evaluatedScalar.returnType = .int16 then promoteToInt8 evaluatedScalar
      else evaluatedScalar
    if evaluatedScalar.returnType = .int64 then do
      let values ← integersOf values
      .ok (inExpression evaluatedScalar (.int64 values))
    else .error "IN for type is not supported"
  | ⟨.string, values⟩ => do
    if evaluatedScalar.returnType = .utf8 then do
      let values ← stringsOf values
      .ok (inExpression evaluatedScalar (.string values))
    else .error "IN for type is not supported"
  | _ => .error "IN for type is not supported"

/-- The node of an `IN`: in Gandiva a null is in no set. -/
def wrapIn (functionId : FunctionID) (evaluatedScalar inNode : GandivaNode) : GandivaNode :=
  let inNode := ifNode (function "isnull" [evaluatedScalar] .boolean) (null .boolean) inNode .boolean
  if functionId = .notEqual then function "not" [inNode] .boolean else inNode

section
variable (parseDecimal : Bytes → Option (Int × Int)) (resolver : ArrowFieldResolver) (shift : SignedInt 64)

/-- `TypedVisit(ConstNode)`. `parseDecimal` is `arrow::Decimal128::FromString`: the precision and
the scale of a decimal. -/
def visitConst : Value → Except String GandivaNode
  | ⟨type, none⟩ => processNull type
  | ⟨.bool, some x⟩ => .ok (literal ⟨.bool, x⟩)
  | ⟨.int2, some x⟩ => .ok (literal ⟨.int2, x⟩)
  | ⟨.int4, some x⟩ => .ok (literal ⟨.int4, x⟩)
  | ⟨.int8, some x⟩ => .ok (literal ⟨.int8, x⟩)
  | ⟨.string, some x⟩ => .ok (literal ⟨.string, x⟩)
  | ⟨.date, some x⟩ => .ok (function "castDate" [literal ⟨.int4, x⟩] .date32)
  | ⟨.timestamp, some x⟩ => .ok (function "castTIMESTAMP" [literal ⟨.int8, x⟩] .timestamp)
  | ⟨.timestamptz, some x⟩ => .ok (function "castTIMESTAMPTZ" [literal ⟨.int8, x⟩] .timestamptz)
  | ⟨.numeric, some x⟩ =>
    match parseDecimal x with
    | none => .error "Invalid decimal"
    | some (precision, scale) => .ok (decimalLiteral x (if precision = 0 then 1 else precision) scale)
  | ⟨.interval, some x⟩ =>
    if (ofLex x).1.val ≠ 0 then .error "Interval with months is not supported"
    else .ok (literal ⟨.int8, (ofLex x).2⟩)
  | ⟨.time, some _⟩ => .error "RowFilter (ConstNode): value type is not supported"

mutual

/-- `RowFilterVisitor::Visit`. -/
def visitRow : Node → Except String GandivaNode
  | .function signature arguments => do
    let evaluatedArguments ← visitRowAll arguments
    createFunction shift signature.functionId evaluatedArguments
  | .const value => visitConst parseDecimal value
  | .variable valueType columnName =>
    match resolver columnName with
    | some (name, type) => .ok (field name type)
    | none => processNull valueType
  | .scalarOverArray signature useOr scalar array => do
    let useIn := signature.functionId = .equal ∧ useOr = true ∨ signature.functionId = .notEqual ∧ useOr = false
    let inNode ← (if useIn then do
        let evaluatedScalar ← visitRow scalar
        match tryToBuildIn evaluatedScalar array with
        | .ok inNode => .ok (some (wrapIn signature.functionId evaluatedScalar inNode))
        | .error _ => .ok none
      else .ok none)
    match inNode with
    | some inNode => .ok inNode
    | none => do
      -- the visit of `scalarOverArrayToLogical`
      let functionNodes ← array.2.mapM (fun elem => do
        let evaluatedScalar ← visitRow scalar
        let constNode ← visitConst parseDecimal ⟨array.1, elem⟩
        createFunction shift signature.functionId [evaluatedScalar, constNode])
      .ok (boolean useOr functionNodes)
  | .ifNode condition thenNode elseNode => do
    let conditionNode ← visitRow condition
    let thenNode ← visitRow thenNode
    let elseNode ← visitRow elseNode
    if thenNode.returnType ≠ elseNode.returnType then
      .error "RowFilter (IfNode): ThenNode type and ElseNode type are different"
    else .ok (ifNode conditionNode thenNode elseNode thenNode.returnType)
  | .logical .not [argument] => do
    let argument ← visitRow argument
    .ok (function "not" [argument] .boolean)
  | .logical .not _ => .error "RowFilter (LogicalNode): not operation expects only 1 argument"
  | .logical .or arguments => do
    let arguments ← visitRowAll arguments
    .ok (boolean true arguments)
  | .logical .and arguments => do
    let arguments ← visitRowAll arguments
    .ok (boolean false arguments)

def visitRowAll : List Node → Except String (List GandivaNode)
  | [] => .ok []
  | argument :: arguments => do
    let node ← visitRow argument
    let rest ← visitRowAll arguments
    .ok (node :: rest)

end

end

/-! ### Evaluation -/

/-- An exact result, when it is a 64-bit integer. -/
def exactInt64 (type : SignedInt 64 → Scalar) (x : Int) : Outcome :=
  if InInt64 x then .value (type (toInt64 x)) else .error

/-- The registered comparisons of dates and timestamps, and those of two values of one type. -/
def nativeCompare (functionId : FunctionID) : Scalar → Scalar → Option Outcome
  | ⟨.date, date⟩, ⟨.timestamp, timestamp⟩ =>
    some (if InInt64 (Subtype.val date * microsInDay) then
      .truth (comparator functionId (toInt64 (Subtype.val date * microsInDay)) timestamp)
    else .error)
  | ⟨.timestamp, timestamp⟩, ⟨.date, date⟩ =>
    some (if InInt64 (Subtype.val date * microsInDay) then
      .truth (comparator functionId timestamp (toInt64 (Subtype.val date * microsInDay)))
    else .error)
  | x, y => compareSame functionId x y

/-- A comparison gives null for a null (`kResultNullIfNull`). -/
def nativeComparison (functionId : FunctionID) : List Outcome → Option Outcome
  | [.null, _] => some .null
  | [_, .null] => some .null
  | [.value x, .value y] => nativeCompare functionId x y
  | _ => none

/-- `CastTimestamp` and `CastTimestampFromTimestamptz`. -/
def nativeCastTimestamp : List Outcome → Option Outcome
  | [.null] | [.null, _] | [_, .null] => some .null
  | [.value ⟨.int8, value⟩] => some (.value ⟨.timestamp, value⟩)
  | [.value ⟨.timestamptz, timestamp⟩, .value ⟨.int8, shift⟩] =>
    some (exactInt64 (fun x => ⟨.timestamp, x⟩) (Subtype.val timestamp + Subtype.val shift))
  | _ => none

/-- `CastTimestamp` and `CastTimestamptzFromTimestamp`. -/
def nativeCastTimestamptz : List Outcome → Option Outcome
  | [.null] | [.null, _] | [_, .null] => some .null
  | [.value ⟨.int8, value⟩] => some (.value ⟨.timestamptz, value⟩)
  | [.value ⟨.timestamp, timestamp⟩, .value ⟨.int8, shift⟩] =>
    some (exactInt64 (fun x => ⟨.timestamptz, x⟩) (Subtype.val timestamp + Subtype.val shift))
  | _ => none

/-- The date of a number of days, and `CastDateFromTimestamp`. -/
def nativeCastDate : List Outcome → Option Outcome
  | [.null] => some .null
  | [.value ⟨.int4, days⟩] => some (.value ⟨.date, days⟩)
  | [.value ⟨.timestamp, timestamp⟩] => some (.value ⟨.date, toInt32 (Int.tdiv (Subtype.val timestamp) microsInDay)⟩)
  | _ => none

/-- A function of one argument. -/
def nativeUnary (f : Outcome → Option Outcome) : List Outcome → Option Outcome
  | [a] => f a
  | _ => none

/-- The functions with a known meaning. -/
def nativeFunction : String → Option (List Outcome → Option Outcome)
  | "less_than" => some (nativeComparison .lessThan)
  | "less_than_or_equal_to" => some (nativeComparison .lessThanOrEqualTo)
  | "greater_than" => some (nativeComparison .greaterThan)
  | "greater_than_or_equal_to" => some (nativeComparison .greaterThanOrEqualTo)
  | "equal" => some (nativeComparison .equal)
  | "not_equal" => some (nativeComparison .notEqual)
  | "castINT" => some (nativeUnary (castOutcome .castInt4))
  | "castBIGINT" => some (nativeUnary (castOutcome .castInt8))
  | "castTIMESTAMP" => some nativeCastTimestamp
  | "castTIMESTAMPTZ" => some nativeCastTimestamptz
  | "castDate" | "castDATE" => some nativeCastDate
  | "isnull" => some (nativeUnary (fun a => some (isNullOutcome a)))
  | "not" => some (nativeUnary (fun a => some (.ofTruth a.toTruth.not)))
  | _ => none

/-- An expression has values of its type only: Gandiva refuses other combinations. -/
def checked (type : ArrowType) : Outcome → Outcome
  | .value v => if type.valueType = some v.1 then .value v else .error
  | other => other

/-- Membership of a value that is not null. -/
def inValues : Scalar → InValues → Outcome
  | ⟨.int4, x⟩, .int32 values => .truth (decide (Subtype.val x ∈ values))
  | ⟨.int8, x⟩, .int64 values => .truth (decide (Subtype.val x ∈ values))
  | ⟨.string, x⟩, .string values => .truth (decide ((show Bytes from x) ∈ values))
  | _, _ => .error

def inOutcome (values : InValues) : Outcome → Outcome
  | .error => .error
  | .null => .truth false
  | .value x => inValues x values

section
variable (lib : String → List Outcome → Outcome) (cells : Bytes → Option Scalar)

/-- A Gandiva function: `lib` stands for those without a known meaning. A failed argument fails it. -/
def evalGandivaFunction (name : String) (arguments : List Outcome) : Outcome :=
  if arguments.any Outcome.isError then .error
  else ((nativeFunction name).bind (fun f => f arguments)).getD (lib name arguments)

mutual

/-- The value of a Gandiva expression on a row of a batch. -/
def gandivaEval : GandivaNode → Outcome
  | field name type => checked type (.ofOption (cells name))
  | literal value => checked (literalType value.1) (.value value)
  | decimalLiteral digits _ _ => .value ⟨.numeric, digits⟩
  | null _ => .null
  | function name arguments type => checked type (evalGandivaFunction lib name (gandivaEvalAll arguments))
  | ifNode c t e type => checked type (ifOutcome (gandivaEval c) (gandivaEval t) (gandivaEval e))
  | boolean useOr arguments => .ofTruth (joinTruths useOr ((gandivaEvalAll arguments).map Outcome.toTruth))
  | inExpression node values => inOutcome values (gandivaEval node)

def gandivaEvalAll : List GandivaNode → List Outcome
  | [] => []
  | a :: arguments => gandivaEval a :: gandivaEvalAll arguments

end

/-- The result of the row filter on a row: an error when no filter is built. -/
def rowFilterOutcome (parseDecimal : Bytes → Option (Int × Int)) (resolver : ArrowFieldResolver) (shift : SignedInt 64)
    (root : Node) : Outcome :=
  match visitRow parseDecimal resolver shift root with
  | .ok gnode => gandivaEval lib cells gnode
  | .error _ => .error

end

/-- The value of a column of the expression on a row of a batch: a column that the file does not
have is null. -/
def resolvedRow (resolver : ArrowFieldResolver) (cells : Bytes → Option Scalar) (name : Bytes) : Option Scalar :=
  (resolver name).bind (fun f => cells f.1)

end IcebergCxx

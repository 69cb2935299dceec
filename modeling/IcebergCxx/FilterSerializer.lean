import IcebergCxx.FilterNode
import IcebergCxx.JsonSerde

/-!
# The JSON form of filters

`filter/representation/serializer.cpp`: filter trees are shipped between processes as JSON texts.
The trees here have all thirteen value types; constants of the two floating types other than null
are left out. The checks that the node constructors make are `Node.Valid`.
-/

namespace IcebergCxx.FilterJson

open Lib

inductive ValueType
  | bool | int2 | int4 | int8 | float4 | float8 | numeric | string | date | timestamp | timestamptz | time
  | interval
  deriving DecidableEq

/-- `PhysicalType`: a numeric is the text of its digits, an interval its months and micros. No
floating value is modelled. -/
def PhysicalType : ValueType → Type
  | .bool => Bool
  | .int2 => Int16
  | .int4 | .date => Int32
  | .int8 | .timestamp | .timestamptz | .time => Int64
  | .float4 | .float8 => Empty
  | .numeric | .string => Bytes
  | .interval => Int64 × Int64

abbrev Value := Σ type : ValueType, Option (PhysicalType type)

abbrev ArrayHolder := Σ type : ValueType, List (Option (PhysicalType type))

structure FunctionSignature where
  functionId : FunctionID
  returnType : ValueType
  argumentTypes : List ValueType
  deriving DecidableEq

inductive NodeType
  | variable | const | function | scalarOverArrayFunction | ifNode | logical
  deriving DecidableEq

inductive Node
  | variable (valueType : ValueType) (columnName : Bytes)
  | const (value : Value)
  | function (signature : FunctionSignature) (arguments : List Node)
  | scalarOverArray (signature : FunctionSignature) (useOr : Bool) (scalar : Node) (array : ArrayHolder)
  | ifNode (condition thenNode elseNode : Node)
  | logical (operation : LogicalOperation) (arguments : List Node)

mutual

/-- What the constructors of the nodes ensure. -/
def Node.Valid : Node → Prop
  | .variable _ _ => True
  | .const _ => True
  | .function signature arguments => signature.argumentTypes.length = arguments.length ∧ Node.AllValid arguments
  | .scalarOverArray signature _ scalar array =>
    0 < array.2.length ∧ signature.argumentTypes.length = 2 ∧ scalar.Valid
  | .ifNode condition thenNode elseNode => condition.Valid ∧ thenNode.Valid ∧ elseNode.Valid
  | .logical operation arguments => (operation = .not → arguments.length = 1) ∧ Node.AllValid arguments

def Node.AllValid : List Node → Prop
  | [] => True
  | node :: nodes => node.Valid ∧ Node.AllValid nodes

end

/-- A tree built by the constructors. -/
abbrev FilterTree := {node : Node // node.Valid}

/-! ### Names of enumerators -/

/-- `IsBijection`: two entries agree in both columns or in none. -/
def isBijection {α : Type} [DecidableEq α] (map : List (α × Bytes)) : Bool :=
  map.all (fun lhs => map.all (fun rhs => decide (lhs.1 = rhs.1) == decide (lhs.2 = rhs.2)))

/-- The table has an entry for every enumerator, so the `throw` at its end is not reached. -/
def elementToStringView {α : Type} [DecidableEq α] (map : List (α × Bytes)) (elem : α) : Bytes :=
  match map.find? (fun entry => entry.1 = elem) with
  | some entry => entry.2
  | none => []

def stringViewToElement {α : Type} (map : List (α × Bytes)) (elem : Bytes) : Except String α :=
  match map.find? (fun entry => entry.2 = elem) with
  | some entry => .ok entry.1
  | none => .error ("StringViewToElement: unexpected string_view " ++ text elem)

def nodeTypeString : List (NodeType × Bytes) :=
  [(.variable, bytes "var"),
   (.const, bytes "const"),
   (.function, bytes "func"),
   (.ifNode, bytes "if"),
   (.scalarOverArrayFunction, bytes "funcarr"),
   (.logical, bytes "logical")]

def functionIdString : List (FunctionID × Bytes) :=
  [(.lessThan, bytes "kLessThan"),
   (.greaterThan, bytes "kGreaterThan"),
   (.lessThanOrEqualTo, bytes "kLessThanOrEqualTo"),
   (.greaterThanOrEqualTo, bytes "kGreaterThanOrEqualTo"),
   (.equal, bytes "kEqual"),
   (.notEqual, bytes "kNotEqual"),
   (.addWithChecks, bytes "kAddWithChecks"),
   (.subtractWithChecks, bytes "kSubtractWithChecks"),
   (.multiplyWithChecks, bytes "kMultiplyWithChecks"),
   (.divideWithChecks, bytes "kDivideWithChecks"),
   (.moduloWithChecks, bytes "kModuloWithChecks"),
   (.addWithoutChecks, bytes "kAddWithoutChecks"),
   (.subtractWithoutChecks, bytes "kSubtractWithoutChecks"),
   (.multiplyWithoutChecks, bytes "kMultiplyWithoutChecks"),
   (.divideWithoutChecks, bytes "kDivideWithoutChecks"),
   (.bitwiseAnd, bytes "kBitwiseAnd"),
   (.bitwiseOr, bytes "kBitwiseOr"),
   (.xor, bytes "kXor"),
   (.bitwiseNot, bytes "kBitwiseNot"),
   (.absolute, bytes "kAbsolute"),
   (.negative, bytes "kNegative"),
   (.like, bytes "kLike"),
   (.iLike, bytes "kILike"),
   (.notLike, bytes "kNotLike"),
   (.notILike, bytes "kNotILike"),
   (.sign, bytes "kSign"),
   (.ceil, bytes "kCeil"),
   (.floor, bytes "kFloor"),
   (.round, bytes "kRound"),
   (.sqrt, bytes "kSqrt"),
   (.cbrt, bytes "kCbrt"),
   (.exp, bytes "kExp"),
   (.log10, bytes "kLog10"),
   (.sin, bytes "kSin"),
   (.cos, bytes "kCos"),
   (.tan, bytes "kTan"),
   (.cot, bytes "kCot"),
   (.atan, bytes "kAtan"),
   (.atan2, bytes "kAtan2"),
   (.sinh, bytes "kSinh"),
   (.cosh, bytes "kCosh"),
   (.tanh, bytes "kTanh"),
   (.asin, bytes "kAsin"),
   (.acos, bytes "kAcos"),
   (.charLength, bytes "kCharLength"),
   (.lower, bytes "kLower"),
   (.upper, bytes "kUpper"),
   (.lTrim, bytes "kLTrim"),
   (.rTrim, bytes "kRTrim"),
   (.bTrim, bytes "kBTrim"),
   (.substring, bytes "kSubstring"),
   (.locate, bytes "kLocate"),
   (.isNull, bytes "kIsNull"),
   (.concatenate, bytes "kConcatenate"),
   (.extractTimestamp, bytes "kExtractTimestamp"),
   (.castTimestamp, bytes "kCastTimestamp"),
   (.castTimestamptz, bytes "kCastTimestamptz"),
   (.dateDiff, bytes "kDateDiff"),
   (.dateTrunc, bytes "kDateTrunc"),
   (.castFloat8, bytes "kCastFloat8"),
   (.castInt8, bytes "kCastInt8"),
   (.castInt4, bytes "kCastInt4"),
   (.castDate, bytes "kCastDate")]

def valueTypeString : List (ValueType × Bytes) :=
  [(.bool, bytes "bool"),
   (.int2, bytes "int2"),
   (.int4, bytes "int4"),
   (.int8, bytes "int8"),
   (.float4, bytes "float4"),
   (.float8, bytes "float8"),
   (.numeric, bytes "numeric"),
   (.string, bytes "string"),
   (.date, bytes "date"),
   (.timestamp, bytes "timestamp"),
   (.timestamptz, bytes "timestamptz"),
   (.time, bytes "time"),
   (.interval, bytes "interval")]

def logicalOpString : List (LogicalOperation × Bytes) :=
  [(.and, bytes "kAnd"),
   (.or, bytes "kOr"),
   (.not, bytes "kNot")]

namespace Field

def kNodeType : Bytes := bytes "node-type"
def kFunctionSignature : Bytes := bytes "func-sig"
def kArgumentTypes : Bytes := bytes "arg-types"
def kFunctionID : Bytes := bytes "func-id"
def kLogicalOperation : Bytes := bytes "logic-op"
def kArguments : Bytes := bytes "args"
def kColumnName : Bytes := bytes "col-name"
def kValueType : Bytes := bytes "val-type"
def kValue : Bytes := bytes "value"
def kCondition : Bytes := bytes "cond"
def kThen : Bytes := bytes "then"
def kElse : Bytes := bytes "else"
def kUseOr : Bytes := bytes "use-or"
def kLhs : Bytes := bytes "lhs"
def kRhs : Bytes := bytes "rhs"
def kMonths : Bytes := bytes "months"
def kMicros : Bytes := bytes "micros"

end Field

/-! ### Serializing -/

def serializeNodeType (nodeType : NodeType) : Json := serializeString (elementToStringView nodeTypeString nodeType)

def serializeValueType (valueType : ValueType) : Json :=
  serializeString (elementToStringView valueTypeString valueType)

def serializeFunctionID (functionId : FunctionID) : Json :=
  serializeString (elementToStringView functionIdString functionId)

def serializeLogicalOperation (operation : LogicalOperation) : Json :=
  serializeString (elementToStringView logicalOpString operation)

def serializePhysical : (type : ValueType) → PhysicalType type → Json
  | .bool, value => .bool value
  | .int2, value => .int (Int16.toInt value)
  | .int4, value | .date, value => .int (Int32.toInt value)
  | .int8, value | .timestamp, value | .timestamptz, value | .time, value => .int (Int64.toInt value)
  | .numeric, value | .string, value => serializeString value
  | .interval, value =>
    .object
      [(Field.kMonths, .int (Int64.toInt value.1)),
        (Field.kMicros, .int (Int64.toInt value.2))]

def serializeValue (value : Value) : Json :=
  .object
    [(Field.kValueType, serializeValueType value.1),
      (Field.kValue, serializeOptional (serializePhysical value.1) value.2)]

def serializeArray (value : ArrayHolder) : Json :=
  .object
    [(Field.kValueType, serializeValueType value.1),
      (Field.kValue, .array (value.2.map (serializeOptional (serializePhysical value.1))))]

def serializeSignature (signature : FunctionSignature) : Json :=
  .object
    [(Field.kArgumentTypes, .array (signature.argumentTypes.map serializeValueType)),
      (Field.kValueType, serializeValueType signature.returnType),
      (Field.kFunctionID, serializeFunctionID signature.functionId)]

mutual

def serializeNode : Node → Json
  | .variable valueType columnName =>
    .object
      [(Field.kNodeType, serializeNodeType .variable),
        (Field.kValueType, serializeValueType valueType),
        (Field.kColumnName, serializeString columnName)]
  | .const value =>
    .object
      [(Field.kNodeType, serializeNodeType .const),
        (Field.kValue, serializeValue value)]
  | .function signature arguments =>
    .object
      [(Field.kNodeType, serializeNodeType .function),
        (Field.kFunctionSignature, serializeSignature signature),
        (Field.kArguments, .array (serializeNodes arguments))]
  | .scalarOverArray signature useOr scalar array =>
    .object
      [(Field.kNodeType, serializeNodeType .scalarOverArrayFunction),
        (Field.kFunctionSignature, serializeSignature signature),
        (Field.kUseOr, .bool useOr),
        (Field.kLhs, serializeNode scalar),
        (Field.kRhs, serializeArray array)]
  | .ifNode condition thenNode elseNode =>
    .object
      [(Field.kNodeType, serializeNodeType .ifNode),
        (Field.kCondition, serializeNode condition),
        (Field.kThen, serializeNode thenNode),
        (Field.kElse, serializeNode elseNode)]
  | .logical operation arguments =>
    .object
      [(Field.kNodeType, serializeNodeType .logical),
        (Field.kLogicalOperation, serializeLogicalOperation operation),
        (Field.kArguments, .array (serializeNodes arguments))]

def serializeNodes : List Node → List Json
  | [] => []
  | node :: nodes => serializeNode node :: serializeNodes nodes

end

/-! ### Deserializing -/

def deserializeNodeType (document : Json) : Except String NodeType := do
  let string ← deserializeString document
  stringViewToElement nodeTypeString string

def deserializeValueType (document : Json) : Except String ValueType := do
  let string ← deserializeString document
  stringViewToElement valueTypeString string

def deserializeFunctionID (document : Json) : Except String FunctionID := do
  let string ← deserializeString document
  stringViewToElement functionIdString string

def deserializeLogicalOperation (document : Json) : Except String LogicalOperation := do
  let string ← deserializeString document
  stringViewToElement logicalOpString string

/-- An element of `arg-types` is read up to its first zero byte. -/
def deserializeArgumentType : Json → Except String ValueType
  | .string s => stringViewToElement valueTypeString (cString s)
  | _ => .error "Deserialize (ValueType): wrong type"

def deserializeInterval : Json → Except String (Int64 × Int64)
  | .object m => do
    let months ← extract deserializeInt64 m Field.kMonths
    let micros ← extract deserializeInt64 m Field.kMicros
    return (months, micros)
  | _ => .error "Deserialize (IntervalMonthMicro): wrong type"

/-- No document of `Json` holds a floating number. -/
def deserializePhysical : (type : ValueType) → Json → Except String (PhysicalType type)
  | .bool => deserializeBool
  | .int2 => deserializeInt16
  | .int4 | .date => deserializeInt32
  | .int8 | .timestamp | .timestamptz | .time => deserializeInt64
  | .float4 | .float8 => fun _ => .error "Deserialize (primitive): wrong type"
  | .numeric | .string => deserializeString
  | .interval => deserializeInterval

def deserializeValue : Json → Except String Value
  | .object m => do
    let valueType ← extract deserializeValueType m Field.kValueType
    let value ← extract (deserializeOptional (deserializePhysical valueType)) m Field.kValue
    return ⟨valueType, value⟩
  | _ => .error "Deserialize<Value>: wrong type"

def deserializeArray : Json → Except String ArrayHolder
  | .object m => do
    let valueType ← extract deserializeValueType m Field.kValueType
    let value ← extract (deserializeVector (deserializeOptional (deserializePhysical valueType))) m Field.kValue
    return ⟨valueType, value⟩
  | _ => .error "Deserialize<ArrayHolder>: wrong type"

def deserializeSignature : Json → Except String FunctionSignature
  | .object m => do
    let functionId ← extract deserializeFunctionID m Field.kFunctionID
    let returnType ← extract deserializeValueType m Field.kValueType
    let argumentTypes ← extract (deserializeVector deserializeArgumentType) m Field.kArgumentTypes
    return {
      functionId := functionId
      returnType := returnType
      argumentTypes := argumentTypes }
  | _ => .error "Deserialize (FunctionSignature): wrong type"

/-- The constructor of `LogicalNode`. -/
def makeLogical (operation : LogicalOperation) (arguments : List Node) : Except String Node := do
  ensure (!(operation = .not && arguments.length != 1)) "LogicalNode: Operation::kNot expects one argument"
  return .logical operation arguments

/-- The constructor of `FunctionNode`. -/
def makeFunction (signature : FunctionSignature) (arguments : List Node) : Except String Node := do
  ensure (signature.argumentTypes.length = arguments.length) "FunctionNode: argument_types.size() != arguments.size()"
  return .function signature arguments

/-- The constructor of `ScalarOverArrayFunctionNode`. -/
def makeScalarOverArray (signature : FunctionSignature) (useOr : Bool) (scalar : Node) (array : ArrayHolder) :
    Except String Node := do
  ensure (0 < array.2.length) "ScalarOverArrayFunctionNode: array must contain at least one element"
  ensure (signature.argumentTypes.length = 2) "ScalarOverArrayFunctionNode: function signature must have 2 arguments"
  return .scalarOverArray signature useOr scalar array

/-- `Deserialize<NodePtr>`. The fuel bounds the nesting of the document. -/
def deserializeNode : Nat → Json → Except String Node
  | 0, _ => .error "Deserialize<NodePtr>: nesting"
  | fuel + 1, .object m => do
    let nodeType ← extract deserializeNodeType m Field.kNodeType
    match nodeType with
    | .const => do
      let value ← extract deserializeValue m Field.kValue
      return .const value
    | .scalarOverArrayFunction => do
      let signature ← extract deserializeSignature m Field.kFunctionSignature
      let useOr ← extract deserializeBool m Field.kUseOr
      let lhs ← extract (deserializeNode fuel) m Field.kLhs
      let rhs ← extract deserializeArray m Field.kRhs
      makeScalarOverArray signature useOr lhs rhs
    | .variable => do
      let valueType ← extract deserializeValueType m Field.kValueType
      let columnName ← extract deserializeString m Field.kColumnName
      return .variable valueType columnName
    | .ifNode => do
      let condition ← extract (deserializeNode fuel) m Field.kCondition
      let thenNode ← extract (deserializeNode fuel) m Field.kThen
      let elseNode ← extract (deserializeNode fuel) m Field.kElse
      return .ifNode condition thenNode elseNode
    | .function => do
      let signature ← extract deserializeSignature m Field.kFunctionSignature
      let arguments ← extract (deserializeVector (deserializeNode fuel)) m Field.kArguments
      makeFunction signature arguments
    | .logical => do
      let operation ← extract deserializeLogicalOperation m Field.kLogicalOperation
      let arguments ← extract (deserializeVector (deserializeNode fuel)) m Field.kArguments
      makeLogical operation arguments
  | _ + 1, _ => .error "Deserialize<NodePtr>: the document is not an object"

/-- `StringToFilter`: the empty text is the null pointer. -/
def stringToFilter (lib : JsonLibrary) (rowFilter : Bytes) : Except String (Option Node) :=
  if rowFilter.isEmpty then .ok none
  else do
    let document := (lib.parse rowFilter).getD .null
    let node ← deserializeNode document.depth document
    return some node

/-- `FilterToString`. -/
def filterToString (lib : JsonLibrary) : Option Node → Bytes
  | none => []
  | some node => cString (lib.print (serializeNode node))

end IcebergCxx.FilterJson

import IcebergCxx.Failure
import IcebergCxx.FilterSerializer

/-!
# Parsing filters with partial accessors

`StringToFilter` once more, on documents with floating numbers, and with the accessors of rapidjson as
they are: `HasMember` and `operator[]` are defined for objects only. What a document's kind has been
checked for is what the source checks; `Deserialize<NodePtr>` checks nothing.
-/

namespace IcebergCxx

open Lib

namespace FilterJson.Dom

/-- A value of rapidjson, with its doubles. -/
inductive Document (Double : Type) where
  | null
  | bool (b : Bool)
  | int (i : Int)
  | double (d : Double)
  | string (s : Bytes)
  | array (elements : List (Document Double))
  | object (members : List (Bytes × Document Double))

namespace Document

variable {Double : Type}

/-- The value of the first member with a name. -/
def findMember (name : Bytes) : List (Bytes × Document Double) → Option (Document Double)
  | [] => none
  | (k, v) :: l => if k = name then some v else findMember name l

def IsObject : Document Double → Prop
  | object _ => True
  | _ => False

mutual

/-- How deep the values of a document are nested. -/
def depth : Document Double → Nat
  | array l => depthElements l + 1
  | object m => depthMembers m + 1
  | _ => 1

def depthElements : List (Document Double) → Nat
  | [] => 0
  | v :: l => max (depth v) (depthElements l)

def depthMembers : List (Bytes × Document Double) → Nat
  | [] => 0
  | (_, v) :: l => max (depth v) (depthMembers l)

end

end Document

/-- What the parser uses of rapidjson: a text that does not parse leaves the document null. -/
structure RapidJson where
  Double : Type
  Float : Type
  parse : Bytes → Option (Document Double)
  isFloat : Double → Bool
  getFloat : Double → Float

variable (lib : RapidJson)

/-- `PhysicalType`. -/
def PhysicalType : ValueType → Type
  | .bool => Bool
  | .int2 => Int16
  | .int4 | .date => Int32
  | .int8 | .timestamp | .timestamptz | .time => Int64
  | .float4 => lib.Float
  | .float8 => lib.Double
  | .numeric | .string => Bytes
  | .interval => Int64 × Int64

abbrev Value := Σ type : ValueType, Option (PhysicalType lib type)

abbrev ArrayHolder := Σ type : ValueType, List (Option (PhysicalType lib type))

inductive Node where
  | variable (valueType : ValueType) (columnName : Bytes)
  | const (value : Value lib)
  | function (signature : FunctionSignature) (arguments : List Node)
  | scalarOverArray (signature : FunctionSignature) (useOr : Bool) (scalar : Node) (array : ArrayHolder lib)
  | ifNode (condition thenNode elseNode : Node)
  | logical (operation : LogicalOperation) (arguments : List Node)

variable {lib}

mutual

/-- A well-formed tree: every node has the children that its kind and its signature ask for. -/
def Node.Valid : Node lib → Prop
  | .variable _ _ => True
  | .const _ => True
  | .function signature arguments => signature.argumentTypes.length = arguments.length ∧ Node.AllValid arguments
  | .scalarOverArray signature _ scalar array =>
    0 < array.2.length ∧ signature.argumentTypes.length = 2 ∧ scalar.Valid
  | .ifNode condition thenNode elseNode => condition.Valid ∧ thenNode.Valid ∧ elseNode.Valid
  | .logical operation arguments => (operation = .not → arguments.length = 1) ∧ Node.AllValid arguments

def Node.AllValid : List (Node lib) → Prop
  | [] => True
  | node :: nodes => node.Valid ∧ Node.AllValid nodes

end

/-! ### Accessors -/

section

variable {Double : Type}

/-- `HasMember`, which requires an object. -/
def hasMember (fieldName : Bytes) : Document Double → Except Failure Bool
  | .object members => .ok (Document.findMember fieldName members).isSome
  | _ => .error .undefined

/-- `operator[]`, which requires an object with the member. -/
def member (fieldName : Bytes) : Document Double → Except Failure (Document Double)
  | .object members => (Document.findMember fieldName members).elim (.error .undefined) .ok
  | _ => .error .undefined

/-- `Extract`. -/
def extract {α : Type} (f : Document Double → Except Failure α) (document : Document Double) (fieldName : Bytes) :
    Except Failure α := do
  let hasField ← hasMember fieldName document
  require hasField ("ExtractPrimitive: !document.HasMember(" ++ text fieldName ++ ")")
  let value ← member fieldName document
  f value

/-! ### Values -/

def wrongType {α : Type} : Except Failure α := .error (.thrown "Deserialize (primitive): wrong type")

def deserializeBool : Document Double → Except Failure Bool
  | .bool b => .ok b
  | _ => wrongType

/-- An integer between two bounds, converted. -/
def deserializeInteger {α : Type} (low high : Int) (ofInt : Int → α) : Document Double → Except Failure α
  | .int i => if low ≤ i ∧ i < high then .ok (ofInt i) else wrongType
  | _ => wrongType

/-- There is no `Is<int16_t>`: the value is read as an `int32_t` and converted. -/
def deserializeInt16 : Document Double → Except Failure Int16 := deserializeInteger (-2 ^ 31) (2 ^ 31) Int16.ofInt

def deserializeInt32 : Document Double → Except Failure Int32 := deserializeInteger (-2 ^ 31) (2 ^ 31) Int32.ofInt

def deserializeInt64 : Document Double → Except Failure Int64 := deserializeInteger (-2 ^ 63) (2 ^ 63) Int64.ofInt

def deserializeString : Document Double → Except Failure Bytes
  | .string s => .ok s
  | _ => .error (.thrown "Deserialize (string): wrong type")

def deserializeOptional {α : Type} (f : Document Double → Except Failure α) : Document Double → Except Failure (Option α)
  | .null => .ok none
  | document => do
    let value ← f document
    return some value

def deserializeVector {α : Type} (f : Document Double → Except Failure α) : Document Double → Except Failure (List α)
  | .array elements => elements.mapM f
  | _ => .error (.thrown "Deserialize (array): wrong type")

/-- A string that names an enumerator. -/
def deserializeName {α : Type} (names : List (α × Bytes)) (document : Document Double) : Except Failure α := do
  let string ← deserializeString document
  throwing (stringViewToElement names string)

/-- An element of `arg-types` is read up to its first zero byte. -/
def deserializeArgumentType : Document Double → Except Failure ValueType
  | .string s => throwing (stringViewToElement valueTypeString (cString s))
  | _ => .error (.thrown "Deserialize (ValueType): wrong type")

/-- The check `document.IsObject()` in front of a deserializer. -/
def ensureObject (message : String) : Document Double → Except Failure Unit
  | .object _ => .ok ()
  | _ => .error (.thrown message)

def deserializeInterval (document : Document Double) : Except Failure (Int64 × Int64) := do
  ensureObject "Deserialize (IntervalMonthMicro): wrong type" document
  let months ← extract deserializeInt64 document Field.kMonths
  let micros ← extract deserializeInt64 document Field.kMicros
  return (months, micros)

def deserializeSignature (document : Document Double) : Except Failure FunctionSignature := do
  ensureObject "Deserialize (FunctionSignature): wrong type" document
  let functionId ← extract (deserializeName functionIdString) document Field.kFunctionID
  let returnType ← extract (deserializeName valueTypeString) document Field.kValueType
  let argumentTypes ← extract (deserializeVector deserializeArgumentType) document Field.kArgumentTypes
  return {
    functionId := functionId
    returnType := returnType
    argumentTypes := argumentTypes }

end

variable (lib) in
def deserializePhysical : (type : ValueType) → Document lib.Double → Except Failure (PhysicalType lib type)
  | .bool => deserializeBool
  | .int2 => deserializeInt16
  | .int4 | .date => deserializeInt32
  | .int8 | .timestamp | .timestamptz | .time => deserializeInt64
  | .float4 => fun document =>
    match document with
    | .double d => if lib.isFloat d then .ok (lib.getFloat d) else wrongType
    | _ => wrongType
  | .float8 => fun document =>
    match document with
    | .double d => .ok d
    | _ => wrongType
  | .numeric | .string => deserializeString
  | .interval => deserializeInterval

def deserializeValue (document : Document lib.Double) : Except Failure (Value lib) := do
  ensureObject "Deserialize<Value>: wrong type" document
  let valueType ← extract (deserializeName valueTypeString) document Field.kValueType
  let value ← extract (deserializeOptional (deserializePhysical lib valueType)) document Field.kValue
  return ⟨valueType, value⟩

def deserializeArray (document : Document lib.Double) : Except Failure (ArrayHolder lib) := do
  ensureObject "Deserialize<ArrayHolder>: wrong type" document
  let valueType ← extract (deserializeName valueTypeString) document Field.kValueType
  let value ← extract (deserializeVector (deserializeOptional (deserializePhysical lib valueType))) document
    Field.kValue
  return ⟨valueType, value⟩

/-! ### Nodes -/

/-- The constructor of `LogicalNode`. -/
def makeLogical (operation : LogicalOperation) (arguments : List (Node lib)) : Except Failure (Node lib) := do
  require (!(operation = .not && arguments.length != 1)) "LogicalNode: Operation::kNot expects one argument"
  return .logical operation arguments

/-- The constructor of `FunctionNode`. -/
def makeFunction (signature : FunctionSignature) (arguments : List (Node lib)) : Except Failure (Node lib) := do
  require (signature.argumentTypes.length = arguments.length) "FunctionNode: argument_types.size() != arguments.size()"
  return .function signature arguments

/-- The constructor of `ScalarOverArrayFunctionNode`. -/
def makeScalarOverArray (signature : FunctionSignature) (useOr : Bool) (scalar : Node lib) (array : ArrayHolder lib) :
    Except Failure (Node lib) := do
  require (0 < array.2.length) "ScalarOverArrayFunctionNode: array must contain at least one element"
  require (signature.argumentTypes.length = 2) "ScalarOverArrayFunctionNode: function signature must have 2 arguments"
  return .scalarOverArray signature useOr scalar array

section

variable (parseNode : Document lib.Double → Except Failure (Node lib))

/-- The deserializers of the six kinds of nodes; `parseNode` is `Deserialize<NodePtr>`. -/
def deserializeKind (document : Document lib.Double) : NodeType → Except Failure (Node lib)
  | .const => do
    ensureObject "Deserialize (ConstNode): wrong type" document
    let value ← extract deserializeValue document Field.kValue
    return .const value
  | .scalarOverArrayFunction => do
    ensureObject "Deserialize (FunctionArrayNode): wrong type" document
    let signature ← extract deserializeSignature document Field.kFunctionSignature
    let useOr ← extract deserializeBool document Field.kUseOr
    let lhs ← extract parseNode document Field.kLhs
    let rhs ← extract deserializeArray document Field.kRhs
    makeScalarOverArray signature useOr lhs rhs
  | .variable => do
    ensureObject "Deserialize (VariableNode): wrong type" document
    let valueType ← extract (deserializeName valueTypeString) document Field.kValueType
    let columnName ← extract deserializeString document Field.kColumnName
    return .variable valueType columnName
  | .ifNode => do
    ensureObject "Deserialize (IfNode): wrong type" document
    let condition ← extract parseNode document Field.kCondition
    let thenNode ← extract parseNode document Field.kThen
    let elseNode ← extract parseNode document Field.kElse
    return .ifNode condition thenNode elseNode
  | .function => do
    ensureObject "Deserialize (FunctionNode): wrong type" document
    let signature ← extract deserializeSignature document Field.kFunctionSignature
    let arguments ← extract (deserializeVector parseNode) document Field.kArguments
    makeFunction signature arguments
  | .logical => do
    ensureObject "Deserialize (LogicalNode): wrong type" document
    let operation ← extract (deserializeName logicalOpString) document Field.kLogicalOperation
    let arguments ← extract (deserializeVector parseNode) document Field.kArguments
    makeLogical operation arguments

end

/-- `Deserialize<NodePtr>`, which does not check that the document is an object. The fuel bounds the
nesting of the document. -/
def deserializeNode : Nat → Document lib.Double → Except Failure (Node lib)
  | 0, _ => .error .undefined
  | fuel + 1, document => do
    let nodeType ← extract (deserializeName nodeTypeString) document Field.kNodeType
    deserializeKind (deserializeNode fuel) document nodeType

variable (lib) in
/-- The document that a text is parsed to. -/
def parsedDocument (rowFilter : Bytes) : Document lib.Double := (lib.parse rowFilter).getD .null

variable (lib) in
/-- `StringToFilter`: the empty text is the null pointer. -/
def stringToFilter (rowFilter : Bytes) : Except Failure (Option (Node lib)) :=
  if rowFilter.isEmpty then .ok none
  else do
    let document := parsedDocument lib rowFilter
    let node ← deserializeNode document.depth document
    return some node

end FilterJson.Dom

end IcebergCxx

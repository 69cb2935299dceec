import IcebergCxx.FilterNode
import IcebergCxx.Lib.ThreeValued

/-!
# The meaning of filter expressions

What an expression evaluates to on a row: comparisons are strict in `NULL`, the logical
operations are Kleene's, and `IF` takes its `ELSE` branch when the condition is `FALSE` or
`NULL`. `RowSemantics` says it of any evaluation function, so that it applies both to the
direct evaluation `evalNode` and to an expression compiled for the row filter.
-/

namespace IcebergCxx

open Lib

/-- The result of an expression on a row. -/
inductive Outcome
  | error
  | null
  | value (v : Scalar)

namespace Outcome

def isError : Outcome → Bool
  | error => true
  | _ => false

def ofOption : Option Scalar → Outcome
  | none => null
  | some v => value v

def truth (b : Bool) : Outcome := value ⟨.bool, b⟩

def ofTruth : Truth → Outcome
  | .fail => error
  | .unknown => null
  | .known b => truth b

/-- The truth value of a condition; a value that is not a boolean is a failure. -/
def toTruth : Outcome → Truth
  | error => .fail
  | null => .unknown
  | value ⟨.bool, b⟩ => .known b
  | value _ => .fail

/-- The evaluation either fails or has the given result. -/
def Refines (a b : Outcome) : Prop := a = error ∨ a = b

end Outcome

/-! ### Comparisons -/

def comparator {α : Type} [LinearOrder α] (functionId : FunctionID) (a b : α) : Bool :=
  match functionId with
  | .lessThan => decide (a < b)
  | .lessThanOrEqualTo => decide (a ≤ b)
  | .greaterThan => decide (b < a)
  | .greaterThanOrEqualTo => decide (b ≤ a)
  | .notEqual => decide (a ≠ b)
  | _ => decide (a = b)

def widenToInt4 : Scalar → Scalar
  | ⟨.int2, x⟩ => ⟨.int4, toInt32 (Subtype.val x)⟩
  | other => other

def widenToInt8 : Scalar → Scalar
  | ⟨.int2, x⟩ => ⟨.int8, toInt64 (Subtype.val x)⟩
  | ⟨.int4, x⟩ => ⟨.int8, toInt64 (Subtype.val x)⟩
  | other => other

/-- A timestamp, when the exact value is one. -/
def exactTimestamp (x : Int) : Option Scalar := if InInt64 x then some ⟨.timestamp, toInt64 x⟩ else none

/-- A date is the timestamp of its midnight; a timestamptz is moved by `shift`. -/
def scalarToTimestamp (shift : Int) : Scalar → Option Scalar
  | ⟨.date, x⟩ => exactTimestamp (Subtype.val x * microsInDay)
  | ⟨.timestamptz, x⟩ => exactTimestamp (Subtype.val x + shift)
  | other => some other

def areScalarTypes (a b : ValueType) (x y : Scalar) : Bool := decide (x.1 = a ∧ y.1 = b ∨ x.1 = b ∧ y.1 = a)

/-- Compares two values of one type. -/
def compareSame (functionId : FunctionID) (x y : Scalar) : Option Outcome :=
  if h : y.1 = x.1 then
    if x.1.isComparable then some (.truth (comparator functionId x.2 (h ▸ y.2))) else none
  else none

/-- Compares two values after a cast to a common type; `none` for types that are not compared. -/
def compareScalars (shift : Int) (functionId : FunctionID) (x y : Scalar) : Option Outcome :=
  if x.1 = y.1 then compareSame functionId x y
  else if areScalarTypes .int2 .int4 x y then compareSame functionId (widenToInt4 x) (widenToInt4 y)
  else if areScalarTypes .int4 .int8 x y || areScalarTypes .int2 .int8 x y then
    compareSame functionId (widenToInt8 x) (widenToInt8 y)
  else if areScalarTypes .timestamp .timestamptz x y || areScalarTypes .timestamp .date x y ||
      areScalarTypes .timestamptz .date x y then
    match scalarToTimestamp shift x, scalarToTimestamp shift y with
    | some x, some y => compareSame functionId x y
    | _, _ => some .error
  else none

/-- A comparison of two results. -/
def compareOutcomes (shift : Int) (functionId : FunctionID) : Outcome → Outcome → Option Outcome
  | .error, _ => some .error
  | _, .error => some .error
  | .null, _ => some .null
  | _, .null => some .null
  | .value x, .value y => compareScalars shift functionId x y

def isNullOutcome : Outcome → Outcome
  | .error => .error
  | .null => .truth true
  | .value _ => .truth false

/-- A widening cast; `none` for a type that it does not widen. -/
def castOutcome (functionId : FunctionID) : Outcome → Option Outcome
  | .error => some .error
  | .null => some .null
  | .value ⟨.int2, x⟩ =>
    match functionId with
    | .castInt4 => some (.value (widenToInt4 ⟨.int2, x⟩))
    | .castInt8 => some (.value (widenToInt8 ⟨.int2, x⟩))
    | _ => none
  | .value ⟨.int4, x⟩ =>
    match functionId with
    | .castInt8 => some (.value (widenToInt8 ⟨.int4, x⟩))
    | _ => none
  | .value _ => none

/-- One element of an array comparison. -/
def compareElement (shift : Int) (functionId : FunctionID) (scalar : Outcome) (type : ValueType) :
    Option (PhysicalType type) → Option Outcome
  | none => compareOutcomes shift functionId scalar .null
  | some x => compareOutcomes shift functionId scalar (.value ⟨type, x⟩)

/-- The branch that `IF` takes. -/
def ifOutcome (condition thenOutcome elseOutcome : Outcome) : Outcome :=
  match condition.toTruth with
  | .known true => thenOutcome
  | .known false => elseOutcome
  | .unknown => elseOutcome
  | .fail => .error

/-- The truth values of a conjunction or disjunction. -/
def joinTruths (useOr : Bool) (truths : List Truth) : Truth := truths.foldl (Truth.join useOr) (.known (!useOr))

/-- An evaluation function on one row that follows the meaning of expressions wherever it has a
result. The laws cover what the statistics filter evaluates; other functions are free, and so is
the representation of constants without an order. An array comparison may also be `NULL`. -/
structure RowSemantics (shift : Int) (row : Bytes → Option Scalar) (eval : Node → Outcome) : Prop where
  column : ∀ type name, (eval (.variable type name)).Refines (.ofOption (row name))
  const : ∀ type x, type.isComparable = true → (eval (.const ⟨type, some x⟩)).Refines (.value ⟨type, x⟩)
  unorderedConst : ∀ type x, type.isComparable = false → eval (.const ⟨type, some x⟩) ≠ .null
  comparison : ∀ signature l r, signature.functionId.isComparison = true →
    ∀ out, compareOutcomes shift signature.functionId (eval l) (eval r) = some out →
      (eval (.function signature [l, r])).Refines out
  isNull : ∀ signature a, signature.functionId = .isNull →
    (eval (.function signature [a])).Refines (isNullOutcome (eval a))
  cast : ∀ signature a, signature.functionId = .castInt4 ∨ signature.functionId = .castInt8 →
    ∀ out, castOutcome signature.functionId (eval a) = some out → (eval (.function signature [a])).Refines out
  array : ∀ signature useOr scalar array, ∃ truth : Option (PhysicalType array.1) → Truth,
    (signature.functionId.isComparison = true → ∀ elem out,
      compareElement shift signature.functionId (eval scalar) array.1 elem = some out →
      truth elem = .fail ∨ truth elem = out.toTruth) ∧
    (eval (.scalarOverArray signature useOr scalar array) = .null ∨
      (eval (.scalarOverArray signature useOr scalar array)).Refines (.ofTruth (joinTruths useOr (array.2.map truth))))
  ifNode : ∀ c t e, (eval (.ifNode c t e)).Refines (ifOutcome (eval c) (eval t) (eval e))
  not : ∀ a, (eval (.logical .not [a])).Refines (.ofTruth (eval a).toTruth.not)
  and : ∀ args, (eval (.logical .and args)).Refines
    (.ofTruth (joinTruths false (args.map (fun a => (eval a).toTruth))))
  or : ∀ args, (eval (.logical .or args)).Refines
    (.ofTruth (joinTruths true (args.map (fun a => (eval a).toTruth))))

/-! ### Direct evaluation -/

section
variable (shift : Int) (interp : FunctionID → List Outcome → Outcome) (row : Bytes → Option Scalar)

/-- A function on the results of its arguments: the comparisons, the null test and the widening
casts by their meaning, every other function by `interp`. -/
def evalFunction (functionId : FunctionID) (arguments : List Outcome) : Outcome :=
  match arguments with
  | [l, r] =>
    if functionId.isComparison then (compareOutcomes shift functionId l r).getD (interp functionId arguments)
    else interp functionId arguments
  | [a] =>
    if functionId = .isNull then isNullOutcome a
    else if functionId = .castInt4 ∨ functionId = .castInt8 then (castOutcome functionId a).getD (interp functionId [a])
    else interp functionId [a]
  | _ => interp functionId arguments

mutual

/-- The value of an expression on a row. -/
def evalNode : Node → Outcome
  | .variable _ name => .ofOption (row name)
  | .const ⟨_, none⟩ => .null
  | .const ⟨type, some x⟩ => .value ⟨type, x⟩
  | .function signature arguments => evalFunction shift interp signature.functionId (evalNodes arguments)
  | .scalarOverArray signature useOr scalar array =>
    .ofTruth (joinTruths useOr (array.2.map (fun elem =>
      (evalFunction shift interp signature.functionId
        [evalNode scalar, .ofOption (elem.map (fun x => ⟨array.1, x⟩))]).toTruth)))
  | .ifNode c t e => ifOutcome (evalNode c) (evalNode t) (evalNode e)
  | .logical .not [a] => .ofTruth (evalNode a).toTruth.not
  | .logical .not _ => .error
  | .logical .and arguments => .ofTruth (joinTruths false ((evalNodes arguments).map Outcome.toTruth))
  | .logical .or arguments => .ofTruth (joinTruths true ((evalNodes arguments).map Outcome.toTruth))

def evalNodes : List Node → List Outcome
  | [] => []
  | a :: arguments => evalNode a :: evalNodes arguments

end

end

end IcebergCxx

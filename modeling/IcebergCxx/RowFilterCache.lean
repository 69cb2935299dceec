import IcebergCxx.RowFilter

/-!
# The compiled filter of a row filter

`RowFilter::BuildFilter` compiles the condition of a batch schema and keeps the result for the next
call, which is told apart by the texts of its condition and of its schema. A filter that Gandiva has
compiled is named by what it was compiled from. The visitor of the filter's root, the texts and the
evaluation of a compiled filter are parameters; whether a compilation succeeds is part of a call.
-/

namespace IcebergCxx

open Lib

namespace RowFilterCache

/-- What `BuildFilter` uses of the visitor, of Arrow and of Gandiva. -/
structure Gandiva (Resolver Condition Schema : Type) where
  /-- The condition that `RowFilterVisitor` makes of the root. -/
  visit : Resolver → Except String Condition
  conditionToString : Condition → Bytes
  schemaToString : Schema → Bytes

/-- The fields of `RowFilter` that a call can change. -/
structure RowFilter (Condition Schema : Type) where
  lastSchemaAsStr : Bytes := []
  lastConditionAsStr : Bytes := []
  filter : Option (Condition × Schema) := none

/-- A call of `BuildFilter`: its arguments, and how `RegisterFunctions` and `gandiva::Filter::Make` end. -/
structure BuildFilterCall (Resolver Schema : Type) where
  registered : Except String Unit := .ok ()
  resolver : Resolver
  batchSchema : Schema
  made : Except String Unit := .ok ()

variable {Resolver Condition Schema : Type} (gandiva : Gandiva Resolver Condition Schema)

/-- The texts of the call are those of the last one that was compiled. -/
def isLast (rowFilter : RowFilter Condition Schema) (condition : Condition) (schema : Schema) : Bool :=
  gandiva.conditionToString condition = rowFilter.lastConditionAsStr &&
    gandiva.schemaToString schema = rowFilter.lastSchemaAsStr

/-- `gandiva::Filter::Make`, after the texts have been stored. -/
def compileFilter (condition : Condition) (call : BuildFilterCall Resolver Schema) :
    RowFilter Condition Schema × Except String Unit :=
  match call.made with
  | .ok () => (⟨gandiva.schemaToString call.batchSchema, gandiva.conditionToString condition,
      some (condition, call.batchSchema)⟩, .ok ())
  | .error e => (⟨gandiva.schemaToString call.batchSchema, gandiva.conditionToString condition, none⟩, .error e)

/-- `BuildFilter`. -/
def buildFilter (rowFilter : RowFilter Condition Schema) (call : BuildFilterCall Resolver Schema) :
    RowFilter Condition Schema × Except String Unit :=
  match call.registered with
  | .error e => (rowFilter, .error e)
  | .ok () =>
    match gandiva.visit call.resolver with
    | .error e => (rowFilter, .error e)
    | .ok condition =>
      if isLast gandiva rowFilter condition call.batchSchema then (rowFilter, .ok ())
      else compileFilter gandiva condition call

/-- `ApplyFilter`. -/
def applyFilter {Batch Selection : Type} (evaluate : Condition × Schema → Batch → Except String Selection)
    (rowFilter : RowFilter Condition Schema) (recordBatch : Batch) : Except String Selection :=
  match rowFilter.filter with
  | none => .error "RowFilter (ApplyFilter): filter is not set"
  | some filter => evaluate filter recordBatch

/-- The row filter after some calls. -/
def rowFilterAfter (calls : List (BuildFilterCall Resolver Schema)) : RowFilter Condition Schema :=
  calls.foldl (fun rowFilter call => (buildFilter gandiva rowFilter call).1) {}

/-- The visitor of a root over the types of `RowFilter`, with a resolver of its columns and the shift
of its function registry. -/
def gandivaOf (parseDecimal : Bytes → Option (Int × Int)) (root : Node) (conditionToString : GandivaNode → Bytes)
    (schemaToString : Schema → Bytes) : Gandiva (ArrowFieldResolver × SignedInt 64) GandivaNode Schema where
  visit resolver := visitRow parseDecimal resolver.1 resolver.2 root
  conditionToString := conditionToString
  schemaToString := schemaToString

end RowFilterCache

end IcebergCxx

import IcebergCxx.Proofs.FilterParse
import IcebergCxx.Proofs.FilterSerializer

/-!
# The two parsers of filters

What the parser of documents without floating numbers returns, the parser with partial accessors
returns as well. So the texts that are written for filters lie where parsing is defined.
-/

namespace IcebergCxx.Proofs

open Lib FilterJson

section

variable {Double : Type}

mutual

/-- A document without floating numbers. -/
def ofJson : Json → Dom.Document Double
  | .null => .null
  | .bool b => .bool b
  | .int i => .int i
  | .string s => .string s
  | .array elements => .array (ofElements elements)
  | .object members => .object (ofMembers members)

def ofElements : List Json → List (Dom.Document Double)
  | [] => []
  | j :: l => ofJson j :: ofElements l

def ofMembers : List (Bytes × Json) → List (Bytes × Dom.Document Double)
  | [] => []
  | (k, j) :: l => (k, ofJson j) :: ofMembers l

end

lemma findMember_ofMembers (fieldName : Bytes) (members : List (Bytes × Json)) :
    Dom.Document.findMember fieldName (ofMembers members : List (Bytes × Dom.Document Double)) =
      (Json.findMember fieldName members).map ofJson := by
  induction members with
  | nil => rfl
  | cons kj members ih =>
    obtain ⟨k, j⟩ := kj
    rw [ofMembers, Dom.Document.findMember, Json.findMember, ih]
    split_ifs <;> rfl

mutual

theorem depth_ofJson : ∀ j : Json, (ofJson j : Dom.Document Double).depth = j.depth
  | .null | .bool _ | .int _ | .string _ => rfl
  | .array l => by rw [ofJson, Dom.Document.depth, Json.depth, depthElements_ofElements l]
  | .object m => by rw [ofJson, Dom.Document.depth, Json.depth, depthMembers_ofMembers m]

theorem depthElements_ofElements : ∀ l : List Json,
    Dom.Document.depthElements (ofElements l : List (Dom.Document Double)) = Json.depthElements l
  | [] => rfl
  | j :: l => by
    rw [ofElements, Dom.Document.depthElements, Json.depthElements, depth_ofJson j, depthElements_ofElements l]

theorem depthMembers_ofMembers : ∀ m : List (Bytes × Json),
    Dom.Document.depthMembers (ofMembers m : List (Bytes × Dom.Document Double)) = Json.depthMembers m
  | [] => rfl
  | (k, j) :: m => by
    rw [ofMembers, Dom.Document.depthMembers, Json.depthMembers, depth_ofJson j, depthMembers_ofMembers m]

end

end

/-! ### Refinement -/

/-- What the first call returns, the second returns in another form. -/
def Refines {α β : Type} (g : α → β) (x : Except String α) (y : Except Failure β) : Prop :=
  ∀ a, x = .ok a → y = .ok (g a)

section

variable {α β α' β' : Type} {g : α → β} {g' : α' → β'}

lemma refines_ok {a : α} {b : β} (h : g a = b) : Refines g (.ok a) (.ok b) := by
  rintro _ ⟨⟩
  rw [h]

lemma refines_error {message : String} {y : Except Failure β} : Refines g (.error message) y := by
  rintro _ ⟨⟩

lemma refines_ite {condition : Prop} [Decidable condition] {a : α} {message : String} {y : Except Failure β} :
    Refines g (if condition then .ok a else .error message) (if condition then .ok (g a) else y) := by
  split_ifs
  · exact refines_ok rfl
  · exact refines_error

lemma refines_bind {x : Except String α} {y : Except Failure β} {f : α → Except String α'}
    {f' : β → Except Failure β'} (hx : Refines g x y) (hf : ∀ a, Refines g' (f a) (f' (g a))) :
    Refines g' (x >>= f) (y >>= f') := by
  intro a' h
  obtain ⟨a, ha, h⟩ := bind_ok h
  rw [hx a ha, ok_bind]
  exact hf a a' h

lemma refines_throwing (x : Except String α) : Refines id x (throwing x) := by
  rintro a rfl
  rfl

lemma refines_require (condition : Bool) (message : String) :
    Refines id (ensure condition message) (require condition message) := refines_throwing _

variable {Double : Type} {f : Json → Except String α} {f' : Dom.Document Double → Except Failure β}

lemma refines_extract (hf : ∀ j, Refines g (f j) (f' (ofJson j))) (members : List (Bytes × Json))
    (fieldName : Bytes) :
    Refines g (extract f members fieldName) (Dom.extract f' (.object (ofMembers members)) fieldName) := by
  have hfind : Dom.Document.findMember fieldName (ofMembers members : List (Bytes × Dom.Document Double)) = _ :=
    findMember_ofMembers fieldName members
  unfold extract
  cases h : Json.findMember fieldName members with
  | none => exact refines_error
  | some j =>
    rw [h, Option.map_some] at hfind
    rw [extract_some hfind]
    exact hf j

lemma refines_vector (hf : ∀ j, Refines g (f j) (f' (ofJson j))) (j : Json) :
    Refines (List.map g) (deserializeVector f j) (Dom.deserializeVector f' (ofJson j)) := by
  cases j with
  | array elements =>
    simp only [deserializeVector, ofJson, Dom.deserializeVector]
    induction elements with
    | nil => exact refines_ok rfl
    | cons j elements ih =>
      rw [ofElements, List.mapM_cons, List.mapM_cons]
      apply refines_bind (hf j)
      intro a
      apply refines_bind ih
      intro l
      exact refines_ok rfl
  | _ => exact refines_error

lemma refines_optional (hf : ∀ j, Refines g (f j) (f' (ofJson j))) (j : Json) :
    Refines (Option.map g) (deserializeOptional f j) (Dom.deserializeOptional f' (ofJson j)) := by
  cases j with
  | null => exact refines_ok rfl
  | _ => exact refines_bind (hf _) (fun a => refines_ok rfl)

end

/-! ### Values -/

section

variable {Double : Type}

lemma refines_bool (j : Json) : Refines id (deserializeBool j) (Dom.deserializeBool (ofJson j : Dom.Document Double)) := by
  cases j with
  | bool b => exact refines_ok rfl
  | _ => exact refines_error

lemma refines_string (j : Json) :
    Refines id (deserializeString j) (Dom.deserializeString (ofJson j : Dom.Document Double)) := by
  cases j with
  | string s => exact refines_ok rfl
  | _ => exact refines_error

lemma refines_int16 (j : Json) :
    Refines id (deserializeInt16 j) (Dom.deserializeInt16 (ofJson j : Dom.Document Double)) := by
  cases j with
  | int i => exact refines_ite
  | _ => exact refines_error

lemma refines_int32 (j : Json) :
    Refines id (deserializeInt32 j) (Dom.deserializeInt32 (ofJson j : Dom.Document Double)) := by
  cases j with
  | int i => exact refines_ite
  | _ => exact refines_error

lemma refines_int64 (j : Json) :
    Refines id (deserializeInt64 j) (Dom.deserializeInt64 (ofJson j : Dom.Document Double)) := by
  cases j with
  | int i => exact refines_ite
  | _ => exact refines_error

/-- A name of an enumerator; the four deserializers of names are of this form. -/
lemma refines_name {α : Type} (names : List (α × Bytes)) (j : Json) :
    Refines id (deserializeString j >>= stringViewToElement names)
      (Dom.deserializeName names (ofJson j : Dom.Document Double)) :=
  refines_bind (refines_string j) (fun _ => refines_throwing _)

lemma refines_argumentType (j : Json) :
    Refines id (deserializeArgumentType j) (Dom.deserializeArgumentType (ofJson j : Dom.Document Double)) := by
  cases j with
  | string s => exact refines_throwing _
  | _ => exact refines_error

lemma refines_interval (j : Json) :
    Refines id (deserializeInterval j) (Dom.deserializeInterval (ofJson j : Dom.Document Double)) := by
  cases j with
  | object members =>
    apply refines_bind (refines_extract refines_int64 members _)
    intro months
    apply refines_bind (refines_extract refines_int64 members _)
    intro micros
    exact refines_ok rfl
  | _ => exact refines_error

lemma refines_signature (j : Json) :
    Refines id (deserializeSignature j) (Dom.deserializeSignature (ofJson j : Dom.Document Double)) := by
  cases j with
  | object members =>
    apply refines_bind (refines_extract (refines_name _) members _)
    intro functionId
    apply refines_bind (refines_extract (refines_name _) members _)
    intro returnType
    apply refines_bind (refines_extract (refines_vector refines_argumentType) members _)
    intro argumentTypes
    exact refines_ok (by simp)
  | _ => exact refines_error

end

variable {lib : Dom.RapidJson}

/-- A physical value; there is none of a floating type. -/
def ofPhysical : (type : FilterJson.ValueType) → FilterJson.PhysicalType type → Dom.PhysicalType lib type
  | .bool, b => b
  | .int2, i => i
  | .int4, i | .date, i => i
  | .int8, i | .timestamp, i | .timestamptz, i | .time, i => i
  | .float4, e | .float8, e => e.elim
  | .numeric, s | .string, s => s
  | .interval, p => p

def ofValue (value : FilterJson.Value) : Dom.Value lib := ⟨value.1, value.2.map (ofPhysical value.1)⟩

def ofArray (array : FilterJson.ArrayHolder) : Dom.ArrayHolder lib :=
  ⟨array.1, array.2.map (Option.map (ofPhysical array.1))⟩

lemma refines_physical (type : FilterJson.ValueType) (j : Json) : Refines (ofPhysical type) (deserializePhysical type j)
    (Dom.deserializePhysical lib type (ofJson j)) := by
  cases type with
  | bool => exact refines_bool j
  | int2 => exact refines_int16 j
  | int4 | date => exact refines_int32 j
  | int8 | timestamp | timestamptz | time => exact refines_int64 j
  | float4 | float8 => exact refines_error
  | numeric | string => exact refines_string j
  | interval => exact refines_interval j

lemma refines_value (j : Json) :
    Refines ofValue (deserializeValue j) (Dom.deserializeValue (ofJson j : Dom.Document lib.Double)) := by
  cases j with
  | object members =>
    apply refines_bind (refines_extract (refines_name _) members _)
    intro valueType
    apply refines_bind (refines_extract (refines_optional (refines_physical valueType)) members _)
    intro value
    exact refines_ok rfl
  | _ => exact refines_error

lemma refines_array (j : Json) :
    Refines ofArray (deserializeArray j) (Dom.deserializeArray (ofJson j : Dom.Document lib.Double)) := by
  cases j with
  | object members =>
    apply refines_bind (refines_extract (refines_name _) members _)
    intro valueType
    apply refines_bind (refines_extract (refines_vector (refines_optional (refines_physical valueType))) members _)
    intro value
    exact refines_ok rfl
  | _ => exact refines_error

/-! ### Nodes -/

mutual

def ofNode : FilterJson.Node → Dom.Node lib
  | .variable valueType columnName => .variable valueType columnName
  | .const value => .const (ofValue value)
  | .function signature arguments => .function signature (ofNodes arguments)
  | .scalarOverArray signature useOr scalar array => .scalarOverArray signature useOr (ofNode scalar) (ofArray array)
  | .ifNode condition thenNode elseNode => .ifNode (ofNode condition) (ofNode thenNode) (ofNode elseNode)
  | .logical operation arguments => .logical operation (ofNodes arguments)

def ofNodes : List FilterJson.Node → List (Dom.Node lib)
  | [] => []
  | node :: nodes => ofNode node :: ofNodes nodes

end

lemma ofNodes_eq_map (nodes : List FilterJson.Node) : (ofNodes nodes : List (Dom.Node lib)) = nodes.map ofNode := by
  induction nodes with
  | nil => rfl
  | cons node nodes ih => rw [ofNodes, ih, List.map_cons]

lemma refines_makeLogical (operation : LogicalOperation) (arguments : List FilterJson.Node) :
    Refines ofNode (makeLogical operation arguments)
      (Dom.makeLogical operation (arguments.map ofNode : List (Dom.Node lib))) := by
  unfold makeLogical Dom.makeLogical
  rw [List.length_map]
  apply refines_bind (refines_require _ _)
  intro _
  exact refines_ok (by rw [ofNode, ofNodes_eq_map])

lemma refines_makeFunction (signature : FilterJson.FunctionSignature) (arguments : List FilterJson.Node) :
    Refines ofNode (makeFunction signature arguments)
      (Dom.makeFunction signature (arguments.map ofNode : List (Dom.Node lib))) := by
  unfold makeFunction Dom.makeFunction
  rw [List.length_map]
  apply refines_bind (refines_require _ _)
  intro _
  exact refines_ok (by rw [ofNode, ofNodes_eq_map])

lemma refines_makeScalarOverArray (signature : FilterJson.FunctionSignature) (useOr : Bool)
    (scalar : FilterJson.Node) (array : FilterJson.ArrayHolder) :
    Refines ofNode (makeScalarOverArray signature useOr scalar array)
      (Dom.makeScalarOverArray signature useOr (ofNode scalar : Dom.Node lib) (ofArray array)) := by
  unfold makeScalarOverArray Dom.makeScalarOverArray
  rw [show (ofArray array : Dom.ArrayHolder lib).2.length = array.2.length from List.length_map _]
  apply refines_bind (refines_require _ _)
  intro _
  apply refines_bind (refines_require _ _)
  intro _
  exact refines_ok (by rw [ofNode])

/-- The parser with partial accessors returns what the other parser returns. -/
lemma refines_deserializeNode (fuel : Nat) (j : Json) : Refines ofNode (FilterJson.deserializeNode fuel j)
    (Dom.deserializeNode fuel (ofJson j : Dom.Document lib.Double)) := by
  induction fuel generalizing j with
  | zero => exact refines_error
  | succ fuel ih =>
    cases j with
    | object members =>
      apply refines_bind (refines_extract (refines_name nodeTypeString) members _)
      intro nodeType
      cases nodeType with
      | const =>
        apply refines_bind (refines_extract refines_value members _)
        intro value
        exact refines_ok (by rw [ofNode])
      | scalarOverArrayFunction =>
        apply refines_bind (refines_extract refines_signature members _)
        intro signature
        apply refines_bind (refines_extract refines_bool members _)
        intro useOr
        apply refines_bind (refines_extract ih members _)
        intro scalar
        apply refines_bind (refines_extract refines_array members _)
        intro array
        exact refines_makeScalarOverArray signature useOr scalar array
      | «variable» =>
        apply refines_bind (refines_extract (refines_name valueTypeString) members _)
        intro valueType
        apply refines_bind (refines_extract refines_string members _)
        intro columnName
        exact refines_ok (by rw [ofNode]; rfl)
      | ifNode =>
        apply refines_bind (refines_extract ih members _)
        intro condition
        apply refines_bind (refines_extract ih members _)
        intro thenNode
        apply refines_bind (refines_extract ih members _)
        intro elseNode
        exact refines_ok (by rw [ofNode])
      | function =>
        apply refines_bind (refines_extract refines_signature members _)
        intro signature
        apply refines_bind (refines_extract (refines_vector ih) members _)
        intro arguments
        exact refines_makeFunction signature arguments
      | logical =>
        apply refines_bind (refines_extract (refines_name logicalOpString) members _)
        intro operation
        apply refines_bind (refines_extract (refines_vector ih) members _)
        intro arguments
        exact refines_makeLogical operation arguments
    | _ => exact refines_error

/-! ### Texts -/

/-- Where one library parses a text to a document without floating numbers, the other does. -/
def ExtendsJson (json : JsonLibrary) (lib : Dom.RapidJson) : Prop :=
  ∀ rowFilter j, json.parse rowFilter = some j → lib.parse rowFilter = some (ofJson j)

lemma refines_stringToFilter {json : JsonLibrary} (hlib : ExtendsJson json lib) (rowFilter : Bytes) :
    Refines (Option.map ofNode) (stringToFilter json rowFilter) (Dom.stringToFilter lib rowFilter) := by
  by_cases hempty : rowFilter = []
  · subst hempty
    exact refines_ok rfl
  rw [stringToFilter_of_ne_nil hempty, stringToFilter, if_neg (by simpa using hempty)]
  cases hparse : json.parse rowFilter with
  | none => exact refines_error
  | some j =>
    have hdocument : Dom.parsedDocument lib rowFilter = ofJson j := by
      rw [Dom.parsedDocument, hlib rowFilter j hparse, Option.getD_some]
    rw [hdocument, depth_ofJson]
    apply refines_bind (refines_deserializeNode _ j)
    intro node
    exact refines_ok rfl

/-- On the texts of filters the parser is total. -/
theorem parsesTotally_filterToString {json : JsonLibrary} (hlib : ExtendsJson json lib) (filter : Option FilterTree) :
    ParsesTotally lib (filterToString json (filter.map Subtype.val)) := by
  have h := refines_stringToFilter hlib _ _ (stringToFilter_filterToString json filter)
  rw [parsesTotally_iff_defined, h]
  exact defined_ok _

end IcebergCxx.Proofs

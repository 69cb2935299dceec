import IcebergCxx.FilterSerializer
import IcebergCxx.Lib.JsonScan

/-!
# Filters through their JSON form

Whatever filter is written, what is read back is the same tree with every string cut at its first
zero byte (`deserializeNode_serialize`). So the round trip is exact for the filters whose strings
contain no zero byte, and for no other.
-/

namespace IcebergCxx.Proofs

open Lib FilterJson

/-! ### Tables of names -/

/-- A table that is a bijection is read back at each of its entries. -/
lemma stringViewToElement_elementToStringView {α : Type} [DecidableEq α] {map : List (α × Bytes)}
    (hmap : isBijection map = true) {elem : α} (h : ∃ entry ∈ map, entry.1 = elem) :
    stringViewToElement map (elementToStringView map elem) = .ok elem := by
  obtain ⟨entry, hentry, rfl⟩ := h
  have hsome : (map.find? (fun e => e.1 = entry.1)).isSome := by
    rw [List.find?_isSome]
    exact ⟨entry, hentry, by simp⟩
  obtain ⟨found, hfound⟩ := Option.isSome_iff_exists.mp hsome
  have hfst : found.1 = entry.1 := by simpa using List.find?_some hfound
  have hmem := List.mem_of_find?_eq_some hfound
  have hsome' : (map.find? (fun e => e.2 = found.2)).isSome := by
    rw [List.find?_isSome]
    exact ⟨found, hmem, by simp⟩
  obtain ⟨back, hback⟩ := Option.isSome_iff_exists.mp hsome'
  have hsnd : back.2 = found.2 := by simpa using List.find?_some hback
  have hbmem := List.mem_of_find?_eq_some hback
  have hbij : back.1 = found.1 := by
    unfold isBijection at hmap
    have := List.all_eq_true.mp (List.all_eq_true.mp hmap back hbmem) found hmem
    simpa [hsnd] using this
  simp only [elementToStringView, hfound, stringViewToElement, hback, hbij, hfst]

/-- A written enumerator is read back, when the names have no zero byte. -/
lemma deserialize_enumerator {α : Type} [DecidableEq α] {map : List (α × Bytes)} (hmap : isBijection map = true)
    (hzero : ∀ entry ∈ map, (0 : Byte) ∉ entry.2) {elem : α} (h : ∃ entry ∈ map, entry.1 = elem) :
    (deserializeString (serializeString (elementToStringView map elem)) >>= stringViewToElement map) = .ok elem := by
  have hclean : (0 : Byte) ∉ elementToStringView map elem := by
    unfold elementToStringView
    split
    · rename_i entry hentry
      exact hzero entry (List.mem_of_find?_eq_some hentry)
    · exact List.not_mem_nil
  rw [deserializeString_serialize, cString_of_notMem hclean, ok_bind]
  exact stringViewToElement_elementToStringView hmap h

lemma deserializeNodeType_serialize (t : NodeType) : deserializeNodeType (serializeNodeType t) = .ok t :=
  @deserialize_enumerator _ _ nodeTypeString (by decide) (by decide) t (by cases t <;> decide)

lemma deserializeValueType_serialize (t : FilterJson.ValueType) :
    deserializeValueType (serializeValueType t) = .ok t :=
  @deserialize_enumerator _ _ valueTypeString (by decide) (by decide) t (by cases t <;> decide)

lemma deserializeFunctionID_serialize (f : FunctionID) : deserializeFunctionID (serializeFunctionID f) = .ok f :=
  @deserialize_enumerator _ _ functionIdString (by decide +kernel) (by decide +kernel) f
    (by cases f <;> decide)

lemma deserializeLogicalOperation_serialize (op : LogicalOperation) :
    deserializeLogicalOperation (serializeLogicalOperation op) = .ok op :=
  @deserialize_enumerator _ _ logicalOpString (by decide) (by decide) op (by cases op <;> decide)

lemma deserializeArgumentType_serialize (t : FilterJson.ValueType) :
    deserializeArgumentType (serializeValueType t) = .ok t := by
  cases t <;> rfl

/-! ### Strings cut at their first zero byte -/

/-- What a value keeps of its strings. -/
def cutPhysical : (type : FilterJson.ValueType) → FilterJson.PhysicalType type → FilterJson.PhysicalType type
  | .numeric, value => cString value
  | .string, value => cString value
  | .bool, value => value
  | .int2, value => value
  | .int4, value => value
  | .int8, value => value
  | .float4, value => value
  | .float8, value => value
  | .date, value => value
  | .timestamp, value => value
  | .timestamptz, value => value
  | .time, value => value
  | .interval, value => value

mutual

/-- What is left of a filter after the round trip. -/
def cutNode : FilterJson.Node → FilterJson.Node
  | .variable valueType columnName => .variable valueType (cString columnName)
  | .const value => .const ⟨value.1, value.2.map (cutPhysical value.1)⟩
  | .function signature arguments => .function signature (cutNodes arguments)
  | .scalarOverArray signature useOr scalar array =>
    .scalarOverArray signature useOr (cutNode scalar) ⟨array.1, array.2.map (Option.map (cutPhysical array.1))⟩
  | .ifNode condition thenNode elseNode => .ifNode (cutNode condition) (cutNode thenNode) (cutNode elseNode)
  | .logical operation arguments => .logical operation (cutNodes arguments)

def cutNodes : List FilterJson.Node → List FilterJson.Node
  | [] => []
  | node :: nodes => cutNode node :: cutNodes nodes

end

lemma length_cutNodes (nodes : List FilterJson.Node) : (cutNodes nodes).length = nodes.length := by
  induction nodes with
  | nil => rfl
  | cons node nodes ih => simp [cutNodes, ih]

lemma serializePhysical_ne_null (type : FilterJson.ValueType) (value : FilterJson.PhysicalType type) :
    serializePhysical type value ≠ .null := by
  intro h
  cases type <;> first | (cases h) | (exact value.elim)

lemma deserializePhysical_serialize (type : FilterJson.ValueType) (value : FilterJson.PhysicalType type) :
    deserializePhysical type (serializePhysical type value) = .ok (cutPhysical type value) := by
  cases type with
  | bool => rfl
  | int2 => exact deserializeInt16_toInt value
  | int4 => exact deserializeInt32_toInt value
  | date => exact deserializeInt32_toInt value
  | int8 => exact deserializeInt64_toInt value
  | timestamp => exact deserializeInt64_toInt value
  | timestamptz => exact deserializeInt64_toInt value
  | time => exact deserializeInt64_toInt value
  | float4 => exact value.elim
  | float8 => exact value.elim
  | numeric => exact deserializeString_serialize value
  | string => exact deserializeString_serialize value
  | interval =>
    obtain ⟨months, micros⟩ := value
    have h1 : extract deserializeInt64 [(Field.kMonths, Json.int months.toInt), (Field.kMicros, .int micros.toInt)]
        Field.kMonths = .ok months := deserializeInt64_toInt months
    have h2 : extract deserializeInt64 [(Field.kMonths, Json.int months.toInt), (Field.kMicros, .int micros.toInt)]
        Field.kMicros = .ok micros := deserializeInt64_toInt micros
    change deserializeInterval (.object [(Field.kMonths, .int months.toInt), (Field.kMicros, .int micros.toInt)]) = _
    rw [deserializeInterval, h1, ok_bind, h2, ok_bind]
    rfl

lemma deserializeNullable_serialize (type : FilterJson.ValueType) (value : Option (FilterJson.PhysicalType type)) :
    deserializeOptional (deserializePhysical type) (serializeOptional (serializePhysical type) value) =
      .ok (value.map (cutPhysical type)) :=
  deserializeOptional_serialize (serializePhysical_ne_null type) (deserializePhysical_serialize type) value

lemma deserializeValue_serialize (value : FilterJson.Value) :
    FilterJson.deserializeValue (FilterJson.serializeValue value) = .ok ⟨value.1, value.2.map (cutPhysical value.1)⟩ := by
  obtain ⟨type, value⟩ := value
  set m := [(Field.kValueType, serializeValueType type), (Field.kValue, serializeOptional (serializePhysical type) value)]
    with hm
  have h1 : extract deserializeValueType m Field.kValueType = .ok type := deserializeValueType_serialize type
  have h2 : extract (deserializeOptional (deserializePhysical type)) m Field.kValue =
      .ok (value.map (cutPhysical type)) := deserializeNullable_serialize type value
  change FilterJson.deserializeValue (.object m) = _
  rw [FilterJson.deserializeValue, h1, ok_bind, h2, ok_bind]
  rfl

lemma deserializeArray_serialize (value : FilterJson.ArrayHolder) :
    deserializeArray (serializeArray value) = .ok ⟨value.1, value.2.map (Option.map (cutPhysical value.1))⟩ := by
  obtain ⟨type, value⟩ := value
  set m := [(Field.kValueType, serializeValueType type),
    (Field.kValue, .array (value.map (serializeOptional (serializePhysical type))))] with hm
  have h1 : extract deserializeValueType m Field.kValueType = .ok type := deserializeValueType_serialize type
  have h2 : extract (deserializeVector (deserializeOptional (deserializePhysical type))) m Field.kValue =
      .ok (value.map (Option.map (cutPhysical type))) :=
    deserializeVector_map (fun v _ => deserializeNullable_serialize type v)
  change deserializeArray (.object m) = _
  rw [deserializeArray, h1, ok_bind, h2, ok_bind]
  rfl

lemma deserializeSignature_serialize (signature : FilterJson.FunctionSignature) :
    deserializeSignature (serializeSignature signature) = .ok signature := by
  set m := [(Field.kArgumentTypes, Json.array (signature.argumentTypes.map serializeValueType)),
    (Field.kValueType, serializeValueType signature.returnType),
    (Field.kFunctionID, serializeFunctionID signature.functionId)] with hm
  have h1 : extract deserializeFunctionID m Field.kFunctionID = .ok signature.functionId :=
    deserializeFunctionID_serialize _
  have h2 : extract deserializeValueType m Field.kValueType = .ok signature.returnType :=
    deserializeValueType_serialize _
  have h3 : extract (deserializeVector deserializeArgumentType) m Field.kArgumentTypes =
      .ok signature.argumentTypes := by
    have h := @deserializeVector_map FilterJson.ValueType FilterJson.ValueType deserializeArgumentType serializeValueType id
      signature.argumentTypes (fun t _ => deserializeArgumentType_serialize t)
    rwa [List.map_id] at h
  change deserializeSignature (.object m) = _
  rw [deserializeSignature, h1, ok_bind, h2, ok_bind, h3, ok_bind]
  rfl

/-! ### Trees -/

lemma makeLogical_of_valid {operation : LogicalOperation} {arguments : List FilterJson.Node}
    (h : operation = .not → arguments.length = 1) :
    makeLogical operation arguments = .ok (.logical operation arguments) := by
  have hc : (!(decide (operation = .not) && arguments.length != 1)) = true := by
    by_cases ho : operation = .not
    · simp [ho, h ho]
    · simp [ho]
  rw [makeLogical, hc]
  rfl

lemma makeFunction_of_valid {signature : FilterJson.FunctionSignature} {arguments : List FilterJson.Node}
    (h : signature.argumentTypes.length = arguments.length) :
    makeFunction signature arguments = .ok (.function signature arguments) := by
  rw [makeFunction, decide_eq_true h]
  rfl

lemma makeScalarOverArray_of_valid {signature : FilterJson.FunctionSignature} {array : FilterJson.ArrayHolder}
    (h1 : 0 < array.2.length) (h2 : signature.argumentTypes.length = 2) (useOr : Bool) (scalar : FilterJson.Node) :
    makeScalarOverArray signature useOr scalar array = .ok (.scalarOverArray signature useOr scalar array) := by
  rw [makeScalarOverArray, decide_eq_true h1, decide_eq_true h2]
  rfl

mutual

/-- A written filter is read back, with its strings cut at their first zero byte. -/
theorem deserializeNode_serialize : ∀ (node : FilterJson.Node) (fuel : Nat), node.Valid →
    (serializeNode node).depth ≤ fuel → deserializeNode fuel (serializeNode node) = .ok (cutNode node)
  | .variable valueType columnName, fuel, _, hf => by
    rw [serializeNode] at hf ⊢
    rw [Json.depth] at hf
    obtain ⟨fuel, rfl⟩ : ∃ k, fuel = k + 1 := ⟨fuel - 1, by omega⟩
    set m := [(Field.kNodeType, serializeNodeType .variable), (Field.kValueType, serializeValueType valueType),
      (Field.kColumnName, serializeString columnName)] with hm
    have h1 : extract deserializeNodeType m Field.kNodeType = .ok .variable := deserializeNodeType_serialize _
    have h2 : extract deserializeValueType m Field.kValueType = .ok valueType := deserializeValueType_serialize _
    have h3 : extract deserializeString m Field.kColumnName = .ok (cString columnName) :=
      deserializeString_serialize _
    simp only [deserializeNode, h1, ok_bind, h2, h3]
    rfl
  | .const value, fuel, _, hf => by
    rw [serializeNode] at hf ⊢
    rw [Json.depth] at hf
    obtain ⟨fuel, rfl⟩ : ∃ k, fuel = k + 1 := ⟨fuel - 1, by omega⟩
    set m := [(Field.kNodeType, serializeNodeType .const), (Field.kValue, FilterJson.serializeValue value)] with hm
    have h1 : extract deserializeNodeType m Field.kNodeType = .ok .const := deserializeNodeType_serialize _
    have h2 : extract FilterJson.deserializeValue m Field.kValue = .ok ⟨value.1, value.2.map (cutPhysical value.1)⟩ :=
      deserializeValue_serialize _
    simp only [deserializeNode, h1, ok_bind, h2]
    rfl
  | .function signature arguments, fuel, hv, hf => by
    rw [serializeNode] at hf ⊢
    rw [Json.depth] at hf
    rw [FilterJson.Node.Valid] at hv
    obtain ⟨fuel, rfl⟩ : ∃ k, fuel = k + 1 := ⟨fuel - 1, by omega⟩
    set m := [(Field.kNodeType, serializeNodeType .function), (Field.kFunctionSignature, serializeSignature signature),
      (Field.kArguments, .array (serializeNodes arguments))] with hm
    have hd : (Json.array (serializeNodes arguments)).depth ≤ Json.depthMembers m :=
      @Json.depth_le_depthMembers (Field.kArguments, .array (serializeNodes arguments)) m (by simp [hm])
    rw [Json.depth] at hd
    have h1 : extract deserializeNodeType m Field.kNodeType = .ok .function := deserializeNodeType_serialize _
    have h2 : extract deserializeSignature m Field.kFunctionSignature = .ok signature :=
      deserializeSignature_serialize _
    have h3 : extract (deserializeVector (deserializeNode fuel)) m Field.kArguments = .ok (cutNodes arguments) :=
      deserializeNodes_serialize arguments fuel hv.2 (by omega)
    simp only [deserializeNode, h1, ok_bind, h2, h3]
    exact makeFunction_of_valid (by rw [length_cutNodes]; exact hv.1)
  | .scalarOverArray signature useOr scalar array, fuel, hv, hf => by
    rw [serializeNode] at hf ⊢
    rw [Json.depth] at hf
    rw [FilterJson.Node.Valid] at hv
    obtain ⟨fuel, rfl⟩ : ∃ k, fuel = k + 1 := ⟨fuel - 1, by omega⟩
    set m := [(Field.kNodeType, serializeNodeType .scalarOverArrayFunction),
      (Field.kFunctionSignature, serializeSignature signature), (Field.kUseOr, .bool useOr),
      (Field.kLhs, serializeNode scalar), (Field.kRhs, serializeArray array)] with hm
    have hd : (serializeNode scalar).depth ≤ Json.depthMembers m :=
      @Json.depth_le_depthMembers (Field.kLhs, serializeNode scalar) m (by simp [hm])
    have h1 : extract deserializeNodeType m Field.kNodeType = .ok .scalarOverArrayFunction :=
      deserializeNodeType_serialize _
    have h2 : extract deserializeSignature m Field.kFunctionSignature = .ok signature :=
      deserializeSignature_serialize _
    have h3 : extract deserializeBool m Field.kUseOr = .ok useOr := rfl
    have h4 : extract (deserializeNode fuel) m Field.kLhs = .ok (cutNode scalar) :=
      deserializeNode_serialize scalar fuel hv.2.2 (by omega)
    have h5 : extract deserializeArray m Field.kRhs =
        .ok ⟨array.1, array.2.map (Option.map (cutPhysical array.1))⟩ := deserializeArray_serialize _
    simp only [deserializeNode, h1, ok_bind, h2, h3, h4, h5]
    exact makeScalarOverArray_of_valid (by rw [List.length_map]; exact hv.1) hv.2.1 useOr _
  | .ifNode condition thenNode elseNode, fuel, hv, hf => by
    rw [serializeNode] at hf ⊢
    rw [Json.depth] at hf
    rw [FilterJson.Node.Valid] at hv
    obtain ⟨fuel, rfl⟩ : ∃ k, fuel = k + 1 := ⟨fuel - 1, by omega⟩
    set m := [(Field.kNodeType, serializeNodeType .ifNode), (Field.kCondition, serializeNode condition),
      (Field.kThen, serializeNode thenNode), (Field.kElse, serializeNode elseNode)] with hm
    have hd1 : (serializeNode condition).depth ≤ Json.depthMembers m :=
      @Json.depth_le_depthMembers (Field.kCondition, serializeNode condition) m (by simp [hm])
    have hd2 : (serializeNode thenNode).depth ≤ Json.depthMembers m :=
      @Json.depth_le_depthMembers (Field.kThen, serializeNode thenNode) m (by simp [hm])
    have hd3 : (serializeNode elseNode).depth ≤ Json.depthMembers m :=
      @Json.depth_le_depthMembers (Field.kElse, serializeNode elseNode) m (by simp [hm])
    have h1 : extract deserializeNodeType m Field.kNodeType = .ok .ifNode := deserializeNodeType_serialize _
    have h2 : extract (deserializeNode fuel) m Field.kCondition = .ok (cutNode condition) :=
      deserializeNode_serialize condition fuel hv.1 (by omega)
    have h3 : extract (deserializeNode fuel) m Field.kThen = .ok (cutNode thenNode) :=
      deserializeNode_serialize thenNode fuel hv.2.1 (by omega)
    have h4 : extract (deserializeNode fuel) m Field.kElse = .ok (cutNode elseNode) :=
      deserializeNode_serialize elseNode fuel hv.2.2 (by omega)
    simp only [deserializeNode, h1, ok_bind, h2, h3, h4]
    rfl
  | .logical operation arguments, fuel, hv, hf => by
    rw [serializeNode] at hf ⊢
    rw [Json.depth] at hf
    rw [FilterJson.Node.Valid] at hv
    obtain ⟨fuel, rfl⟩ : ∃ k, fuel = k + 1 := ⟨fuel - 1, by omega⟩
    set m := [(Field.kNodeType, serializeNodeType .logical),
      (Field.kLogicalOperation, serializeLogicalOperation operation),
      (Field.kArguments, .array (serializeNodes arguments))] with hm
    have hd : (Json.array (serializeNodes arguments)).depth ≤ Json.depthMembers m :=
      @Json.depth_le_depthMembers (Field.kArguments, .array (serializeNodes arguments)) m (by simp [hm])
    rw [Json.depth] at hd
    have h1 : extract deserializeNodeType m Field.kNodeType = .ok .logical := deserializeNodeType_serialize _
    have h2 : extract deserializeLogicalOperation m Field.kLogicalOperation = .ok operation :=
      deserializeLogicalOperation_serialize _
    have h3 : extract (deserializeVector (deserializeNode fuel)) m Field.kArguments = .ok (cutNodes arguments) :=
      deserializeNodes_serialize arguments fuel hv.2 (by omega)
    simp only [deserializeNode, h1, ok_bind, h2, h3]
    exact makeLogical_of_valid (by rw [length_cutNodes]; exact hv.1)

theorem deserializeNodes_serialize : ∀ (nodes : List FilterJson.Node) (fuel : Nat), Node.AllValid nodes →
    Json.depthElements (serializeNodes nodes) ≤ fuel →
    (serializeNodes nodes).mapM (deserializeNode fuel) = .ok (cutNodes nodes)
  | [], _, _, _ => rfl
  | node :: nodes, fuel, hv, hf => by
    rw [serializeNodes, Json.depthElements] at hf
    rw [Node.AllValid] at hv
    have h1 := deserializeNode_serialize node fuel hv.1 (le_trans (le_max_left _ _) hf)
    have h2 := deserializeNodes_serialize nodes fuel hv.2 (le_trans (le_max_right _ _) hf)
    rw [serializeNodes, List.mapM_cons, h1, ok_bind, h2, ok_bind]
    rfl

end

/-! ### Filters without zero bytes -/

def NoZeroByte (s : Bytes) : Prop := (0 : Byte) ∉ s

/-- A string or numeric value has no zero byte. -/
def PhysicalNulFree : (type : FilterJson.ValueType) → FilterJson.PhysicalType type → Prop
  | .numeric, value => NoZeroByte value
  | .string, value => NoZeroByte value
  | _, _ => True

mutual

/-- No column name, string or numeric of the filter contains a zero byte. -/
def NulFree : FilterJson.Node → Prop
  | .variable _ columnName => NoZeroByte columnName
  | .const value => ∀ v ∈ value.2, PhysicalNulFree value.1 v
  | .function _ arguments => AllNulFree arguments
  | .scalarOverArray _ _ scalar array => NulFree scalar ∧ ∀ o ∈ array.2, ∀ v ∈ o, PhysicalNulFree array.1 v
  | .ifNode condition thenNode elseNode => NulFree condition ∧ NulFree thenNode ∧ NulFree elseNode
  | .logical _ arguments => AllNulFree arguments

def AllNulFree : List FilterJson.Node → Prop
  | [] => True
  | node :: nodes => NulFree node ∧ AllNulFree nodes

end

lemma cutPhysical_eq_iff (type : FilterJson.ValueType) (value : FilterJson.PhysicalType type) :
    cutPhysical type value = value ↔ PhysicalNulFree type value := by
  cases type with
  | numeric => exact cString_eq_self_iff
  | string => exact cString_eq_self_iff
  | _ => exact ⟨fun _ => trivial, fun _ => rfl⟩

lemma option_map_eq_self_iff {α : Type} {f : α → α} {o : Option α} : o.map f = o ↔ ∀ a ∈ o, f a = a := by
  cases o with
  | none => simp
  | some a => simp

lemma list_map_eq_self_iff {α : Type} {f : α → α} {l : List α} : l.map f = l ↔ ∀ a ∈ l, f a = a := by
  induction l with
  | nil => simp
  | cons a l ih => simp [ih]

mutual

theorem cutNode_eq_iff : ∀ node : FilterJson.Node, cutNode node = node ↔ NulFree node
  | .variable _ columnName => by simp [cutNode, NulFree, NoZeroByte, cString_eq_self_iff]
  | .const ⟨type, value⟩ => by
    simp only [cutNode, NulFree, FilterJson.Node.const.injEq, Sigma.mk.injEq, heq_eq_eq, true_and,
      option_map_eq_self_iff, cutPhysical_eq_iff]
  | .function _ arguments => by simp [cutNode, NulFree, cutNodes_eq_iff arguments]
  | .scalarOverArray _ _ scalar ⟨type, array⟩ => by
    simp only [cutNode, NulFree, FilterJson.Node.scalarOverArray.injEq, Sigma.mk.injEq, heq_eq_eq, true_and,
      list_map_eq_self_iff, option_map_eq_self_iff, cutPhysical_eq_iff, cutNode_eq_iff scalar]
  | .ifNode condition thenNode elseNode => by
    simp [cutNode, NulFree, cutNode_eq_iff condition, cutNode_eq_iff thenNode, cutNode_eq_iff elseNode]
  | .logical _ arguments => by simp [cutNode, NulFree, cutNodes_eq_iff arguments]

theorem cutNodes_eq_iff : ∀ nodes : List FilterJson.Node, cutNodes nodes = nodes ↔ AllNulFree nodes
  | [] => by simp [cutNodes, AllNulFree]
  | node :: nodes => by simp [cutNodes, AllNulFree, cutNode_eq_iff node, cutNodes_eq_iff nodes]

end

/-- The text of an object is not empty: the empty text is a proper suffix of another object's. -/
lemma print_object_ne_nil (lib : JsonLibrary) (m : List (Bytes × Json)) : lib.print (.object m) ≠ [] := by
  intro h
  have hparse := lib.parse_print (.object m)
  rw [h] at hparse
  set m' := ([], Json.null) :: m with hm'
  have hne : lib.print (.object m') ≠ [] := by
    intro h'
    have h2 := lib.parse_print (.object m')
    rw [h', hparse] at h2
    simp [hm'] at h2
  have hnone := lib.parse_suffix m' (lib.print (.object m')) [] (List.append_nil _).symm hne
  rw [hparse] at hnone
  cases hnone

lemma serializeNode_object (node : FilterJson.Node) : ∃ m, serializeNode node = .object m := by
  cases node <;> exact ⟨_, by rw [serializeNode]⟩

/-- What the round trip makes of a filter. -/
lemma stringToFilter_filterToString (lib : JsonLibrary) (filter : Option FilterTree) :
    stringToFilter lib (filterToString lib (filter.map Subtype.val)) = .ok (filter.map (fun t => cutNode t.val)) := by
  cases filter with
  | none => rfl
  | some t =>
    obtain ⟨node, hv⟩ := t
    obtain ⟨m, hm⟩ := serializeNode_object node
    have hne : (lib.print (serializeNode node)).isEmpty = false := by
      rw [hm]
      simpa using print_object_ne_nil lib m
    have hd := deserializeNode_serialize node _ hv le_rfl
    simp only [Option.map_some, filterToString, cString_of_notMem (lib.zero_notMem_print _), stringToFilter, hne,
      lib.parse_print, Option.getD_some, hd, ok_bind]
    rfl

/-- A filter survives its JSON form exactly when none of its strings contains a zero byte. -/
theorem filter_roundTrip_iff (lib : JsonLibrary) (filter : Option FilterTree) :
    stringToFilter lib (filterToString lib (filter.map Subtype.val)) = .ok (filter.map Subtype.val) ↔
      ∀ t ∈ filter, NulFree t.val := by
  rw [stringToFilter_filterToString]
  cases filter with
  | none => simp
  | some t => simp [cutNode_eq_iff]

/-- A string constant with a zero byte in the middle. -/
def zeroByteFilter : FilterTree :=
  ⟨.const ⟨.string, some ([97, 0, 98] : Bytes)⟩, by rw [FilterJson.Node.Valid]; trivial⟩

/-- It comes back as the string before the zero byte. -/
theorem zeroByteFilter_roundTrip :
    stringToFilter compactJson (filterToString compactJson (some zeroByteFilter.val)) ≠ .ok (some zeroByteFilter.val) := by
  have h := stringToFilter_filterToString compactJson (some zeroByteFilter)
  rw [Option.map_some, Option.map_some] at h
  rw [h]
  intro he
  have hcut : cutNode zeroByteFilter.val = zeroByteFilter.val := Option.some.inj (Except.ok.inj he)
  have hfree := (cutNode_eq_iff _).mp hcut
  rw [zeroByteFilter, NulFree] at hfree
  have hmem : NoZeroByte [97, 0, 98] := hfree _ rfl
  exact absurd (show (0 : Byte) ∈ ([97, 0, 98] : Bytes) by decide) hmem

end IcebergCxx.Proofs

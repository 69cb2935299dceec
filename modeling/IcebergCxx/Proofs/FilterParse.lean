import IcebergCxx.FilterParse

/-!
# Where parsing a filter is defined

Every deserializer but that of nodes checks that its document is an object before it looks for a
member. So the parser is defined exactly when every value that it comes to as a node is an object;
then it returns a well-formed tree or throws.
-/

namespace IcebergCxx.Proofs

open Lib FilterJson

/-! ### Deserializers that are always defined -/

/-- The call is defined. -/
def IsDefined {α : Type} (x : Except Failure α) : Prop := x ≠ .error .undefined

lemma defined_ok {α : Type} (a : α) : IsDefined (.ok a : Except Failure α) := by simp [IsDefined]

lemma defined_thrown {α : Type} (message : String) : IsDefined (.error (.thrown message) : Except Failure α) := by
  simp [IsDefined]

lemma defined_bind {α β : Type} {x : Except Failure α} {f : α → Except Failure β} (hx : IsDefined x)
    (hf : ∀ a, x = .ok a → IsDefined (f a)) : IsDefined (x >>= f) := by
  intro h
  rcases bind_eq_undefined_iff.mp h with h | ⟨a, ha, h⟩
  · exact hx h
  · exact hf a ha h

lemma defined_throwing {α : Type} (x : Except String α) : IsDefined (throwing x) := throwing_ne_undefined x

lemma defined_require (condition : Bool) (message : String) : IsDefined (require condition message) := throwing_ne_undefined _

section

variable {Double α : Type} {f : Dom.Document Double → Except Failure α} {members : List (Bytes × Dom.Document Double)}
  {fieldName : Bytes}

lemma extract_some {value : Dom.Document Double} (h : Dom.Document.findMember fieldName members = some value) :
    Dom.extract f (.object members) fieldName = f value := by
  simp only [Dom.extract, Dom.hasMember, Dom.member, h, Option.isSome_some, Option.elim_some, ok_bind]
  rfl

lemma extract_none (h : Dom.Document.findMember fieldName members = none) :
    Dom.extract f (.object members) fieldName =
      .error (.thrown ("ExtractPrimitive: !document.HasMember(" ++ text fieldName ++ ")")) := by
  simp only [Dom.extract, Dom.hasMember, h, Option.isSome_none, ok_bind]
  rfl

lemma extract_eq_undefined_iff : Dom.extract f (.object members) fieldName = .error .undefined ↔
    ∃ value, Dom.Document.findMember fieldName members = some value ∧ f value = .error .undefined := by
  cases h : Dom.Document.findMember fieldName members with
  | none => simp [extract_none h]
  | some value => simp [extract_some h]

lemma extract_eq_ok_iff {a : α} : Dom.extract f (.object members) fieldName = .ok a ↔
    ∃ value, Dom.Document.findMember fieldName members = some value ∧ f value = .ok a := by
  cases h : Dom.Document.findMember fieldName members with
  | none => simp [extract_none h]
  | some value => simp [extract_some h]

lemma defined_extract (hf : ∀ value, IsDefined (f value)) : IsDefined (Dom.extract f (.object members) fieldName) := by
  intro h
  obtain ⟨value, -, hvalue⟩ := extract_eq_undefined_iff.mp h
  exact hf value hvalue

lemma defined_vector (hf : ∀ value, IsDefined (f value)) (document : Dom.Document Double) :
    IsDefined (Dom.deserializeVector f document) := by
  cases document with
  | array elements =>
    intro h
    obtain ⟨-, value, -, -, -, hvalue⟩ := mapM_eq_undefined_iff.mp h
    exact hf value hvalue
  | _ => exact defined_thrown _

lemma defined_optional (hf : ∀ value, IsDefined (f value)) (document : Dom.Document Double) :
    IsDefined (Dom.deserializeOptional f document) := by
  cases document with
  | null => exact defined_ok _
  | _ => exact defined_bind (hf _) (fun a _ => defined_ok _)

/-- A deserializer that starts with the check for an object. -/
lemma defined_of_ensureObject {message : String} {g : Dom.Document Double → Except Failure α}
    (hg : ∀ members, IsDefined (g (.object members))) (document : Dom.Document Double) :
    IsDefined (Dom.ensureObject message document >>= fun _ => g document) := by
  cases document with
  | object members => exact hg members
  | _ => exact defined_thrown _

end

section

variable {Double : Type}

lemma defined_bool (document : Dom.Document Double) : IsDefined (Dom.deserializeBool document) := by
  cases document <;> first | exact defined_ok _ | exact defined_thrown _

lemma defined_integer {α : Type} (low high : Int) (ofInt : Int → α) (document : Dom.Document Double) :
    IsDefined (Dom.deserializeInteger low high ofInt document) := by
  cases document with
  | int i =>
    simp only [Dom.deserializeInteger]
    split_ifs
    · exact defined_ok _
    · exact defined_thrown _
  | _ => exact defined_thrown _

lemma defined_string (document : Dom.Document Double) : IsDefined (Dom.deserializeString document) := by
  cases document <;> first | exact defined_ok _ | exact defined_thrown _

lemma defined_name {α : Type} (names : List (α × Bytes)) (document : Dom.Document Double) :
    IsDefined (Dom.deserializeName names document) :=
  defined_bind (defined_string document) (fun _ _ => defined_throwing _)

lemma defined_argumentType (document : Dom.Document Double) : IsDefined (Dom.deserializeArgumentType document) := by
  cases document <;> first | exact defined_throwing _ | exact defined_thrown _

lemma defined_interval (document : Dom.Document Double) : IsDefined (Dom.deserializeInterval document) := by
  apply defined_of_ensureObject
  intro members
  apply defined_bind (defined_extract (defined_integer _ _ _))
  intro months _
  apply defined_bind (defined_extract (defined_integer _ _ _))
  intro micros _
  exact defined_ok _

lemma defined_signature (document : Dom.Document Double) : IsDefined (Dom.deserializeSignature document) := by
  apply defined_of_ensureObject
  intro members
  apply defined_bind (defined_extract (defined_name _))
  intro functionId _
  apply defined_bind (defined_extract (defined_name _))
  intro returnType _
  apply defined_bind (defined_extract (defined_vector defined_argumentType))
  intro argumentTypes _
  exact defined_ok _

end

variable {lib : Dom.RapidJson}

lemma defined_physical (type : FilterJson.ValueType) (document : Dom.Document lib.Double) :
    IsDefined (Dom.deserializePhysical lib type document) := by
  cases type with
  | bool => exact defined_bool document
  | int2 | int4 | date | int8 | timestamp | timestamptz | time => exact defined_integer _ _ _ document
  | float4 =>
    cases document with
    | double d =>
      simp only [Dom.deserializePhysical]
      split_ifs
      · exact defined_ok _
      · exact defined_thrown _
    | _ => exact defined_thrown _
  | float8 =>
    cases document with
    | double d => exact defined_ok _
    | _ => exact defined_thrown _
  | numeric | string => exact defined_string document
  | interval => exact defined_interval document

lemma defined_value (document : Dom.Document lib.Double) : IsDefined (Dom.deserializeValue document) := by
  apply defined_of_ensureObject
  intro members
  apply defined_bind (defined_extract (defined_name _))
  intro valueType _
  apply defined_bind (defined_extract (defined_optional (defined_physical valueType)))
  intro value _
  exact defined_ok _

lemma defined_array (document : Dom.Document lib.Double) : IsDefined (Dom.deserializeArray document) := by
  apply defined_of_ensureObject
  intro members
  apply defined_bind (defined_extract (defined_name _))
  intro valueType _
  apply defined_bind (defined_extract (defined_vector (defined_optional (defined_physical valueType))))
  intro value _
  exact defined_ok _

lemma defined_makeLogical (operation : LogicalOperation) (arguments : List (Dom.Node lib)) :
    IsDefined (Dom.makeLogical operation arguments) :=
  defined_bind (defined_require _ _) (fun _ _ => defined_ok _)

lemma defined_makeFunction (signature : FilterJson.FunctionSignature) (arguments : List (Dom.Node lib)) :
    IsDefined (Dom.makeFunction signature arguments) :=
  defined_bind (defined_require _ _) (fun _ _ => defined_ok _)

lemma defined_makeScalarOverArray (signature : FilterJson.FunctionSignature) (useOr : Bool)
    (scalar : Dom.Node lib) (array : Dom.ArrayHolder lib) :
    IsDefined (Dom.makeScalarOverArray signature useOr scalar array) :=
  defined_bind (defined_require _ _) (fun _ _ => defined_bind (defined_require _ _) (fun _ _ => defined_ok _))

/-! ### Documents that describe a node -/

section

variable (members : List (Bytes × Dom.Document lib.Double))

/-- The members name a kind of node. -/
def HasKind (nodeType : NodeType) : Prop :=
  Dom.extract (Dom.deserializeName nodeTypeString) (.object members) Field.kNodeType = .ok nodeType

/-- The member with a name can be read. -/
def Reads {α : Type} (f : Dom.Document lib.Double → Except Failure α) (fieldName : Bytes) : Prop :=
  ∃ a, Dom.extract f (.object members) fieldName = .ok a

/-- The member with a name has the value. -/
def HasValue (fieldName : Bytes) (value : Dom.Document lib.Double) : Prop :=
  Dom.Document.findMember fieldName members = some value

/-- The members have a signature of so many arguments. -/
def HasArity (arity : Nat) : Prop :=
  ∃ signature, Dom.extract Dom.deserializeSignature (.object members) Field.kFunctionSignature = .ok signature ∧
    signature.argumentTypes.length = arity

end

/-- The documents of well-formed nodes. -/
inductive DescribesNode : Dom.Document lib.Double → Prop
  | const {members} (hkind : HasKind members .const) (hvalue : Reads members Dom.deserializeValue Field.kValue) :
    DescribesNode (.object members)
  | scalarOverArray {members lhs} (hkind : HasKind members .scalarOverArrayFunction) (harity : HasArity members 2)
    (huseOr : Reads members Dom.deserializeBool Field.kUseOr) (hlhs : HasValue members Field.kLhs lhs)
    (hscalar : DescribesNode lhs) (hrhs : ∃ array : Dom.ArrayHolder lib,
      Dom.extract Dom.deserializeArray (.object members) Field.kRhs = .ok array ∧ 0 < array.2.length) :
    DescribesNode (.object members)
  | variable {members} (hkind : HasKind members .variable)
    (htype : Reads members (Dom.deserializeName valueTypeString) Field.kValueType)
    (hname : Reads members Dom.deserializeString Field.kColumnName) : DescribesNode (.object members)
  | ifNode {members condition thenNode elseNode} (hkind : HasKind members .ifNode)
    (hcondition : HasValue members Field.kCondition condition) (hthen : HasValue members Field.kThen thenNode)
    (helse : HasValue members Field.kElse elseNode) (h1 : DescribesNode condition) (h2 : DescribesNode thenNode)
    (h3 : DescribesNode elseNode) : DescribesNode (.object members)
  | function {members arguments} (hkind : HasKind members .function) (harity : HasArity members arguments.length)
    (hvalue : HasValue members Field.kArguments (.array arguments))
    (harguments : ∀ argument ∈ arguments, DescribesNode argument) : DescribesNode (.object members)
  | logical {members operation arguments} (hkind : HasKind members .logical)
    (hoperation : Dom.extract (Dom.deserializeName logicalOpString) (.object members) Field.kLogicalOperation =
      .ok operation) (hvalue : HasValue members Field.kArguments (.array arguments))
    (hnot : operation = .not → arguments.length = 1)
    (harguments : ∀ argument ∈ arguments, DescribesNode argument) : DescribesNode (.object members)

/-- A value that the parser comes to as a child of a node: all that it reads before is well formed. -/
inductive NodeChild : Dom.Document lib.Double → Dom.Document lib.Double → Prop
  | lhs {members value} (hkind : HasKind members .scalarOverArrayFunction)
    (hsignature : Reads members Dom.deserializeSignature Field.kFunctionSignature)
    (huseOr : Reads members Dom.deserializeBool Field.kUseOr) (hvalue : HasValue members Field.kLhs value) :
    NodeChild (.object members) value
  | condition {members value} (hkind : HasKind members .ifNode) (hvalue : HasValue members Field.kCondition value) :
    NodeChild (.object members) value
  | thenNode {members condition value} (hkind : HasKind members .ifNode)
    (hcondition : HasValue members Field.kCondition condition) (h1 : DescribesNode condition)
    (hvalue : HasValue members Field.kThen value) : NodeChild (.object members) value
  | elseNode {members condition thenNode value} (hkind : HasKind members .ifNode)
    (hcondition : HasValue members Field.kCondition condition) (h1 : DescribesNode condition)
    (hthen : HasValue members Field.kThen thenNode) (h2 : DescribesNode thenNode)
    (hvalue : HasValue members Field.kElse value) : NodeChild (.object members) value
  | functionArgument {members before value after} (hkind : HasKind members .function)
    (hsignature : Reads members Dom.deserializeSignature Field.kFunctionSignature)
    (harguments : HasValue members Field.kArguments (.array (before ++ value :: after)))
    (hbefore : ∀ argument ∈ before, DescribesNode argument) : NodeChild (.object members) value
  | logicalArgument {members before value after} (hkind : HasKind members .logical)
    (hoperation : Reads members (Dom.deserializeName logicalOpString) Field.kLogicalOperation)
    (harguments : HasValue members Field.kArguments (.array (before ++ value :: after)))
    (hbefore : ∀ argument ∈ before, DescribesNode argument) : NodeChild (.object members) value

lemma HasKind.unique {members : List (Bytes × Dom.Document lib.Double)} {nodeType nodeType' : NodeType}
    (h : HasKind members nodeType) (h' : HasKind members nodeType') : nodeType = nodeType' :=
  Except.ok.inj (h.symm.trans h')

/-! ### Nesting -/

lemma depth_lt_of_hasValue {members : List (Bytes × Dom.Document lib.Double)} {fieldName : Bytes}
    {value : Dom.Document lib.Double} (h : HasValue members fieldName value) :
    value.depth < (Dom.Document.object members).depth := by
  unfold HasValue at h
  rw [Dom.Document.depth, Nat.lt_succ_iff]
  induction members with
  | nil => cases h
  | cons kv members ih =>
    obtain ⟨k, v⟩ := kv
    rw [Dom.Document.depthMembers]
    rw [Dom.Document.findMember] at h
    split_ifs at h with hk
    · cases h
      exact le_max_left _ _
    · exact (ih h).trans (le_max_right _ _)

lemma depth_lt_of_mem {elements : List (Dom.Document lib.Double)} {value : Dom.Document lib.Double}
    (h : value ∈ elements) : value.depth < (Dom.Document.array elements).depth := by
  rw [Dom.Document.depth, Nat.lt_succ_iff]
  induction elements with
  | nil => cases h
  | cons e elements ih =>
    rw [Dom.Document.depthElements]
    rcases List.mem_cons.mp h with rfl | h
    · exact le_max_left _ _
    · exact (ih h).trans (le_max_right _ _)

lemma depth_lt_of_nodeChild {document value : Dom.Document lib.Double} (h : NodeChild document value) :
    value.depth < document.depth := by
  cases h with
  | lhs _ _ _ hvalue | condition _ hvalue | thenNode _ _ _ hvalue | elseNode _ _ _ _ _ hvalue =>
    exact depth_lt_of_hasValue hvalue
  | functionArgument _ _ hvalue _ | logicalArgument _ _ hvalue _ =>
    exact (depth_lt_of_mem (by simp)).trans (depth_lt_of_hasValue hvalue)

lemma depth_pos (document : Dom.Document lib.Double) : 0 < document.depth := by
  cases document <;> simp [Dom.Document.depth]

/-! ### One level of the parser -/

lemma require_ok_iff {condition : Bool} {message : String} {u : Unit} :
    require condition message = .ok u ↔ condition = true := by
  cases condition with
  | true => simp [require, ensure]
  | false => simp [require, ensure]

lemma makeLogical_ok_iff {operation : LogicalOperation} {arguments : List (Dom.Node lib)} {node : Dom.Node lib} :
    Dom.makeLogical operation arguments = .ok node ↔
      (operation = .not → arguments.length = 1) ∧ .logical operation arguments = node := by
  simp [Dom.makeLogical, bind_eq_ok_iff, require_ok_iff, pure, Except.pure, imp_iff_not_or]

lemma makeFunction_ok_iff {signature : FilterJson.FunctionSignature} {arguments : List (Dom.Node lib)}
    {node : Dom.Node lib} : Dom.makeFunction signature arguments = .ok node ↔
      signature.argumentTypes.length = arguments.length ∧ .function signature arguments = node := by
  simp [Dom.makeFunction, bind_eq_ok_iff, require_ok_iff, pure, Except.pure]

lemma makeScalarOverArray_ok_iff {signature : FilterJson.FunctionSignature} {useOr : Bool} {scalar : Dom.Node lib}
    {array : Dom.ArrayHolder lib} {node : Dom.Node lib} :
    Dom.makeScalarOverArray signature useOr scalar array = .ok node ↔
      0 < array.2.length ∧ signature.argumentTypes.length = 2 ∧ .scalarOverArray signature useOr scalar array = node := by
  simp [Dom.makeScalarOverArray, bind_eq_ok_iff, require_ok_iff, pure, Except.pure]

/-- A parser that accepts, among the documents of a smaller depth, those that describe a node. -/
def AcceptsBelow (depth : Nat) (parseNode : Dom.Document lib.Double → Except Failure (Dom.Node lib)) : Prop :=
  ∀ value, value.depth < depth → ((∃ node, parseNode value = .ok node) ↔ DescribesNode value)

section

variable {parseNode : Dom.Document lib.Double → Except Failure (Dom.Node lib)}
  {members : List (Bytes × Dom.Document lib.Double)} {fieldName : Bytes}

lemma vector_ok_iff {l : List (Dom.Node lib)} :
    Dom.extract (Dom.deserializeVector parseNode) (.object members) fieldName = .ok l ↔
      ∃ elements, HasValue members fieldName (.array elements) ∧
        List.Forall₂ (fun e a => parseNode e = .ok a) elements l := by
  rw [extract_eq_ok_iff]
  constructor
  · rintro ⟨value, hvalue, h⟩
    cases value with
    | array elements => exact ⟨elements, hvalue, mapM_ok_iff.mp h⟩
    | _ => cases h
  · rintro ⟨elements, hvalue, h⟩
    exact ⟨.array elements, hvalue, mapM_ok_iff.mpr h⟩

lemma vector_undefined_iff :
    Dom.extract (Dom.deserializeVector parseNode) (.object members) fieldName = .error .undefined ↔
      ∃ before value after, HasValue members fieldName (.array (before ++ value :: after)) ∧
        (∀ w ∈ before, ∃ a, parseNode w = .ok a) ∧ parseNode value = .error .undefined := by
  rw [extract_eq_undefined_iff]
  constructor
  · rintro ⟨value, hvalue, h⟩
    cases value with
    | array elements =>
      obtain ⟨before, value, after, rfl, hbefore, h⟩ := mapM_eq_undefined_iff.mp h
      exact ⟨before, value, after, hvalue, hbefore, h⟩
    | _ => cases h
  · rintro ⟨before, value, after, hvalue, hbefore, h⟩
    exact ⟨_, hvalue, mapM_eq_undefined_iff.mpr ⟨before, value, after, rfl, hbefore, h⟩⟩

lemma exists_forall₂_iff {α β : Type} {R : α → β → Prop} {l : List α} :
    (∃ l', List.Forall₂ R l l') ↔ ∀ a ∈ l, ∃ b, R a b := by
  induction l with
  | nil => simp
  | cons a l ih =>
    rw [List.forall_mem_cons, ← ih]
    constructor
    · rintro ⟨l', h⟩
      cases h with
      | cons hb hl => exact ⟨⟨_, hb⟩, _, hl⟩
    · rintro ⟨⟨b, hb⟩, l', hl⟩
      exact ⟨b :: l', .cons hb hl⟩

/-! What each kind of node is read from. -/

lemma deserializeConst_ok_iff {node : Dom.Node lib} :
    Dom.deserializeKind parseNode (.object members) .const = .ok node ↔
      ∃ value, Dom.extract Dom.deserializeValue (.object members) Field.kValue = .ok value ∧ .const value = node := by
  simp only [Dom.deserializeKind, Dom.ensureObject, ok_bind, bind_eq_ok_iff, pure, Except.pure, Except.ok.injEq]

lemma deserializeVariable_ok_iff {node : Dom.Node lib} :
    Dom.deserializeKind parseNode (.object members) .variable = .ok node ↔
      ∃ valueType, Dom.extract (Dom.deserializeName valueTypeString) (.object members) Field.kValueType =
        .ok valueType ∧ ∃ columnName, Dom.extract Dom.deserializeString (.object members) Field.kColumnName =
          .ok columnName ∧ .variable valueType columnName = node := by
  simp only [Dom.deserializeKind, Dom.ensureObject, ok_bind, bind_eq_ok_iff, pure, Except.pure, Except.ok.injEq]

lemma deserializeScalarOverArray_ok_iff {node : Dom.Node lib} :
    Dom.deserializeKind parseNode (.object members) .scalarOverArrayFunction = .ok node ↔
      ∃ signature, Dom.extract Dom.deserializeSignature (.object members) Field.kFunctionSignature = .ok signature ∧
        ∃ useOr, Dom.extract Dom.deserializeBool (.object members) Field.kUseOr = .ok useOr ∧
          ∃ scalar, (∃ lhs, HasValue members Field.kLhs lhs ∧ parseNode lhs = .ok scalar) ∧
            ∃ array, Dom.extract Dom.deserializeArray (.object members) Field.kRhs = .ok array ∧
              0 < array.2.length ∧ signature.argumentTypes.length = 2 ∧
                .scalarOverArray signature useOr scalar array = node := by
  simp only [Dom.deserializeKind, Dom.ensureObject, ok_bind, bind_eq_ok_iff, makeScalarOverArray_ok_iff,
    extract_eq_ok_iff (f := parseNode), HasValue]

lemma deserializeIf_ok_iff {node : Dom.Node lib} :
    Dom.deserializeKind parseNode (.object members) .ifNode = .ok node ↔
      ∃ condition, (∃ value, HasValue members Field.kCondition value ∧ parseNode value = .ok condition) ∧
        ∃ thenNode, (∃ value, HasValue members Field.kThen value ∧ parseNode value = .ok thenNode) ∧
          ∃ elseNode, (∃ value, HasValue members Field.kElse value ∧ parseNode value = .ok elseNode) ∧
            .ifNode condition thenNode elseNode = node := by
  simp only [Dom.deserializeKind, Dom.ensureObject, ok_bind, bind_eq_ok_iff, extract_eq_ok_iff, HasValue, pure,
    Except.pure, Except.ok.injEq]

lemma deserializeFunction_ok_iff {node : Dom.Node lib} :
    Dom.deserializeKind parseNode (.object members) .function = .ok node ↔
      ∃ signature, Dom.extract Dom.deserializeSignature (.object members) Field.kFunctionSignature = .ok signature ∧
        ∃ arguments, (∃ elements, HasValue members Field.kArguments (.array elements) ∧
          List.Forall₂ (fun e a => parseNode e = .ok a) elements arguments) ∧
            signature.argumentTypes.length = arguments.length ∧ .function signature arguments = node := by
  simp only [Dom.deserializeKind, Dom.ensureObject, ok_bind, bind_eq_ok_iff, makeFunction_ok_iff, vector_ok_iff]

lemma deserializeLogical_ok_iff {node : Dom.Node lib} :
    Dom.deserializeKind parseNode (.object members) .logical = .ok node ↔
      ∃ operation, Dom.extract (Dom.deserializeName logicalOpString) (.object members) Field.kLogicalOperation =
        .ok operation ∧ ∃ arguments, (∃ elements, HasValue members Field.kArguments (.array elements) ∧
          List.Forall₂ (fun e a => parseNode e = .ok a) elements arguments) ∧
            (operation = .not → arguments.length = 1) ∧ .logical operation arguments = node := by
  simp only [Dom.deserializeKind, Dom.ensureObject, ok_bind, bind_eq_ok_iff, makeLogical_ok_iff, vector_ok_iff]

variable (haccepts : AcceptsBelow (Dom.Document.object members).depth parseNode)
include haccepts

lemma accepts_member {value : Dom.Document lib.Double} (hvalue : HasValue members fieldName value) :
    (∃ node, parseNode value = .ok node) ↔ DescribesNode value :=
  haccepts value (depth_lt_of_hasValue hvalue)

lemma accepts_element {elements : List (Dom.Document lib.Double)} {value : Dom.Document lib.Double}
    (hvalue : HasValue members fieldName (.array elements)) (h : value ∈ elements) :
    (∃ node, parseNode value = .ok node) ↔ DescribesNode value :=
  haccepts value ((depth_lt_of_mem h).trans (depth_lt_of_hasValue hvalue))

lemma accepts_elements {elements : List (Dom.Document lib.Double)}
    (hvalue : HasValue members fieldName (.array elements)) :
    (∃ l, List.Forall₂ (fun e a => parseNode e = .ok a) elements l) ↔ ∀ e ∈ elements, DescribesNode e := by
  rw [exists_forall₂_iff]
  exact forall₂_congr (fun e he => accepts_element haccepts hvalue he)

lemma accepts_before {before after : List (Dom.Document lib.Double)} {value : Dom.Document lib.Double}
    (hvalue : HasValue members fieldName (.array (before ++ value :: after))) :
    (∀ e ∈ before, ∃ node, parseNode e = .ok node) ↔ ∀ e ∈ before, DescribesNode e :=
  forall₂_congr (fun _ he => accepts_element haccepts hvalue (List.mem_append_left _ he))

/-- What one level accepts describes a node. -/
lemma describesNode_of_deserializeKind {nodeType : NodeType} (hkind : HasKind members nodeType) {node : Dom.Node lib}
    (h : Dom.deserializeKind parseNode (.object members) nodeType = .ok node) :
    DescribesNode (.object members) := by
  cases nodeType with
  | const =>
    obtain ⟨value, hvalue, -⟩ := deserializeConst_ok_iff.mp h
    exact .const hkind ⟨value, hvalue⟩
  | «variable» =>
    obtain ⟨valueType, htype, columnName, hname, -⟩ := deserializeVariable_ok_iff.mp h
    exact .variable hkind ⟨valueType, htype⟩ ⟨columnName, hname⟩
  | scalarOverArrayFunction =>
    obtain ⟨signature, hsignature, useOr, huseOr, scalar, ⟨lhs, hlhs, hscalar⟩, array, harray, hsize, harity, -⟩ :=
      deserializeScalarOverArray_ok_iff.mp h
    have hlhs' := (accepts_member haccepts hlhs).mp ⟨scalar, hscalar⟩
    exact .scalarOverArray hkind ⟨signature, hsignature, harity⟩ ⟨useOr, huseOr⟩ hlhs hlhs' ⟨array, harray, hsize⟩
  | ifNode =>
    obtain ⟨_, ⟨v₁, h₁, hcondition⟩, _, ⟨v₂, h₂, hthen⟩, _, ⟨v₃, h₃, helse⟩, -⟩ := deserializeIf_ok_iff.mp h
    exact .ifNode hkind h₁ h₂ h₃ ((accepts_member haccepts h₁).mp ⟨_, hcondition⟩)
      ((accepts_member haccepts h₂).mp ⟨_, hthen⟩) ((accepts_member haccepts h₃).mp ⟨_, helse⟩)
  | function =>
    obtain ⟨signature, hsignature, arguments, ⟨elements, helements, h⟩, harity, -⟩ := deserializeFunction_ok_iff.mp h
    rw [← h.length_eq] at harity
    exact .function hkind ⟨signature, hsignature, harity⟩ helements
      ((accepts_elements haccepts helements).mp ⟨arguments, h⟩)
  | logical =>
    obtain ⟨operation, hoperation, arguments, ⟨elements, helements, h⟩, hnot, -⟩ := deserializeLogical_ok_iff.mp h
    rw [← h.length_eq] at hnot
    exact .logical hkind hoperation helements hnot ((accepts_elements haccepts helements).mp ⟨arguments, h⟩)

/-- One level accepts what describes a node. -/
lemma deserializeKind_of_describesNode {nodeType : NodeType} (hkind : HasKind members nodeType)
    (h : DescribesNode (.object members)) :
    ∃ node, Dom.deserializeKind parseNode (.object members) nodeType = .ok node := by
  cases h with
  | const hkind' hvalue =>
    obtain rfl := hkind.unique hkind'
    obtain ⟨value, hvalue⟩ := hvalue
    exact ⟨_, deserializeConst_ok_iff.mpr ⟨value, hvalue, rfl⟩⟩
  | «variable» hkind' htype hname =>
    obtain rfl := hkind.unique hkind'
    obtain ⟨valueType, htype⟩ := htype
    obtain ⟨columnName, hname⟩ := hname
    exact ⟨_, deserializeVariable_ok_iff.mpr ⟨valueType, htype, columnName, hname, rfl⟩⟩
  | scalarOverArray hkind' harity huseOr hlhs hscalar hrhs =>
    obtain rfl := hkind.unique hkind'
    obtain ⟨signature, hsignature, harity⟩ := harity
    obtain ⟨useOr, huseOr⟩ := huseOr
    obtain ⟨scalar, hscalar⟩ := (accepts_member haccepts hlhs).mpr hscalar
    obtain ⟨array, harray, hsize⟩ := hrhs
    exact ⟨_, deserializeScalarOverArray_ok_iff.mpr
      ⟨signature, hsignature, useOr, huseOr, scalar, ⟨_, hlhs, hscalar⟩, array, harray, hsize, harity, rfl⟩⟩
  | ifNode hkind' h₁ h₂ h₃ hcondition hthen helse =>
    obtain rfl := hkind.unique hkind'
    obtain ⟨conditionNode, hcondition⟩ := (accepts_member haccepts h₁).mpr hcondition
    obtain ⟨thenNode, hthen⟩ := (accepts_member haccepts h₂).mpr hthen
    obtain ⟨elseNode, helse⟩ := (accepts_member haccepts h₃).mpr helse
    exact ⟨_, deserializeIf_ok_iff.mpr
      ⟨conditionNode, ⟨_, h₁, hcondition⟩, thenNode, ⟨_, h₂, hthen⟩, elseNode, ⟨_, h₃, helse⟩, rfl⟩⟩
  | function hkind' harity helements harguments =>
    obtain rfl := hkind.unique hkind'
    obtain ⟨signature, hsignature, harity⟩ := harity
    obtain ⟨arguments, h⟩ := (accepts_elements haccepts helements).mpr harguments
    rw [h.length_eq] at harity
    exact ⟨_, deserializeFunction_ok_iff.mpr ⟨signature, hsignature, arguments, ⟨_, helements, h⟩, harity, rfl⟩⟩
  | logical hkind' hoperation helements hnot harguments =>
    obtain rfl := hkind.unique hkind'
    obtain ⟨arguments, h⟩ := (accepts_elements haccepts helements).mpr harguments
    rw [h.length_eq] at hnot
    exact ⟨_, deserializeLogical_ok_iff.mpr ⟨_, hoperation, arguments, ⟨_, helements, h⟩, hnot, rfl⟩⟩

/-- Where one level is undefined, a child is. -/
lemma exists_child_of_undefined {nodeType : NodeType} (hkind : HasKind members nodeType)
    (h : Dom.deserializeKind parseNode (.object members) nodeType = .error .undefined) :
    ∃ value, NodeChild (.object members) value ∧ parseNode value = .error .undefined := by
  cases nodeType <;> simp only [Dom.deserializeKind, Dom.ensureObject, ok_bind] at h
  case const => exact absurd h (defined_bind (defined_extract defined_value) (fun _ _ => defined_ok _))
  case «variable» =>
    refine absurd h (defined_bind (defined_extract (defined_name _)) (fun valueType _ => ?_))
    exact defined_bind (defined_extract defined_string) (fun _ _ => defined_ok _)
  case scalarOverArrayFunction =>
    rcases bind_eq_undefined_iff.mp h with h | ⟨signature, hsignature, h⟩
    · exact absurd h (defined_extract defined_signature)
    rcases bind_eq_undefined_iff.mp h with h | ⟨useOr, huseOr, h⟩
    · exact absurd h (defined_extract defined_bool)
    rcases bind_eq_undefined_iff.mp h with h | ⟨scalar, -, h⟩
    · obtain ⟨lhs, hlhs, h⟩ := extract_eq_undefined_iff.mp h
      exact ⟨lhs, .lhs hkind ⟨signature, hsignature⟩ ⟨useOr, huseOr⟩ hlhs, h⟩
    · refine absurd h (defined_bind (defined_extract defined_array) (fun array _ => ?_))
      exact defined_makeScalarOverArray signature useOr scalar array
  case ifNode =>
    rcases bind_eq_undefined_iff.mp h with h | ⟨_, hcondition, h⟩
    · obtain ⟨value, hvalue, h⟩ := extract_eq_undefined_iff.mp h
      exact ⟨value, .condition hkind hvalue, h⟩
    obtain ⟨condition, h₁, hcondition⟩ := extract_eq_ok_iff.mp hcondition
    have hcondition' := (accepts_member haccepts h₁).mp ⟨_, hcondition⟩
    rcases bind_eq_undefined_iff.mp h with h | ⟨_, hthen, h⟩
    · obtain ⟨value, hvalue, h⟩ := extract_eq_undefined_iff.mp h
      exact ⟨value, .thenNode hkind h₁ hcondition' hvalue, h⟩
    obtain ⟨thenNode, h₂, hthen⟩ := extract_eq_ok_iff.mp hthen
    have hthen' := (accepts_member haccepts h₂).mp ⟨_, hthen⟩
    rcases bind_eq_undefined_iff.mp h with h | ⟨_, -, h⟩
    · obtain ⟨value, hvalue, h⟩ := extract_eq_undefined_iff.mp h
      exact ⟨value, .elseNode hkind h₁ hcondition' h₂ hthen' hvalue, h⟩
    · cases h
  case function =>
    rcases bind_eq_undefined_iff.mp h with h | ⟨signature, hsignature, h⟩
    · exact absurd h (defined_extract defined_signature)
    rcases bind_eq_undefined_iff.mp h with h | ⟨arguments, -, h⟩
    · obtain ⟨before, value, after, hvalue, hbefore, h⟩ := vector_undefined_iff.mp h
      have hbefore' := (accepts_before haccepts hvalue).mp hbefore
      exact ⟨value, .functionArgument hkind ⟨signature, hsignature⟩ hvalue hbefore', h⟩
    · exact absurd h (defined_makeFunction signature arguments)
  case logical =>
    rcases bind_eq_undefined_iff.mp h with h | ⟨operation, hoperation, h⟩
    · exact absurd h (defined_extract (defined_name _))
    rcases bind_eq_undefined_iff.mp h with h | ⟨arguments, -, h⟩
    · obtain ⟨before, value, after, hvalue, hbefore, h⟩ := vector_undefined_iff.mp h
      have hbefore' := (accepts_before haccepts hvalue).mp hbefore
      exact ⟨value, .logicalArgument hkind ⟨operation, hoperation⟩ hvalue hbefore', h⟩
    · exact absurd h (defined_makeLogical operation arguments)

/-- Where a child is undefined, the level is. -/
lemma undefined_of_child {nodeType : NodeType} (hkind : HasKind members nodeType) {value : Dom.Document lib.Double}
    (hchild : NodeChild (.object members) value) (h : parseNode value = .error .undefined) :
    Dom.deserializeKind parseNode (.object members) nodeType = .error .undefined := by
  cases hchild with
  | lhs hkind' hsignature huseOr hvalue =>
    obtain rfl := hkind.unique hkind'
    obtain ⟨signature, hsignature⟩ := hsignature
    obtain ⟨useOr, huseOr⟩ := huseOr
    simp only [Dom.deserializeKind, Dom.ensureObject, ok_bind, hsignature, huseOr]
    rw [extract_eq_undefined_iff.mpr ⟨value, hvalue, h⟩, error_bind]
  | condition hkind' hvalue =>
    obtain rfl := hkind.unique hkind'
    simp only [Dom.deserializeKind, Dom.ensureObject, ok_bind]
    rw [extract_eq_undefined_iff.mpr ⟨value, hvalue, h⟩, error_bind]
  | thenNode hkind' h₁ hcondition hvalue =>
    obtain rfl := hkind.unique hkind'
    obtain ⟨_, hcondition⟩ := (accepts_member haccepts h₁).mpr hcondition
    simp only [Dom.deserializeKind, Dom.ensureObject, ok_bind, extract_eq_ok_iff.mpr ⟨_, h₁, hcondition⟩]
    rw [extract_eq_undefined_iff.mpr ⟨value, hvalue, h⟩, error_bind]
  | elseNode hkind' h₁ hcondition h₂ hthen hvalue =>
    obtain rfl := hkind.unique hkind'
    obtain ⟨_, hcondition⟩ := (accepts_member haccepts h₁).mpr hcondition
    obtain ⟨_, hthen⟩ := (accepts_member haccepts h₂).mpr hthen
    simp only [Dom.deserializeKind, Dom.ensureObject, ok_bind, extract_eq_ok_iff.mpr ⟨_, h₁, hcondition⟩,
      extract_eq_ok_iff.mpr ⟨_, h₂, hthen⟩]
    rw [extract_eq_undefined_iff.mpr ⟨value, hvalue, h⟩, error_bind]
  | functionArgument hkind' hsignature hvalue hbefore =>
    obtain rfl := hkind.unique hkind'
    obtain ⟨signature, hsignature⟩ := hsignature
    have hbefore' := (accepts_before haccepts hvalue).mpr hbefore
    simp only [Dom.deserializeKind, Dom.ensureObject, ok_bind, hsignature]
    rw [vector_undefined_iff.mpr ⟨_, value, _, hvalue, hbefore', h⟩, error_bind]
  | logicalArgument hkind' hoperation hvalue hbefore =>
    obtain rfl := hkind.unique hkind'
    obtain ⟨operation, hoperation⟩ := hoperation
    have hbefore' := (accepts_before haccepts hvalue).mpr hbefore
    simp only [Dom.deserializeKind, Dom.ensureObject, ok_bind, hoperation]
    rw [vector_undefined_iff.mpr ⟨_, value, _, hvalue, hbefore', h⟩, error_bind]

end

/-! ### The whole parser -/

lemma deserializeNode_object {fuel : Nat} {members : List (Bytes × Dom.Document lib.Double)} {nodeType : NodeType}
    (hkind : HasKind members nodeType) : Dom.deserializeNode (fuel + 1) (.object members) =
      Dom.deserializeKind (Dom.deserializeNode fuel) (.object members) nodeType := by
  unfold HasKind at hkind
  rw [Dom.deserializeNode, hkind, ok_bind]

lemma describesNode_hasKind {members : List (Bytes × Dom.Document lib.Double)}
    (h : DescribesNode (.object members)) : ∃ nodeType, HasKind members nodeType := by
  cases h <;> exact ⟨_, by assumption⟩

lemma nodeChild_hasKind {members : List (Bytes × Dom.Document lib.Double)} {value : Dom.Document lib.Double}
    (h : NodeChild (.object members) value) : ∃ nodeType, HasKind members nodeType := by
  cases h <;> exact ⟨_, by assumption⟩

lemma deserializeNode_of_not_isObject {document : Dom.Document lib.Double} (h : ¬document.IsObject) (fuel : Nat) :
    Dom.deserializeNode fuel document = .error .undefined := by
  cases fuel with
  | zero => rfl
  | succ fuel =>
    cases document with
    | object members => exact absurd trivial h
    | _ => rfl

/-- The parser accepts the documents that describe a node. -/
lemma deserializeNode_acceptsBelow (fuel : Nat) :
    AcceptsBelow (fuel + 1) (Dom.deserializeNode fuel : Dom.Document lib.Double → _) := by
  induction fuel with
  | zero =>
    intro document hdepth
    have := depth_pos document
    omega
  | succ fuel ih =>
    intro document hdepth
    cases document with
    | object members =>
      have haccepts : AcceptsBelow (Dom.Document.object members).depth
          (Dom.deserializeNode fuel : Dom.Document lib.Double → _) :=
        fun value hvalue => ih value (by omega)
      constructor
      · rintro ⟨node, h⟩
        obtain ⟨nodeType, hkind, h⟩ := bind_ok h
        exact describesNode_of_deserializeKind haccepts hkind h
      · intro h
        obtain ⟨nodeType, hkind⟩ := describesNode_hasKind h
        rw [deserializeNode_object hkind]
        exact deserializeKind_of_describesNode haccepts hkind h
    | _ =>
      constructor
      · rintro ⟨node, h⟩
        cases h
      · intro h
        cases h

/-- The parser is undefined exactly where it comes to a value that is not an object. -/
lemma deserializeNode_undefined_iff {fuel : Nat} {document : Dom.Document lib.Double} (hdepth : document.depth ≤ fuel) :
    Dom.deserializeNode fuel document = .error .undefined ↔
      ∃ value, Relation.ReflTransGen NodeChild document value ∧ ¬value.IsObject := by
  -- The induction is on the fuel: a child is nested less deeply than its node.
  induction fuel generalizing document with
  | zero =>
    have := depth_pos document
    omega
  | succ fuel ih =>
    cases document with
    | object members =>
      have haccepts : AcceptsBelow (Dom.Document.object members).depth
          (Dom.deserializeNode fuel : Dom.Document lib.Double → _) :=
        fun value hvalue => deserializeNode_acceptsBelow fuel value (by omega)
      constructor
      · intro h
        rcases bind_eq_undefined_iff.mp h with h | ⟨nodeType, hkind, h⟩
        · exact absurd h (defined_extract (defined_name _))
        obtain ⟨child, hchild, h⟩ := exists_child_of_undefined haccepts hkind h
        obtain ⟨value, hvalue, hobject⟩ := (ih (by have := depth_lt_of_nodeChild hchild; omega)).mp h
        exact ⟨value, .head hchild hvalue, hobject⟩
      · rintro ⟨value, hvalue, hobject⟩
        rcases hvalue.cases_head with rfl | ⟨child, hchild, hvalue⟩
        · exact absurd trivial hobject
        obtain ⟨nodeType, hkind⟩ := nodeChild_hasKind hchild
        rw [deserializeNode_object hkind]
        refine undefined_of_child haccepts hkind hchild ?_
        exact (ih (by have := depth_lt_of_nodeChild hchild; omega)).mpr ⟨value, hvalue, hobject⟩
    | _ =>
      constructor
      · intro _
        exact ⟨_, .refl, id⟩
      · intro _
        exact deserializeNode_of_not_isObject id _

/-! ### Well-formed trees -/

lemma allValid_of_forall₂ {parseNode : Dom.Document lib.Double → Except Failure (Dom.Node lib)}
    (hvalid : ∀ value node, parseNode value = .ok node → node.Valid) {elements : List (Dom.Document lib.Double)}
    {nodes : List (Dom.Node lib)} (h : List.Forall₂ (fun e a => parseNode e = .ok a) elements nodes) :
    Dom.Node.AllValid nodes := by
  induction h with
  | nil => exact trivial
  | cons hnode _ ih => exact ⟨hvalid _ _ hnode, ih⟩

/-- A level builds a well-formed node from well-formed children. -/
lemma valid_of_deserializeKind {parseNode : Dom.Document lib.Double → Except Failure (Dom.Node lib)}
    (hvalid : ∀ value node, parseNode value = .ok node → node.Valid)
    {members : List (Bytes × Dom.Document lib.Double)} {nodeType : NodeType} {node : Dom.Node lib}
    (h : Dom.deserializeKind parseNode (.object members) nodeType = .ok node) : node.Valid := by
  cases nodeType with
  | const =>
    obtain ⟨value, -, rfl⟩ := deserializeConst_ok_iff.mp h
    exact trivial
  | «variable» =>
    obtain ⟨valueType, -, columnName, -, rfl⟩ := deserializeVariable_ok_iff.mp h
    exact trivial
  | scalarOverArrayFunction =>
    obtain ⟨signature, -, useOr, -, scalar, ⟨lhs, -, hscalar⟩, array, -, hsize, harity, rfl⟩ :=
      deserializeScalarOverArray_ok_iff.mp h
    exact ⟨hsize, harity, hvalid _ _ hscalar⟩
  | ifNode =>
    obtain ⟨_, ⟨_, -, hcondition⟩, _, ⟨_, -, hthen⟩, _, ⟨_, -, helse⟩, rfl⟩ := deserializeIf_ok_iff.mp h
    exact ⟨hvalid _ _ hcondition, hvalid _ _ hthen, hvalid _ _ helse⟩
  | function =>
    obtain ⟨signature, -, arguments, ⟨elements, -, harguments⟩, harity, rfl⟩ := deserializeFunction_ok_iff.mp h
    exact ⟨harity, allValid_of_forall₂ hvalid harguments⟩
  | logical =>
    obtain ⟨operation, -, arguments, ⟨elements, -, harguments⟩, hnot, rfl⟩ := deserializeLogical_ok_iff.mp h
    exact ⟨hnot, allValid_of_forall₂ hvalid harguments⟩

lemma deserializeNode_valid {fuel : Nat} {document : Dom.Document lib.Double} {node : Dom.Node lib}
    (h : Dom.deserializeNode fuel document = .ok node) : node.Valid := by
  induction fuel generalizing document node with
  | zero => cases h
  | succ fuel ih =>
    cases document with
    | object members =>
      obtain ⟨nodeType, -, h⟩ := bind_ok h
      exact valid_of_deserializeKind (fun value node => ih) h
    | _ => cases h

/-- The parser returns a well-formed tree, or none, or throws. -/
def ParsesTotally (lib : Dom.RapidJson) (rowFilter : Bytes) : Prop :=
  (∃ tree, Dom.stringToFilter lib rowFilter = .ok tree ∧ ∀ node ∈ tree, node.Valid) ∨
    Throws (Dom.stringToFilter lib rowFilter)

lemma stringToFilter_of_ne_nil {rowFilter : Bytes} (h : rowFilter ≠ []) : Dom.stringToFilter lib rowFilter =
    Dom.deserializeNode (Dom.parsedDocument lib rowFilter).depth (Dom.parsedDocument lib rowFilter) >>=
      fun node => .ok (some node) := by
  rw [Dom.stringToFilter, if_neg (by simpa using h)]
  rfl

lemma parsesTotally_iff_defined (lib : Dom.RapidJson) (rowFilter : Bytes) :
    ParsesTotally lib rowFilter ↔ IsDefined (Dom.stringToFilter lib rowFilter) := by
  constructor
  · rintro (⟨tree, h, -⟩ | ⟨message, h⟩)
    · rw [h]
      exact defined_ok _
    · rw [h]
      exact defined_thrown _
  · intro h
    rcases ok_or_throws h with ⟨tree, htree⟩ | hthrows
    · refine .inl ⟨tree, htree, ?_⟩
      rintro node rfl
      by_cases hempty : rowFilter = []
      · subst hempty
        cases htree
      · rw [stringToFilter_of_ne_nil hempty] at htree
        obtain ⟨node', hnode, htree⟩ := bind_ok htree
        cases htree
        exact deserializeNode_valid hnode
    · exact .inr hthrows

/-- The parser is total on a text exactly when every value that it comes to as a node is an object. A
text that does not parse is the null document. -/
theorem parsesTotally_iff (lib : Dom.RapidJson) (rowFilter : Bytes) :
    ParsesTotally lib rowFilter ↔ rowFilter = [] ∨
      ∀ value, Relation.ReflTransGen NodeChild (Dom.parsedDocument lib rowFilter) value → value.IsObject := by
  rw [parsesTotally_iff_defined]
  by_cases hempty : rowFilter = []
  · subst hempty
    simp only [true_or, iff_true]
    exact defined_ok _
  have hundefined : Dom.stringToFilter lib rowFilter = .error .undefined ↔
      Dom.deserializeNode (Dom.parsedDocument lib rowFilter).depth (Dom.parsedDocument lib rowFilter) =
        .error .undefined := by
    rw [stringToFilter_of_ne_nil hempty, bind_eq_undefined_iff]
    simp
  rw [IsDefined, Ne, hundefined, deserializeNode_undefined_iff le_rfl]
  simp [hempty]

/-- A library that parses the text of one digit. -/
def oneDigit : Dom.RapidJson where
  Double := Unit
  Float := Unit
  parse text := if text = bytes "1" then some (.int 1) else none
  isFloat _ := false
  getFloat _ := ()

/-- The text `1` is a number: the parser looks for its member `node-type`. -/
theorem not_parsesTotally_number : ¬ParsesTotally oneDigit (bytes "1") := by
  rw [parsesTotally_iff_defined]
  exact fun h => h (by rfl)

end IcebergCxx.Proofs

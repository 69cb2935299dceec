import IcebergCxx.Manifest
import IcebergCxx.Proofs.TableMetadata
import IcebergCxx.Lib.AvroRecord

/-!
# The schema of a manifest

What the declaration made by `MakeSchemaManifestEntry` compiles to. All of it but the partition
record is fixed; a partition field compiles to a union of null and the type of its values, unless
its type is `fixed`, whose declaration has no name, or a decimal whose negative scale makes the
name of its declaration invalid.
-/

namespace IcebergCxx.Proofs

open Lib IceAvro

/-! ### Names -/

lemma validName_of_notMem {name : Bytes} (h : (46 : Byte) ∉ name) :
    validName name = (!name.isEmpty && name.all isNameChar) := by
  have hsimple : (name.reverse.takeWhile (fun c => c ≠ 46)).reverse = name := by
    have hall : ∀ c ∈ name.reverse, decide (c ≠ 46) = true := by
      intro c hc
      have hne : c ≠ 46 := fun he => h (he ▸ List.mem_reverse.mp hc)
      simpa using hne
    rw [List.takeWhile_eq_self_iff.mpr hall, List.reverse_reverse]
  have hspace : name.take (name.length - name.length - 1) = [] := by simp
  simp only [validName, hsimple, hspace]
  simp

lemma isNameChar_of_isDigit {c : Byte} (h : Json.isDigit c = true) : isNameChar c = true := by
  simp only [Json.isDigit, Bool.and_eq_true, decide_eq_true_eq] at h
  simp [isNameChar, h.1, h.2]

lemma dot_notMem_toDecimalInt (i : Int) : (46 : Byte) ∉ toDecimalInt i := by
  have hnat : ∀ n : Nat, (46 : Byte) ∉ toDecimal n := by
    intro n h
    exact absurd (Json.isDigit_toDecimal n 46 h) (by decide)
  cases i with
  | ofNat n => exact hnat n
  | negSucc n =>
    rw [toDecimalInt, List.mem_cons, not_or]
    exact ⟨by decide, hnat _⟩

lemma all_isNameChar_toDecimalInt (i : Int) : (toDecimalInt i).all isNameChar = decide (0 ≤ i) := by
  cases i with
  | ofNat n =>
    have hall : (toDecimal n).all isNameChar = true := by
      rw [List.all_eq_true]
      exact fun c hc => isNameChar_of_isDigit (Json.isDigit_toDecimal n c hc)
    have hn : decide (0 ≤ Int.ofNat n) = true := by simp
    rw [toDecimalInt, hall, hn]
  | negSucc n =>
    have hn : decide (0 ≤ Int.negSucc n) = false := by
      rw [decide_eq_false_iff_not, not_le]
      exact Int.negSucc_lt_zero n
    rw [toDecimalInt, hn, List.all_cons]
    rfl

/-- A negative scale puts a minus sign into the name. -/
lemma validName_decimalName {precision scale : Int} (hp : 0 < precision) :
    validName (decimalName precision scale) = decide (0 ≤ scale) := by
  have hdot : (46 : Byte) ∉ decimalName precision scale := by
    simp only [decimalName, List.mem_append, not_or]
    exact ⟨⟨⟨by decide, dot_notMem_toDecimalInt _⟩, by decide⟩, dot_notMem_toDecimalInt _⟩
  have hprecision : decide (0 ≤ precision) = true := by
    simpa using hp.le
  have hword : (bytes "decimal_").all isNameChar = true := by decide
  have hline : (bytes "_").all isNameChar = true := by decide
  have hne : (decimalName precision scale).isEmpty = false := rfl
  rw [validName_of_notMem hdot, hne]
  simp only [decimalName, List.all_append, hword, hline, all_isNameChar_toDecimalInt, hprecision, Bool.not_false,
    Bool.true_and, Bool.and_true]

/-! ### What a node declares -/

/-- A union of null and one other type. -/
def optionalSchema (s : AvroSchema) : AvroSchema := .union [.null, s]

/-- The logical type of a decimal; a scale above the precision is malformed. -/
def decimalLogical (precision scale : Int) : LogicalType :=
  fixedLogical (decimalSize precision)
    (if 0 < precision ∧ 0 ≤ scale ∧ scale ≤ precision then .decimal precision scale else .none)

mutual

/-- The schema that a node declares, if its declaration is one: a `fixed` node has no name. -/
def declaredSchema : IceAvro.Node → Option AvroSchema
  | .bool => some .boolean
  | .int => some (.int .none)
  | .long => some (.long .none)
  | .float => some .float
  | .double => some .double
  | .date => some (.int .date)
  | .time => some (.long .timeMicros)
  | .timestamp | .timestamptz => some (.long .timestampMicros)
  | .timestampNs | .timestamptzNs => some (.long .timestampNanos)
  | .string => some .string
  | .bytes => some .bytes
  | .fixed _ => none
  | .uuid => some (.fixed (bytes "uuid_fixed") 16 .uuid)
  | .decimal precision scale =>
    if (0 < precision ∧ precision ≤ 38) ∧ 0 ≤ scale then
      some (.fixed (decimalName precision scale) (decimalSize precision) (decimalLogical precision scale))
    else none
  | .array element => (declaredSchema element).map .array
  | .optional child => (declaredSchema child).map optionalSchema
  | .record name fields => do
    let fields ← declaredFields fields
    if validName (cString name) ∧ (fields.map Prod.fst).Nodup then return .record (cString name) fields else none

def declaredFields : List (Bytes × IceAvro.Node) → Option (List (Bytes × AvroSchema))
  | [] => some []
  | (name, node) :: fields => do
    let s ← declaredSchema node
    let rest ← declaredFields fields
    return (cString name, s) :: rest

end

/-- The members of a declaration: its type among defaults. -/
def TypeAmongDefaults (m : List (Bytes × Json)) (type : Json) : Prop :=
  ∃ before after, m = before ++ (IceAvro.Field.kType, type) :: after ∧
    ∀ member ∈ before ++ after, member.1 = IceAvro.Field.kDefault

/-- The declaration of a node is one of the schema, or of none. -/
def Declares (declaration : Except String (List (Bytes × Json))) (s : Option AvroSchema) : Prop :=
  (∃ m type, declaration = .ok m ∧ TypeAmongDefaults m type ∧ ∀ fuel ≥ type.depth, schemaOfJson fuel type = s) ∨
    (∃ e, declaration = .error e) ∧ s = none

def DeclaresFields (declarations : Except String (List Json)) (s : Option (List (Bytes × AvroSchema))) : Prop :=
  (∃ l, declarations = .ok l ∧ ∀ fuel ≥ Json.depthElements l, l.mapM (fieldSchemaOfJson fuel) = s) ∨
    (∃ e, declarations = .error e) ∧ s = none

lemma findMember_append_of_forall_ne {name : Bytes} {m l : List (Bytes × Json)} (h : ∀ member ∈ m, member.1 ≠ name) :
    Json.findMember name (m ++ l) = Json.findMember name l := by
  induction m with
  | nil => rfl
  | cons p m ih =>
    obtain ⟨k, v⟩ := p
    rw [List.cons_append, Json.findMember, if_neg (h _ List.mem_cons_self)]
    exact ih (fun member hmember => h member (List.mem_cons_of_mem _ hmember))

section
variable {m : List (Bytes × Json)} {type : Json}

lemma typeAmongDefaults_singleton (type : Json) : TypeAmongDefaults [(IceAvro.Field.kType, type)] type :=
  ⟨[], [], rfl, by simp⟩

lemma TypeAmongDefaults.findMember_type (h : TypeAmongDefaults m type) (l : List (Bytes × Json)) :
    Json.findMember IceAvro.Field.kType (m ++ l) = some type := by
  obtain ⟨before, after, rfl, hdefault⟩ := h
  have hne : ∀ member ∈ before, member.1 ≠ IceAvro.Field.kType := by
    intro member hmember
    rw [hdefault member (List.mem_append_left _ hmember)]
    decide
  rw [List.append_assoc, findMember_append_of_forall_ne hne]
  rfl

lemma TypeAmongDefaults.findMember_name (h : TypeAmongDefaults m type) (l : List (Bytes × Json)) :
    Json.findMember IceAvro.Field.kName (m ++ l) = Json.findMember IceAvro.Field.kName l := by
  obtain ⟨before, after, rfl, hdefault⟩ := h
  apply findMember_append_of_forall_ne
  intro member hmember
  rcases List.mem_append.mp hmember with hmember | hmember
  · rw [hdefault member (List.mem_append_left _ hmember)]
    decide
  · rcases List.mem_cons.mp hmember with rfl | hmember
    · exact (by decide : IceAvro.Field.kType ≠ IceAvro.Field.kName)
    · rw [hdefault member (List.mem_append_right _ hmember)]
      decide

/-- The type is replaced at the end. -/
lemma TypeAmongDefaults.replace (h : TypeAmongDefaults m type) (type' : Json) :
    TypeAmongDefaults (m.eraseP (fun member => member.1 = IceAvro.Field.kType) ++
      [(IceAvro.Field.kType, type'), (IceAvro.Field.kDefault, .null)]) type' := by
  obtain ⟨before, after, rfl, hdefault⟩ := h
  have hne : ∀ member ∈ before, ¬decide (member.1 = IceAvro.Field.kType) = true := by
    intro member hmember
    rw [hdefault member (List.mem_append_left _ hmember)]
    decide
  rw [List.eraseP_append_right _ hne, List.eraseP_cons_of_pos (by simp)]
  refine ⟨before ++ after, [(IceAvro.Field.kDefault, .null)], rfl, fun member hmember => ?_⟩
  rcases List.mem_append.mp hmember with hmember | hmember
  · exact hdefault member hmember
  · rw [List.mem_singleton.mp hmember]

end

/-- A node whose `type` is a name or an object without children. -/
lemma Declares.leaf {type : Json} {s : Option AvroSchema} (h : ∀ fuel, schemaOfJson (fuel + 1) type = s) :
    Declares (.ok [(IceAvro.Field.kType, type)]) s := by
  refine .inl ⟨_, type, rfl, typeAmongDefaults_singleton type, fun fuel hfuel => ?_⟩
  obtain ⟨n, rfl⟩ : ∃ n, fuel = n + 1 := ⟨fuel - 1, by have := type.depth_pos; omega⟩
  exact h n

lemma declares_decimal (precision scale : Int) :
    Declares (IceAvro.serialize (.decimal precision scale)) (declaredSchema (.decimal precision scale)) := by
  simp only [IceAvro.serialize, minimumBytesToStoreDecimal, declaredSchema]
  by_cases h2 : precision ≤ 38
  · by_cases h1 : 0 < precision
    · rw [decide_eq_true h1, decide_eq_true h2]
      apply Declares.leaf
      intro fuel
      have hsize : (0 : Int) < decimalSize precision := by
        unfold decimalSize
        omega
      have hvalid : validName (decimalName precision scale) = decide (0 ≤ scale) := validName_decimalName h1
      change (if validName (decimalName precision scale) = true ∧ (0 : Int) < decimalSize precision then
        some (AvroSchema.fixed (decimalName precision scale) (decimalSize precision : Int).toNat
          (fixedLogical (decimalSize precision : Int).toNat
            (if 0 < precision ∧ 0 ≤ scale ∧ scale ≤ precision then .decimal precision scale else .none))) else none) = _
      rw [hvalid, Int.toNat_natCast]
      simp only [decide_eq_true_eq, hsize, and_true, h1, h2, true_and, decimalLogical]
    · rw [decide_eq_false h1, decide_eq_true h2, if_neg (by tauto)]
      exact .inr ⟨⟨_, rfl⟩, rfl⟩
  · rw [decide_eq_false h2, if_neg (by tauto)]
    exact .inr ⟨⟨_, rfl⟩, rfl⟩

section
variable {child : IceAvro.Node} {s : Option AvroSchema}

lemma Declares.array (h : Declares (IceAvro.serialize child) s) :
    Declares (IceAvro.serialize (.array child)) (s.map AvroSchema.array) := by
  rw [IceAvro.serialize]
  rcases h with ⟨m, type, hm, htype, hs⟩ | ⟨⟨e, he⟩, rfl⟩
  · have hfind := htype.findMember_type []
    rw [List.append_nil] at hfind
    rw [hm, ok_bind, hfind]
    refine .inl ⟨_, _, rfl, typeAmongDefaults_singleton _, fun fuel hfuel => ?_⟩
    simp only [Json.depth, Json.depthMembers, literal] at hfuel
    obtain ⟨n, rfl⟩ : ∃ n, fuel = n + 1 := ⟨fuel - 1, by omega⟩
    rw [← hs n (by omega)]
    change (schemaOfJson n type >>= fun items => some (AvroSchema.array items)) = _
    cases schemaOfJson n type <;> rfl
  · rw [he]
    exact .inr ⟨⟨e, rfl⟩, rfl⟩

lemma Declares.optional (h : Declares (IceAvro.serialize child) s) :
    Declares (IceAvro.serialize (.optional child)) (s.map optionalSchema) := by
  rw [IceAvro.serialize]
  rcases h with ⟨m, type, hm, htype, hs⟩ | ⟨⟨e, he⟩, rfl⟩
  · have hfind := htype.findMember_type []
    rw [List.append_nil] at hfind
    rw [hm, ok_bind, hfind]
    refine .inl ⟨_, _, rfl, htype.replace _, fun fuel hfuel => ?_⟩
    simp only [Json.depth, Json.depthElements, literal] at hfuel
    obtain ⟨n, rfl⟩ : ∃ n, fuel = n + 2 := ⟨fuel - 2, by have := type.depth_pos; omega⟩
    rw [← hs (n + 1) (by omega)]
    change (do
      let branches ← [literal "null", type].mapM (schemaOfJson (n + 1))
      return AvroSchema.union branches) = _
    rw [List.mapM_cons, List.mapM_cons]
    cases schemaOfJson (n + 1) type <;> rfl
  · rw [he]
    exact .inr ⟨⟨e, rfl⟩, rfl⟩

end

lemma DeclaresFields.record {name : Bytes} {fields : List (Bytes × IceAvro.Node)}
    {s : Option (List (Bytes × AvroSchema))} (h : DeclaresFields (IceAvro.serializeFields fields) s) :
    Declares (IceAvro.serialize (.record name fields))
      (do
        let fields ← s
        if validName (cString name) ∧ (fields.map Prod.fst).Nodup then return .record (cString name) fields
        else none) := by
  rw [IceAvro.serialize]
  rcases h with ⟨l, hl, hs⟩ | ⟨⟨e, he⟩, rfl⟩
  · rw [hl, ok_bind]
    refine .inl ⟨_, _, rfl, typeAmongDefaults_singleton _, fun fuel hfuel => ?_⟩
    simp only [Json.depth, Json.depthMembers, literal, serializeString] at hfuel
    obtain ⟨n, rfl⟩ : ∃ n, fuel = n + 1 := ⟨fuel - 1, by omega⟩
    rw [← hs n (by omega)]
    exact schemaOfJson_record n (cString name) l
  · rw [he]
    exact .inr ⟨⟨e, rfl⟩, rfl⟩

lemma DeclaresFields.cons {name : Bytes} {node : IceAvro.Node} {fields : List (Bytes × IceAvro.Node)}
    {s : Option AvroSchema} {rest : Option (List (Bytes × AvroSchema))} (h : Declares (IceAvro.serialize node) s)
    (hrest : DeclaresFields (IceAvro.serializeFields fields) rest) :
    DeclaresFields (IceAvro.serializeFields ((name, node) :: fields))
      (do
        let s ← s
        let rest ← rest
        return (cString name, s) :: rest) := by
  rw [IceAvro.serializeFields]
  rcases h with ⟨m, type, hm, htype, hs⟩ | ⟨⟨e, he⟩, rfl⟩
  · rw [hm, ok_bind]
    rcases hrest with ⟨l, hl, hrest⟩ | ⟨⟨e, he⟩, rfl⟩
    · rw [hl, ok_bind]
      refine .inl ⟨_, rfl, fun fuel hfuel => ?_⟩
      rw [Json.depthElements, Json.depth] at hfuel
      have hfind := htype.findMember_type [(IceAvro.Field.kName, serializeString name)]
      have hdepth := depth_findMember hfind
      have hname := htype.findMember_name [(IceAvro.Field.kName, serializeString name)]
      have hfield : fieldSchemaOfJson fuel (.object (m ++ [(IceAvro.Field.kName, serializeString name)])) =
          s.map (fun s => (cString name, s)) := by
        rw [← hs fuel (by omega)]
        change (memberString _ IceAvro.Field.kName >>= fun fieldName =>
          Json.findMember IceAvro.Field.kType _ >>= fun fieldType =>
            schemaOfJson fuel fieldType >>= fun s => some (fieldName, s)) = _
        rw [hfind]
        unfold memberString
        rw [hname]
        change (schemaOfJson fuel type >>= fun s => some (cString name, s)) = _
        cases schemaOfJson fuel type <;> rfl
      rw [List.mapM_cons, hfield, hrest fuel (by omega)]
      cases s <;> rfl
    · rw [he]
      refine .inr ⟨⟨e, rfl⟩, ?_⟩
      cases s <;> rfl
  · rw [he]
    exact .inr ⟨⟨e, rfl⟩, rfl⟩

mutual

/-- The declaration of a node means what the node declares. -/
theorem serialize_declares : ∀ node : IceAvro.Node, Declares (IceAvro.serialize node) (declaredSchema node)
  | .bool => .leaf (fun _ => rfl)
  | .int => .leaf (fun _ => rfl)
  | .long => .leaf (fun _ => rfl)
  | .float => .leaf (fun _ => rfl)
  | .double => .leaf (fun _ => rfl)
  | .date => .leaf (fun _ => rfl)
  | .time => .leaf (fun _ => rfl)
  | .timestamp => .leaf (fun _ => rfl)
  | .timestamptz => .leaf (fun _ => rfl)
  | .timestampNs => .leaf (fun _ => rfl)
  | .timestamptzNs => .leaf (fun _ => rfl)
  | .string => .leaf (fun _ => rfl)
  | .bytes => .leaf (fun _ => rfl)
  | .fixed _ => .leaf (fun _ => rfl)
  | .uuid => .leaf (fun _ => rfl)
  | .decimal precision scale => declares_decimal precision scale
  | .array element => (serialize_declares element).array
  | .optional child => (serialize_declares child).optional
  | .record _ fields => (serializeFields_declares fields).record

theorem serializeFields_declares : ∀ fields : List (Bytes × IceAvro.Node),
    DeclaresFields (IceAvro.serializeFields fields) (declaredFields fields)
  | [] => .inl ⟨[], rfl, fun _ _ => rfl⟩
  | (_, node) :: fields => .cons (serialize_declares node) (serializeFields_declares fields)

end

/-- What the Avro library makes of a declaration. -/
theorem avroSchemaFromNode_ok_iff (avro : AvroLibrary) (node : IceAvro.Node) (s : AvroSchema) :
    avroSchemaFromNode avro node = .ok s ↔ declaredSchema node = some s := by
  unfold avroSchemaFromNode toJson
  rcases serialize_declares node with ⟨m, type, hm, htype, hs⟩ | ⟨⟨e, he⟩, hnone⟩
  · have hfind := htype.findMember_type []
    rw [List.append_nil] at hfind
    rw [hm, ok_bind, hfind, ← hs type.depth le_rfl]
    change avro.compileJsonSchema type = .ok s ↔ _
    cases hschema : schemaOfJson type.depth type with
    | some s' =>
      rw [avro.compile_ok type s' hschema, Except.ok.injEq, Option.some.injEq]
    | none =>
      obtain ⟨e, he⟩ := avro.compile_error type hschema
      rw [he]
      exact ⟨fun h => (by cases h), fun h => (by cases h)⟩
  · rw [he, hnone]
    exact ⟨fun h => (by cases h), fun h => (by cases h)⟩

/-! ### The partition record -/

/-- The types whose declarations are schemas: not `fixed`, and no decimal with a negative scale. -/
def Declarable : IceType → Prop
  | .fixed _ => False
  | .decimal _ scale => 0 ≤ scale
  | .list _ _ _ => False
  | _ => True

/-- The Avro type of the values of a partition field. -/
def valueSchema : IceType → AvroSchema
  | .boolean => .boolean
  | .int => .int .none
  | .long => .long .none
  | .float => .float
  | .double => .double
  | .date => .int .date
  | .time => .long .timeMicros
  | .timestamp | .timestamptz => .long .timestampMicros
  | .timestampNs | .timestamptzNs => .long .timestampNanos
  | .string => .string
  | .uuid => .fixed (bytes "uuid_fixed") 16 .uuid
  | .binary => .bytes
  | .decimal precision scale =>
    .fixed (decimalName precision scale) (decimalSize precision) (decimalLogical precision scale)
  | .fixed _ | .list _ _ _ => .null

/-- A partition field with a type whose declaration is a schema. -/
def FieldDeclarable (field : PartitionKeyField) : Prop := ∃ type, field.type = some type ∧ Declarable type

def fieldSchema (field : PartitionKeyField) : AvroSchema := optionalSchema ((field.type.map valueSchema).getD .null)

def partitionFields (spec : List PartitionKeyField) : List (Bytes × AvroSchema) :=
  spec.map (fun field => (cString field.name, fieldSchema field))

/-- What the constructors of the types of a specification ensure. -/
def SpecConstructed (spec : List PartitionKeyField) : Prop :=
  ∀ field ∈ spec, ∀ type, field.type = some type → Constructed type

/-- A field is declared if it can be. -/
lemma partitionFieldNode_cases {field : PartitionKeyField} (h : ∀ type, field.type = some type → Constructed type) :
    (FieldDeclarable field ∧ ∃ node, partitionFieldNode field = .ok (field.name, node) ∧
        declaredSchema node = some (fieldSchema field)) ∨
      ¬FieldDeclarable field ∧ ∀ name node, partitionFieldNode field = .ok (name, node) → declaredSchema node = none := by
  unfold partitionFieldNode FieldDeclarable fieldSchema
  cases htype : field.type with
  | none =>
    refine .inr ⟨?_, fun name node hnode => ?_⟩
    · rintro ⟨type, htype, -⟩
      cases htype
    · cases hnode
  | some type =>
    have hconstructed := h type htype
    cases type with
    | decimal precision scale =>
      obtain ⟨h1, h2, -⟩ := hconstructed
      by_cases hscale : 0 ≤ scale
      · refine .inl ⟨⟨_, rfl, hscale⟩, _, rfl, ?_⟩
        rw [declaredSchema, declaredSchema, if_pos ⟨⟨h1, h2⟩, hscale⟩]
        rfl
      · refine .inr ⟨?_, fun name node hnode => ?_⟩
        · rintro ⟨type, htype, hdeclarable⟩
          cases htype
          exact hscale hdeclarable
        · cases hnode
          rw [declaredSchema, declaredSchema, if_neg (by tauto)]
          rfl
    | fixed size =>
      refine .inr ⟨?_, fun name node hnode => ?_⟩
      · rintro ⟨type, htype, hdeclarable⟩
        cases htype
        exact hdeclarable
      · cases hnode
        rfl
    | list elementId elementRequired elementType =>
      refine .inr ⟨?_, fun name node hnode => ?_⟩
      · rintro ⟨type, htype, hdeclarable⟩
        cases htype
        exact hdeclarable
      · cases hnode
    | _ => exact .inl ⟨⟨_, rfl, trivial⟩, _, rfl, rfl⟩

/-- The fields of a specification are declared if each of them can be. -/
lemma mapM_partitionFieldNode {spec : List PartitionKeyField} (h : SpecConstructed spec) :
    ((∀ field ∈ spec, FieldDeclarable field) ∧ ∃ nodes, spec.mapM partitionFieldNode = .ok nodes ∧
        declaredFields nodes = some (partitionFields spec)) ∨
      (¬∀ field ∈ spec, FieldDeclarable field) ∧
        ∀ nodes, spec.mapM partitionFieldNode = .ok nodes → declaredFields nodes = none := by
  induction spec with
  | nil => exact .inl ⟨by simp, [], rfl, rfl⟩
  | cons field spec ih =>
    simp only [List.forall_mem_cons, List.mapM_cons]
    rcases ih (fun f hf => h f (List.mem_cons_of_mem _ hf)) with ⟨hall, nodes, hnodes, hfields⟩ | ⟨hall, hfields⟩
    · rcases partitionFieldNode_cases (h field List.mem_cons_self) with ⟨hf, node, hnode, hs⟩ | ⟨hf, hs⟩
      · refine .inl ⟨⟨hf, hall⟩, (field.name, node) :: nodes, ?_, ?_⟩
        · rw [hnode, hnodes]
          rfl
        · rw [declaredFields, hs, hfields]
          rfl
      · refine .inr ⟨fun hboth => hf hboth.1, fun nodes' hnodes' => ?_⟩
        obtain ⟨⟨name, node⟩, hnode, hnodes'⟩ := bind_ok hnodes'
        obtain ⟨rest, -, hnodes'⟩ := bind_ok hnodes'
        cases hnodes'
        rw [declaredFields, hs name node hnode]
        rfl
    · refine .inr ⟨fun hboth => hall hboth.2, fun nodes' hnodes' => ?_⟩
      obtain ⟨⟨name, node⟩, hnode, hnodes'⟩ := bind_ok hnodes'
      obtain ⟨rest, hrest, hnodes'⟩ := bind_ok hnodes'
      cases hnodes'
      rw [declaredFields, hfields rest hrest]
      cases declaredSchema node <;> rfl

/-! ### The manifest entry -/

def partitionSchema (spec : List PartitionKeyField) : AvroSchema := .record (bytes "r102") (partitionFields spec)

def mapSchema (entry : String) (value : AvroSchema) : AvroSchema :=
  optionalSchema (.array (.record (bytes entry) [(bytes "key", .int .none), (bytes "value", value)]))

def dataFileSchema (partition : AvroSchema) : AvroSchema :=
  .record (bytes "r2")
    [(bytes "content", .int .none),
     (bytes "file_path", .string),
     (bytes "file_format", .string),
     (bytes "record_count", .long .none),
     (bytes "file_size_in_bytes", .long .none),
     (bytes "equality_ids", optionalSchema (.array (.int .none))),
     (bytes "referenced_data_file", optionalSchema .string),
     (bytes "content_offset", optionalSchema (.long .none)),
     (bytes "content_size_in_bytes", optionalSchema (.long .none)),
     (bytes "column_sizes", mapSchema "k117_v118" (.long .none)),
     (bytes "value_counts", mapSchema "k119_v120" (.long .none)),
     (bytes "null_value_counts", mapSchema "k121_v122" (.long .none)),
     (bytes "lower_bounds", mapSchema "k126_v127" .bytes),
     (bytes "upper_bounds", mapSchema "k129_v130" .bytes),
     (bytes "nan_value_counts", mapSchema "k138_v139" (.long .none)),
     (bytes "distinct_counts", mapSchema "k123_v124" (.long .none)),
     (bytes "split_offsets", optionalSchema (.array (.long .none))),
     (bytes "sort_order_id", optionalSchema (.int .none)),
     (bytes "partition", partition)]

def manifestEntrySchema (partition : AvroSchema) : AvroSchema :=
  .record (bytes "manifest_entry")
    [(bytes "status", .int .none),
     (bytes "snapshot_id", optionalSchema (.long .none)),
     (bytes "sequence_number", optionalSchema (.long .none)),
     (bytes "file_sequence_number", optionalSchema (.long .none)),
     (bytes "data_file", dataFileSchema partition)]

section
variable {spec : List PartitionKeyField}

lemma fields_of_makeSchemaManifestEntry {cfg : ManifestEntryDeserializerConfig} {node : IceAvro.Node}
    (h : makeSchemaManifestEntry spec cfg = .ok node) : ∃ nodes, spec.mapM partitionFieldNode = .ok nodes := by
  unfold makeSchemaManifestEntry makeSchemaDataFile makeSchemaPartition at h
  obtain ⟨_, h, -⟩ := bind_ok h
  obtain ⟨_, h, -⟩ := bind_ok h
  obtain ⟨nodes, hnodes, -⟩ := bind_ok h
  exact ⟨nodes, hnodes⟩

/-- All but the partition record is fixed. -/
lemma makeSchemaManifestEntry_declared {nodes : List (Bytes × IceAvro.Node)}
    (h : spec.mapM partitionFieldNode = .ok nodes) :
    ∃ node, makeSchemaManifestEntry spec {} = .ok node ∧
      declaredSchema node = (declaredSchema (.record (bytes "r102") nodes)).map manifestEntrySchema := by
  unfold makeSchemaManifestEntry makeSchemaDataFile makeSchemaPartition
  rw [h]
  refine ⟨_, rfl, ?_⟩
  generalize IceAvro.Node.record (bytes "r102") nodes = partition
  simp only [if_true, mapField, List.cons_append, List.nil_append, declaredSchema, declaredFields]
  cases declaredSchema partition with
  | none => rfl
  | some s => rfl

end

lemma declaredSchema_partition {nodes : List (Bytes × IceAvro.Node)} {fields : List (Bytes × AvroSchema)}
    (h : declaredFields nodes = some fields) :
    declaredSchema (.record (bytes "r102") nodes) =
      if (fields.map Prod.fst).Nodup then some (.record (bytes "r102") fields) else none := by
  have hname : validName (bytes "r102") = true := by decide
  have hcut : cString (bytes "r102") = bytes "r102" := rfl
  rw [declaredSchema, h, hcut]
  simp only [hname, true_and]
  rfl

/-- When the schema of a manifest can be made, and what it is. -/
theorem manifestSchema_iff (avro : AvroLibrary) {spec : List PartitionKeyField} (hspec : SpecConstructed spec)
    (s : AvroSchema) :
    (makeSchemaManifestEntry spec {} >>= avroSchemaFromNode avro) = .ok s ↔
      (∀ field ∈ spec, FieldDeclarable field) ∧ (spec.map (fun field => cString field.name)).Nodup ∧
        s = manifestEntrySchema (partitionSchema spec) := by
  have hnames : (partitionFields spec).map Prod.fst = spec.map (fun field => cString field.name) := by
    rw [partitionFields, List.map_map]
    rfl
  constructor
  · intro h
    obtain ⟨node, hnode, h⟩ := bind_ok h
    obtain ⟨nodes, hnodes⟩ := fields_of_makeSchemaManifestEntry hnode
    obtain ⟨node', hnode', hdeclared⟩ := makeSchemaManifestEntry_declared hnodes
    rw [hnode] at hnode'
    cases hnode'
    rw [avroSchemaFromNode_ok_iff, hdeclared, Option.map_eq_some_iff] at h
    obtain ⟨partition, hpartition, rfl⟩ := h
    rcases mapM_partitionFieldNode hspec with ⟨hall, nodes', hnodes', hfields⟩ | ⟨-, hfields⟩
    · rw [hnodes] at hnodes'
      cases hnodes'
      rw [declaredSchema_partition hfields, hnames] at hpartition
      split_ifs at hpartition with hnodup
      cases hpartition
      exact ⟨hall, hnodup, rfl⟩
    · rw [declaredSchema, hfields nodes hnodes] at hpartition
      cases hpartition
  · rintro ⟨hall, hnodup, rfl⟩
    rcases mapM_partitionFieldNode hspec with ⟨-, nodes, hnodes, hfields⟩ | ⟨hnot, -⟩
    · obtain ⟨node, hnode, hdeclared⟩ := makeSchemaManifestEntry_declared hnodes
      rw [hnode, ok_bind, avroSchemaFromNode_ok_iff, hdeclared, declaredSchema_partition hfields, hnames, if_pos hnodup]
      rfl
    · exact absurd hall hnot

end IcebergCxx.Proofs

import IcebergCxx.JsonSerde

/-!
# Fields of a JSON document

`common/json_parse.cpp` and the two helpers around it in `table_metadata.cpp`: a field that must
be there, a field that may be missing, an array read element by element, and an object read as a
map. `membersOf` is an object that is written field by field.
-/

namespace IcebergCxx

open Lib

/-- An object written field by field; a field without a value is left out. -/
def membersOf (fields : List (Bytes × Option Json)) : List (Bytes × Json) :=
  fields.filterMap (fun field => field.2.map (fun value => (field.1, value)))

/-- `Ensure(document.IsObject(), ...)`. -/
def ensureObject (function : String) : Json → Except String (List (Bytes × Json))
  | .object members => .ok members
  | _ => .error (function ++ ": !document.IsObject()")

/-- The library's own assertion when a field of another value is asked for. -/
def assertObject : Json → Except String (List (Bytes × Json))
  | .object members => .ok members
  | _ => .error "RAPIDJSON_ASSERT: IsObject()"

namespace JsonParse

/-- A field that must be there and be of the right kind. -/
def extractField {α : Type} (function : String) (get : Json → Except String α) (document : List (Bytes × Json))
    (fieldName : Bytes) : Except String α :=
  match Json.findMember fieldName document with
  | none => .error (function ++ ": !document.HasMember(" ++ text fieldName ++ ")")
  | some value =>
    match get value with
    | .ok a => .ok a
    | .error _ => .error (function ++ ": !document[" ++ text fieldName ++ "].IsString())")

def extractStringField : List (Bytes × Json) → Bytes → Except String Bytes :=
  extractField "ExtractStringField" deserializeString

def extractInt64Field : List (Bytes × Json) → Bytes → Except String Int64 :=
  extractField "ExtractInt64Field" deserializeInt64

def extractInt32Field : List (Bytes × Json) → Bytes → Except String Int32 :=
  extractField "ExtractInt32Field" deserializeInt32

def extractBooleanField : List (Bytes × Json) → Bytes → Except String Bool :=
  extractField "ExtractBooleanField" deserializeBool

/-- A field that is missing or of another kind is no value. -/
def extractOptionalField {α : Type} (get : Json → Except String α) (document : List (Bytes × Json))
    (fieldName : Bytes) : Option α :=
  match Json.findMember fieldName document with
  | none => none
  | some value => (get value).toOption

def extractOptionalInt32Field : List (Bytes × Json) → Bytes → Option Int32 := extractOptionalField deserializeInt32

def extractOptionalInt64Field : List (Bytes × Json) → Bytes → Option Int64 := extractOptionalField deserializeInt64

/-- One member of an object read as a map; the first value of a name is kept. -/
def emplaceMember {α : Type} (get : Json → Except String α) (result : OrdMap Bytes α) (member : Bytes × Json) :
    Except String (OrdMap Bytes α) := do
  let value ← get member.2
  return result.emplace (cString member.1) value

/-- An object as a map, with its members in order. -/
def jsonToMap {α : Type} (function : String) (get : Json → Except String α) (document : Json) :
    Except String (OrdMap Bytes α) := do
  let members ← ensureObject function document
  members.foldlM (emplaceMember get) ∅

/-- `GetString` after the check of its kind: a pointer to the characters. -/
def getCString : Json → Except String Bytes
  | .string s => .ok (cString s)
  | _ => .error "JsonToStringMap: !it->value.IsString()"

def jsonToStringMap : Json → Except String (OrdMap Bytes Bytes) := jsonToMap "JsonToStringMap" getCString

def extractStringMap (document : List (Bytes × Json)) (fieldName : Bytes) : Except String (OrdMap Bytes Bytes) :=
  match Json.findMember fieldName document with
  | none => .error ("ExtractStringMap: !document.HasMember(" ++ text fieldName ++ ")")
  | some value => jsonToStringMap value

end JsonParse

/-- `ProcessArray`, collecting what the callback makes of each element. -/
def processArray {α : Type} (callback : Json → Except String α) : Json → Except String (List α)
  | .array elements => elements.mapM callback
  | _ => .error "ProcessArray: !array.IsArray()"

/-- An array that must be there. -/
def extractArray {α : Type} (function : String) (callback : Json → Except String α) (document : List (Bytes × Json))
    (fieldName : Bytes) : Except String (List α) :=
  match Json.findMember fieldName document with
  | none => .error (function ++ ": !document.HasMember(" ++ text fieldName ++ ")")
  | some value => processArray callback value

/-- A field that may be missing, read by a function that may fail. -/
def extractIfPresent {α : Type} (get : Json → Except String α) (document : List (Bytes × Json)) (fieldName : Bytes) :
    Except String (Option α) :=
  match Json.findMember fieldName document with
  | none => .ok none
  | some value => do
    let a ← get value
    return some a

/-! ### Looking up what was written -/

/-- The value written for a field, if any. -/
def findField (name : Bytes) : List (Bytes × Option Json) → Option Json
  | [] => none
  | (k, v) :: l => if k = name then v else findField name l

lemma findMember_membersOf_eq_none {name : Bytes} {fields : List (Bytes × Option Json)}
    (h : name ∉ fields.map Prod.fst) : Json.findMember name (membersOf fields) = none := by
  induction fields with
  | nil => rfl
  | cons f fields ih =>
    obtain ⟨k, v⟩ := f
    simp only [List.map_cons, List.mem_cons, not_or] at h
    have hrest := ih h.2
    cases v with
    | none => exact hrest
    | some v =>
      change Json.findMember name ((k, v) :: membersOf fields) = none
      rw [Json.findMember, if_neg (Ne.symm h.1)]
      exact hrest

/-- With distinct names a field is found exactly when it was written. -/
lemma findMember_membersOf {fields : List (Bytes × Option Json)} (h : (fields.map Prod.fst).Nodup) (name : Bytes) :
    Json.findMember name (membersOf fields) = findField name fields := by
  induction fields with
  | nil => rfl
  | cons f fields ih =>
    obtain ⟨k, v⟩ := f
    rw [List.map_cons, List.nodup_cons] at h
    have hrest := ih h.2
    rw [findField]
    by_cases hk : k = name
    · rw [if_pos hk]
      subst hk
      cases v with
      | none =>
        change Json.findMember k (membersOf fields) = none
        exact findMember_membersOf_eq_none h.1
      | some v =>
        change Json.findMember k ((k, v) :: membersOf fields) = some v
        rw [Json.findMember, if_pos rfl]
    · rw [if_neg hk]
      cases v with
      | none => exact hrest
      | some v =>
        change Json.findMember name ((k, v) :: membersOf fields) = _
        rw [Json.findMember, if_neg hk]
        exact hrest

lemma processArray_map {α β : Type} {f : Json → Except String β} {g : α → Json} {l : List α} {l' : List β} :
    processArray f (.array (l.map g)) = .ok l' ↔ List.Forall₂ (fun a b => f (g a) = .ok b) l l' := by
  rw [processArray, mapM_ok_iff, List.forall₂_map_left_iff]

/-- A list read back element by element. -/
lemma processArray_self {α : Type} {f : Json → Except String α} {g : α → Json} {l : List α}
    (h : ∀ a ∈ l, f (g a) = .ok a) : processArray f (.array (l.map g)) = .ok l := by
  rw [processArray_map, List.forall₂_same]
  exact h

/-- A list whose elements are read back when they satisfy a condition, and otherwise refused. -/
lemma processArray_map_iff {α : Type} {f : Json → Except String α} {g : α → Json} {P : α → Prop} {l : List α}
    (h : ∀ a ∈ l, ∀ r, f (g a) = .ok r ↔ P a ∧ r = a) (r : List α) :
    processArray f (.array (l.map g)) = .ok r ↔ (∀ a ∈ l, P a) ∧ r = l := by
  rw [processArray_map]
  induction l generalizing r with
  | nil => simp
  | cons a l ih =>
    have ha := h a List.mem_cons_self
    have hl := ih (fun b hb => h b (List.mem_cons_of_mem _ hb))
    constructor
    · intro hr
      cases hr with
      | cons h1 h2 =>
        obtain ⟨hP, rfl⟩ := (ha _).mp h1
        obtain ⟨hPs, rfl⟩ := (hl _).mp h2
        exact ⟨List.forall_mem_cons.mpr ⟨hP, hPs⟩, rfl⟩
    · rintro ⟨hP, rfl⟩
      rw [List.forall_mem_cons] at hP
      exact .cons ((ha _).mpr ⟨hP.1, rfl⟩) ((hl _).mpr ⟨hP.2, rfl⟩)

/-- A map read back entry by entry, when no key contains a zero byte. -/
lemma jsonToMap_entries {α : Type} {f : Json → Except String α} {g : α → Json} {m : OrdMap Bytes α}
    (hkeys : ∀ p ∈ m.entries, (0 : Byte) ∉ p.1) (h : ∀ p ∈ m.entries, f (g p.2) = .ok p.2) (function : String) :
    JsonParse.jsonToMap function f (.object (m.entries.map (fun p => (p.1, g p.2)))) = .ok m := by
  have hfold : ∀ (l : List (Bytes × α)) (r : OrdMap Bytes α),
      (∀ p ∈ l, (0 : Byte) ∉ p.1) → (∀ p ∈ l, f (g p.2) = .ok p.2) →
      (l.map (fun p => (p.1, g p.2))).foldlM (JsonParse.emplaceMember f) r =
        .ok (l.foldl (fun r p => r.emplace p.1 p.2) r) := by
    intro l
    induction l with
    | nil => intro r _ _; rfl
    | cons p l ih =>
      intro r h1 h2
      have hstep : JsonParse.emplaceMember f r (p.1, g p.2) = .ok (r.emplace p.1 p.2) := by
        simp only [JsonParse.emplaceMember, h2 p List.mem_cons_self, ok_bind,
          cString_of_notMem (h1 p List.mem_cons_self)]
        rfl
      rw [List.map_cons, List.foldlM_cons, hstep, ok_bind, List.foldl_cons]
      exact ih _ (fun q hq => h1 q (List.mem_cons_of_mem _ hq)) (fun q hq => h2 q (List.mem_cons_of_mem _ hq))
  rw [JsonParse.jsonToMap, ensureObject, ok_bind, hfold _ _ hkeys h, OrdMap.foldl_emplace_entries]

end IcebergCxx

import IcebergCxx.Basic
import IcebergCxx.Lib.Json

/-!
# Reading and writing JSON values

The templates `Serialize`, `Deserialize` and `Extract` that `puffin.cpp` and the filter
`serializer.cpp` both have. A string is passed to the JSON library by a pointer to its bytes, so
what is written ends at its first zero byte; it is read back with its length.
-/

namespace IcebergCxx

open Lib

/-- A NUL-terminated copy of a string. -/
def cString (s : Bytes) : Bytes := s.takeWhile (fun c => c ≠ 0)

def serializeString (s : Bytes) : Json := .string (cString s)

/-- There is no `Is<int16_t>`: the value is read as an `int32_t` and converted. -/
def deserializeInt16 : Json → Except String Int16
  | .int i =>
    if -2 ^ 31 ≤ i ∧ i < 2 ^ 31 then .ok (Int16.ofInt i)
    else .error "Deserialize (primitive): wrong type"
  | _ => .error "Deserialize (primitive): wrong type"

def deserializeInt32 : Json → Except String Int32
  | .int i =>
    if -2 ^ 31 ≤ i ∧ i < 2 ^ 31 then .ok (Int32.ofInt i)
    else .error "Deserialize (primitive): wrong type"
  | _ => .error "Deserialize (primitive): wrong type"

def deserializeInt64 : Json → Except String Int64
  | .int i =>
    if -2 ^ 63 ≤ i ∧ i < 2 ^ 63 then .ok (Int64.ofInt i)
    else .error "Deserialize (primitive): wrong type"
  | _ => .error "Deserialize (primitive): wrong type"

def deserializeBool : Json → Except String Bool
  | .bool b => .ok b
  | _ => .error "Deserialize (primitive): wrong type"

def deserializeString : Json → Except String Bytes
  | .string s => .ok s
  | _ => .error "Deserialize (string): wrong type"

def serializeOptional {α : Type} (f : α → Json) : Option α → Json
  | some value => f value
  | none => .null

def deserializeOptional {α : Type} (f : Json → Except String α) : Json → Except String (Option α)
  | .null => .ok none
  | j => do
    let value ← f j
    return some value

def deserializeVector {α : Type} (f : Json → Except String α) : Json → Except String (List α)
  | .array elements => elements.mapM f
  | _ => .error "Deserialize (array): wrong type"

/-- `Extract`: a member that must be there. -/
def extract {α : Type} (f : Json → Except String α) (members : List (Bytes × Json)) (fieldName : Bytes) :
    Except String α :=
  match Json.findMember fieldName members with
  | some value => f value
  | none => .error ("ExtractPrimitive: !document.HasMember(" ++ text fieldName ++ ")")

/-! ### What is written is read back -/

lemma cString_of_notMem {s : Bytes} (h : (0 : Byte) ∉ s) : cString s = s := by
  unfold cString
  rw [List.takeWhile_eq_self_iff]
  intro c hc
  have : c ≠ 0 := fun h0 => h (h0 ▸ hc)
  simpa using this

lemma cString_eq_self_iff {s : Bytes} : cString s = s ↔ (0 : Byte) ∉ s := by
  constructor
  · intro h h0
    rw [← h] at h0
    have := List.mem_takeWhile_imp h0
    simp at this
  · exact cString_of_notMem

lemma deserializeInt16_toInt (x : Int16) : deserializeInt16 (.int x.toInt) = .ok x := by
  have h1 := Int16.le_toInt x
  have h2 := Int16.toInt_lt x
  simp only [deserializeInt16]
  rw [if_pos (by omega), Int16.ofInt_toInt]

lemma deserializeInt32_toInt (x : Int32) : deserializeInt32 (.int x.toInt) = .ok x := by
  have h1 := Int32.le_toInt x
  have h2 := Int32.toInt_lt x
  simp only [deserializeInt32, h1, h2, and_self, if_true, Int32.ofInt_toInt]

lemma deserializeInt64_toInt (x : Int64) : deserializeInt64 (.int x.toInt) = .ok x := by
  have h1 := Int64.le_toInt x
  have h2 := Int64.toInt_lt x
  simp only [deserializeInt64, h1, h2, and_self, if_true, Int64.ofInt_toInt]

lemma deserializeString_serialize (s : Bytes) : deserializeString (serializeString s) = .ok (cString s) := rfl

/-- An optional value, when its written form is never null. -/
lemma deserializeOptional_serialize {α : Type} {f : Json → Except String α} {g : α → Json} {h : α → α}
    (hne : ∀ a, g a ≠ .null) (hfg : ∀ a, f (g a) = .ok (h a)) (o : Option α) :
    deserializeOptional f (serializeOptional g o) = .ok (o.map h) := by
  cases o with
  | none => rfl
  | some a =>
    have hcase : ∀ j, j ≠ .null → deserializeOptional f j = (f j >>= fun value => .ok (some value)) := by
      intro j hj
      cases j with
      | null => exact absurd rfl hj
      | bool b => rfl
      | int i => rfl
      | string s => rfl
      | array l => rfl
      | object m => rfl
    rw [serializeOptional, hcase _ (hne a), hfg]
    rfl

/-- A list, element by element. -/
lemma deserializeVector_map {α β : Type} {f : Json → Except String β} {g : α → Json} {h : α → β} {l : List α}
    (hfg : ∀ a ∈ l, f (g a) = .ok (h a)) : deserializeVector f (.array (l.map g)) = .ok (l.map h) := by
  rw [deserializeVector, mapM_ok_iff, List.forall₂_map_left_iff, List.forall₂_map_right_iff, List.forall₂_same]
  exact hfg

end IcebergCxx

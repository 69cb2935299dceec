import IcebergCxx.Lib.Avro

/-!
# Schema declarations and records by name

How deep a declaration is and what the declaration of a record means. A record that is filled
member by member ends with every member set, in the order of the schema, whatever the order in
which they were set.
-/

namespace IcebergCxx.Lib

lemma Json.depth_pos (j : Json) : 0 < j.depth := by
  cases j <;> simp [Json.depth]

lemma depth_findMember {name : Bytes} {m : List (Bytes × Json)} {v : Json} (h : Json.findMember name m = some v) :
    v.depth ≤ Json.depthMembers m := by
  induction m with
  | nil => cases h
  | cons p m ih =>
    obtain ⟨k, w⟩ := p
    rw [Json.findMember] at h
    rw [Json.depthMembers]
    split_ifs at h with hk
    · cases h
      exact le_max_left _ _
    · exact (ih h).trans (le_max_right _ _)

/-- The declaration of a field: an object with a name and a type. -/
def fieldSchemaOfJson (fuel : Nat) (field : Json) : Option (Bytes × AvroSchema) :=
  match field with
  | .object f => do
    let fieldName ← memberString f (bytes "name")
    let fieldType ← Json.findMember (bytes "type") f
    let s ← schemaOfJson fuel fieldType
    return (fieldName, s)
  | _ => none

lemma schemaOfJson_record (fuel : Nat) (name : Bytes) (fields : List Json) :
    schemaOfJson (fuel + 1) (.object [(bytes "type", .string (bytes "record")), (bytes "name", .string name),
        (bytes "fields", .array fields)]) =
      (do
        let fields ← fields.mapM (fieldSchemaOfJson fuel)
        if validName name ∧ (fields.map Prod.fst).Nodup then return .record name fields else none) := rfl

/-! ### Filling a record -/

/-- The setter of a member. -/
def findSetter (name : Bytes) : List (Bytes × (AvroDatum → Except String AvroDatum)) →
    Option (AvroDatum → Except String AvroDatum)
  | [] => none
  | (k, f) :: setters => if k = name then some f else findSetter name setters

/-- What one member becomes. -/
def SetTo (setters : List (Bytes × (AvroDatum → Except String AvroDatum))) (member result : Bytes × AvroDatum) : Prop :=
  result.1 = member.1 ∧
    match findSetter member.1 setters with
    | some f => f member.2 = .ok result.2
    | none => result.2 = member.2

section
variable {name : Bytes} {f : AvroDatum → Except String AvroDatum}
  {setters : List (Bytes × (AvroDatum → Except String AvroDatum))} {record result : List (Bytes × AvroDatum)}

lemma findSetter_eq_none (h : name ∉ setters.map Prod.fst) : findSetter name setters = none := by
  induction setters with
  | nil => rfl
  | cons s setters ih =>
    obtain ⟨k, g⟩ := s
    simp only [List.map_cons, List.mem_cons, not_or] at h
    rw [findSetter, if_neg (Ne.symm h.1)]
    exact ih h.2

lemma SetTo.other {member r : Bytes × AvroDatum} (h : SetTo ((name, f) :: setters) member r) (hne : member.1 ≠ name) :
    SetTo setters member r := by
  unfold SetTo at h ⊢
  rwa [findSetter, if_neg (Ne.symm hne)] at h

lemma SetTo.own {d : AvroDatum} {r : Bytes × AvroDatum} (h : SetTo ((name, f) :: setters) (name, d) r) :
    r.1 = name ∧ f d = .ok r.2 := by
  unfold SetTo at h
  rwa [findSetter, if_pos rfl] at h

/-- One member is set. -/
lemma modifyDatum_ok (hrecord : (record.map Prod.fst).Nodup) (hmem : name ∈ record.map Prod.fst)
    (hrest : name ∉ setters.map Prod.fst) (h : List.Forall₂ (SetTo ((name, f) :: setters)) record result) :
    ∃ record', modifyDatum name f record = .ok record' ∧ record'.map Prod.fst = record.map Prod.fst ∧
      List.Forall₂ (SetTo setters) record' result := by
  induction h with
  | nil => cases hmem
  | @cons p q record result hpq hrs ih =>
    obtain ⟨k, d⟩ := p
    rw [List.map_cons, List.nodup_cons] at hrecord
    by_cases hk : k = name
    · subst hk
      obtain ⟨hq1, hq2⟩ := hpq.own
      refine ⟨(k, q.2) :: record, ?_, rfl, .cons ?_ ?_⟩
      · rw [modifyDatum, if_pos rfl, hq2]
        rfl
      · unfold SetTo
        rw [findSetter_eq_none hrest]
        exact ⟨hq1, rfl⟩
      · apply List.forall₂_iff_get.mpr
        rw [List.forall₂_iff_get] at hrs
        refine ⟨hrs.1, fun i hi hi' => (hrs.2 i hi hi').other ?_⟩
        intro heq
        exact hrecord.1 (List.mem_map.mpr ⟨_, List.get_mem _ _, heq⟩)
    · have hmem' : name ∈ record.map Prod.fst := by
        rcases List.mem_cons.mp hmem with h | h
        · exact absurd h.symm hk
        · exact h
      obtain ⟨record', hr, hnames, hset⟩ := ih hrecord.2 hmem'
      refine ⟨(k, d) :: record', ?_, by rw [List.map_cons, hnames, List.map_cons], .cons (hpq.other hk) hset⟩
      rw [modifyDatum, if_neg hk, hr]
      rfl

/-- All members are set, in whatever order. -/
theorem foldlM_modifyDatum (hsetters : (setters.map Prod.fst).Nodup) (hrecord : (record.map Prod.fst).Nodup)
    (hmem : ∀ s ∈ setters, s.1 ∈ record.map Prod.fst) (h : List.Forall₂ (SetTo setters) record result) :
    setters.foldlM (fun record setter => modifyDatum setter.1 setter.2 record) record = .ok result := by
  induction setters generalizing record with
  | nil =>
    have hsame : record = result := by
      have hpairs : List.Forall₂ (fun a b => a = b) record result := h.imp (fun a b hab => Prod.ext hab.1.symm hab.2.symm)
      exact List.forall₂_eq_eq_eq ▸ hpairs
    rw [hsame]
    rfl
  | cons s setters ih =>
    obtain ⟨name, f⟩ := s
    rw [List.map_cons, List.nodup_cons] at hsetters
    obtain ⟨record', hr, hnames, hset⟩ := modifyDatum_ok hrecord (hmem _ List.mem_cons_self) hsetters.1 h
    rw [List.foldlM_cons, hr]
    apply ih hsetters.2 (by rw [hnames]; exact hrecord) _ hset
    intro s hs
    rw [hnames]
    exact hmem s (List.mem_cons_of_mem _ hs)

end

end IcebergCxx.Lib

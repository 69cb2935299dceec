import IcebergCxx.ParquetColumns

/-!
# Which leaf a field id designates

All three places compute the position of the field in the root. It is the index of its leaf exactly
when the fields before it have as many leaves as there are of them.
-/

namespace IcebergCxx.Proofs

open Lib ParquetNode

/-! ### Leaves -/

lemma leavesFrom_append (k : Nat) (l l' : List ParquetNode) :
    leavesFrom k (l ++ l') = leavesFrom k l ++ leavesFrom (k + l.length) l' := by
  induction l generalizing k with
  | nil => simp [leavesFrom]
  | cons field l ih =>
    rw [List.cons_append, leavesFrom, leavesFrom, ih, List.append_assoc, List.length_cons, Nat.add_right_comm,
      Nat.add_assoc]

/-- A leaf starts with the position of its root field. -/
lemma head_of_mem_leavesFrom {k : Nat} {l : List ParquetNode} {path : List Nat} (h : path ∈ leavesFrom k l) :
    ∃ i rest, path = i :: rest ∧ k ≤ i ∧ i < k + l.length := by
  induction l generalizing k with
  | nil => cases h
  | cons field l ih =>
    rw [leavesFrom] at h
    rw [List.length_cons]
    rcases List.mem_append.mp h with h | h
    · obtain ⟨rest, -, rfl⟩ := List.mem_map.mp h
      exact ⟨k, rest, rfl, le_rfl, by omega⟩
    · obtain ⟨i, rest, rfl, h1, h2⟩ := ih h
      exact ⟨i, rest, rfl, by omega, by omega⟩

/-- The number of leaves of the root fields before a position. -/
def leavesBefore (fields : List ParquetNode) (p : Nat) : Nat := (leavesFrom 0 (fields.take p)).length

section
variable {fields : List ParquetNode} {p : Nat} {name : Bytes} {fieldId : Int}

lemma eq_take_append (h : fields[p]? = some (.primitive name fieldId)) :
    fields = fields.take p ++ .primitive name fieldId :: fields.drop (p + 1) ∧ (fields.take p).length = p := by
  obtain ⟨hlt, hget⟩ := List.getElem?_eq_some_iff.mp h
  refine ⟨?_, by rw [List.length_take]; omega⟩
  rw [← hget, List.getElem_cons_drop, List.take_append_drop]

/-- The column of a primitive root field is the one after the leaves of the fields before it. -/
lemma parquetColumn_eq_iff (h : fields[p]? = some (.primitive name fieldId)) (i : Nat) :
    parquetColumn fields i = some [p] ↔ i = leavesBefore fields p := by
  obtain ⟨hfields, hlen⟩ := eq_take_append h
  have hleaves : leavesFrom 0 fields =
      leavesFrom 0 (fields.take p) ++ ([p] :: leavesFrom (p + 1) (fields.drop (p + 1))) := by
    conv_lhs => rw [hfields]
    rw [leavesFrom_append, hlen, Nat.zero_add, leavesFrom]
    rfl
  rw [parquetColumn, hleaves]
  change _ ↔ i = (leavesFrom 0 (fields.take p)).length
  rcases Nat.lt_trichotomy i (leavesFrom 0 (fields.take p)).length with hi | hi | hi
  · refine ⟨fun hget => ?_, fun heq => by omega⟩
    rw [List.getElem?_append_left hi] at hget
    obtain ⟨j, rest, heq, -, hj⟩ := head_of_mem_leavesFrom (List.mem_of_getElem? hget)
    cases heq
    omega
  · refine ⟨fun _ => hi, fun _ => ?_⟩
    rw [hi, List.getElem?_append_right le_rfl, Nat.sub_self]
    rfl
  · refine ⟨fun hget => ?_, fun heq => by omega⟩
    rw [List.getElem?_append_right hi.le] at hget
    obtain ⟨d, hd⟩ : ∃ d, i - (leavesFrom 0 (fields.take p)).length = d + 1 := ⟨_, (Nat.succ_pred_eq_of_pos (by omega)).symm⟩
    rw [hd, List.getElem?_cons_succ] at hget
    obtain ⟨j, rest, heq, hj, -⟩ := head_of_mem_leavesFrom (List.mem_of_getElem? hget)
    cases heq
    omega

lemma zipIdx_eq_append (h : fields[p]? = some (.primitive name fieldId)) :
    fields.zipIdx = (fields.take p).zipIdx ++ (.primitive name fieldId, p) :: (fields.drop (p + 1)).zipIdx (p + 1) := by
  obtain ⟨hfields, hlen⟩ := eq_take_append h
  conv_lhs => rw [hfields]
  rw [List.zipIdx_append, hlen, Nat.zero_add, List.zipIdx_cons]

end

/-! ### The three maps -/

/-- Steps that do not touch a key leave its value. -/
lemma find?_foldl_untouched {K V α : Type} [LinearOrder K] {step : OrdMap K V → α → OrdMap K V} {l : List α} {key : K}
    (h : ∀ a ∈ l, ∀ m, (step m a).find? key = m.find? key) (m : OrdMap K V) :
    (l.foldl step m).find? key = m.find? key := by
  induction l generalizing m with
  | nil => rfl
  | cons a l ih =>
    rw [List.foldl_cons, ih (fun b hb => h b (List.mem_cons_of_mem _ hb)), h a List.mem_cons_self]

section
variable {fields : List ParquetNode} {p : Nat} {name : Bytes} {fieldId : Int}
  {schemaNameMapper : Option (Bytes → Option Int)}

/-- Fields with different ids are all entered, each with its position. -/
lemma makeFieldIdToIndexMap_from (l : List ParquetNode) (k : Nat) (m : OrdMap Int Nat)
    (hunique : (l.filterMap (rootFieldId schemaNameMapper)).Nodup)
    (hnew : ∀ id ∈ l.filterMap (rootFieldId schemaNameMapper), m.find? id = none) :
    ∃ m', (l.zipIdx k).foldlM (addFieldIndex schemaNameMapper) m = .ok m' ∧
      (∀ id, id ∉ l.filterMap (rootFieldId schemaNameMapper) → m'.find? id = m.find? id) ∧
      ∀ q field id, l[q]? = some field → rootFieldId schemaNameMapper field = some id → m'.find? id = some (k + q) := by
  induction l generalizing k m with
  | nil => exact ⟨m, rfl, fun _ _ => rfl, fun q field id hq => by cases hq⟩
  | cons field l ih =>
    rw [List.zipIdx_cons, List.foldlM_cons]
    cases hid : rootFieldId schemaNameMapper field with
    | none =>
      rw [List.filterMap_cons_none hid] at hunique hnew ⊢
      obtain ⟨m', hm', hold, hpos⟩ := ih (k + 1) m hunique hnew
      have hstep : addFieldIndex schemaNameMapper m (field, k) = .ok m := by
        simp only [addFieldIndex, hid]
      refine ⟨m', by rw [hstep, ok_bind]; exact hm', hold, fun q field' id hq hfield' => ?_⟩
      cases q with
      | zero =>
        cases hq
        rw [hid] at hfield'
        cases hfield'
      | succ q =>
        rw [hpos q field' id hq hfield']
        congr 1
        omega
    | some id₀ =>
      rw [List.filterMap_cons_some hid] at hunique hnew ⊢
      rw [List.nodup_cons] at hunique
      have hfresh : m.contains id₀ = false := by
        rw [OrdMap.contains, hnew id₀ List.mem_cons_self]
        rfl
      have hstep : addFieldIndex schemaNameMapper m (field, k) = .ok (m.insert id₀ k) := by
        simp only [addFieldIndex, hid, insertOrFail, hfresh]
        rfl
      have hnew' : ∀ id ∈ l.filterMap (rootFieldId schemaNameMapper), (m.insert id₀ k).find? id = none := by
        intro id hmem
        have hne : id ≠ id₀ := fun heq => hunique.1 (heq ▸ hmem)
        rw [OrdMap.find?_insert, if_neg hne]
        exact hnew id (List.mem_cons_of_mem _ hmem)
      obtain ⟨m', hm', hold, hpos⟩ := ih (k + 1) (m.insert id₀ k) hunique.2 hnew'
      refine ⟨m', by rw [hstep, ok_bind]; exact hm', fun id hmem => ?_, fun q field' id hq hfield' => ?_⟩
      · rw [List.mem_cons, not_or] at hmem
        rw [hold id hmem.2, OrdMap.find?_insert, if_neg hmem.1]
      · cases q with
        | zero =>
          cases hq
          rw [hid] at hfield'
          cases hfield'
          rw [hold id₀ hunique.1, OrdMap.find?_insert, if_pos rfl]
          rfl
        | succ q =>
          rw [hpos q field' id hq hfield']
          congr 1
          omega

lemma columnPosition_eq (h : fields[p]? = some (.primitive name fieldId)) (hid : 0 ≤ fieldId)
    (hunique : (fields.filterMap (rootFieldId schemaNameMapper)).Nodup) :
    columnPosition schemaNameMapper fields fieldId = .ok (some p) := by
  obtain ⟨m, hm, -, hpos⟩ := makeFieldIdToIndexMap_from fields 0 ∅ hunique (fun _ _ => rfl)
  have hroot : rootFieldId schemaNameMapper (.primitive name fieldId) = some fieldId := if_pos hid
  rw [columnPosition, makeFieldIdToIndexMap, hm, ok_bind, hpos p _ fieldId h hroot, Nat.zero_add]
  rfl

/-- No other root field has the field id. -/
lemma fieldId_ne_of_unique (h : fields[p]? = some (.primitive name fieldId)) (hid : 0 ≤ fieldId)
    (hunique : (fields.filterMap (rootFieldId schemaNameMapper)).Nodup) :
    (∀ field ∈ fields.take p, field.fieldId ≠ fieldId) ∧ ∀ field ∈ fields.drop (p + 1), field.fieldId ≠ fieldId := by
  obtain ⟨hfields, -⟩ := eq_take_append h
  have hroot : ∀ field : ParquetNode, field.fieldId = fieldId → rootFieldId schemaNameMapper field = some fieldId := by
    intro field hfield
    rw [rootFieldId, hfield, if_pos hid]
  rw [hfields, List.filterMap_append, List.filterMap_cons_some (hroot _ rfl), List.nodup_append] at hunique
  obtain ⟨-, hright, hdisjoint⟩ := hunique
  rw [List.nodup_cons] at hright
  constructor
  · intro field hmem heq
    exact hdisjoint fieldId (List.mem_filterMap.mpr ⟨field, hmem, hroot field heq⟩) fieldId List.mem_cons_self rfl
  · intro field hmem heq
    exact hright.1 (List.mem_filterMap.mpr ⟨field, hmem, hroot field heq⟩)

lemma find?_nameToParquetIndex {fieldIdToName : OrdMap Int Bytes} {columnName : Bytes}
    (h : fields[p]? = some (.primitive name fieldId)) (hid : 0 ≤ fieldId)
    (hother : ∀ field ∈ fields.drop (p + 1), field.fieldId ≠ fieldId)
    (hname : fieldIdToName.find? fieldId = some columnName)
    (hnames : ∀ id, fieldIdToName.find? id = some columnName → id = fieldId) :
    (nameToParquetIndex fieldIdToName fields).find? columnName = some p := by
  rw [nameToParquetIndex, zipIdx_eq_append h, List.foldl_append, List.foldl_cons, find?_foldl_untouched]
  · have hset : ∀ m, addNameIndex fieldIdToName m (.primitive name fieldId, p) = m.insert columnName p := by
      intro m
      have hne : (ParquetNode.primitive name fieldId).fieldId ≠ -1 := by
        change fieldId ≠ -1
        omega
      have hfind : fieldIdToName.find? (ParquetNode.primitive name fieldId).fieldId = some columnName := hname
      simp only [addNameIndex, if_neg hne, hfind]
    rw [hset, OrdMap.find?_insert, if_pos rfl]
  · rintro ⟨field, q⟩ hmem m
    have hfield := hother field (List.fst_mem_of_mem_zipIdx hmem)
    unfold addNameIndex
    split_ifs
    · rfl
    · cases hfind : fieldIdToName.find? field.fieldId with
      | none => rfl
      | some other =>
        have hne : columnName ≠ other := by
          intro heq
          exact hfield (hnames _ (heq ▸ hfind))
        change (m.insert other q).find? columnName = _
        rw [OrdMap.find?_insert, if_neg hne]

lemma find?_fieldIdToPosition {fieldIds : List Int} (h : fields[p]? = some (.primitive name fieldId))
    (hbefore : ∀ field ∈ fields.take p, field.fieldId ≠ fieldId)
    (hafter : ∀ field ∈ fields.drop (p + 1), field.fieldId ≠ fieldId) (hmem : fieldId ∈ fieldIds) :
    (fieldIdToPosition fields fieldIds).find? fieldId = some p := by
  have huntouched : ∀ (l : List ParquetNode) (k : Nat), (∀ field ∈ l, field.fieldId ≠ fieldId) →
      ∀ a ∈ (l.map ParquetNode.fieldId).zipIdx k, ∀ m, (addPosition fieldIds m a).find? fieldId = m.find? fieldId := by
    rintro l k hl ⟨id, q⟩ ha m
    obtain ⟨field, hfield, hid⟩ := List.mem_map.mp (List.fst_mem_of_mem_zipIdx ha)
    have hne : fieldId ≠ id := fun heq => hl field hfield (hid.trans heq.symm)
    unfold addPosition
    split_ifs
    · rw [OrdMap.find?_emplace, if_neg hne]
    · rfl
  obtain ⟨hfields, hlen⟩ := eq_take_append h
  have hids : (getParquetFieldIds fields).zipIdx = ((fields.take p).map ParquetNode.fieldId).zipIdx ++
      (fieldId, p) :: ((fields.drop (p + 1)).map ParquetNode.fieldId).zipIdx (p + 1) := by
    conv_lhs => rw [getParquetFieldIds, hfields]
    rw [List.map_append, List.zipIdx_append, List.length_map, hlen, Nat.zero_add, List.map_cons, List.zipIdx_cons]
    rfl
  rw [fieldIdToPosition, hids, List.foldl_append, List.foldl_cons,
    find?_foldl_untouched (huntouched _ _ hafter), addPosition, if_pos hmem, OrdMap.find?_emplace, if_pos rfl,
    find?_foldl_untouched (huntouched _ _ hbefore)]
  rfl

end

/-! ### The law -/

/-- An index is that of the leaf of a root field. -/
def Designates (fields : List ParquetNode) (p : Nat) (index : Option Nat) : Prop :=
  ∃ i, index = some i ∧ parquetColumn fields i = some [p]

/-- The field id of the root field at a position is turned into the index of its leaf by the reader of
data files, by the row group statistics, under the name of the field, and by the reader of equality
delete files. -/
structure FieldIdDesignatesLeaf (schemaNameMapper : Option (Bytes → Option Int)) (fieldIdToName : OrdMap Int Bytes)
    (fieldIds : List Int) (fields : List ParquetNode) (p : Nat) (fieldId : Int) (columnName : Bytes) : Prop where
  data : ∃ index, columnPosition schemaNameMapper fields fieldId = .ok index ∧ Designates fields p index
  stats : Designates fields p (statsColumn fieldIdToName fields columnName)
  deletes : ∀ columns, deleteColumns fields fieldIds = .ok columns →
    ∃ i, (fieldId, i) ∈ columns ∧ parquetColumn fields i = some [p]

theorem fieldIdDesignatesLeaf_iff {schemaNameMapper : Option (Bytes → Option Int)} {fieldIdToName : OrdMap Int Bytes}
    {fieldIds : List Int} {fields : List ParquetNode} {p : Nat} {name columnName : Bytes} {fieldId : Int}
    (hfield : fields[p]? = some (.primitive name fieldId)) (hid : 0 ≤ fieldId)
    (hunique : (fields.filterMap (rootFieldId schemaNameMapper)).Nodup)
    (hname : fieldIdToName.find? fieldId = some columnName)
    (hnames : ∀ id, fieldIdToName.find? id = some columnName → id = fieldId) (hmem : fieldId ∈ fieldIds) :
    FieldIdDesignatesLeaf schemaNameMapper fieldIdToName fieldIds fields p fieldId columnName ↔
      leavesBefore fields p = p := by
  obtain ⟨hbefore, hafter⟩ := fieldId_ne_of_unique hfield hid hunique
  have hcolumn := parquetColumn_eq_iff hfield p
  constructor
  · rintro ⟨⟨index, hindex, i, rfl, hleaf⟩, -, -⟩
    rw [columnPosition_eq hfield hid hunique] at hindex
    cases hindex
    exact (hcolumn.mp hleaf).symm
  · intro hcount
    have hleaf := hcolumn.mpr hcount.symm
    refine ⟨⟨some p, columnPosition_eq hfield hid hunique, p, rfl, hleaf⟩, ⟨p, ?_, hleaf⟩, fun columns hcolumns => ?_⟩
    · have hlt : p < (leavesFrom 0 fields).length := (List.getElem?_eq_some_iff.mp hleaf).1
      rw [statsColumn, find?_nameToParquetIndex hfield hid hafter hname hnames]
      exact Option.filter_some_pos (by simpa using hlt)
    · obtain ⟨_, -, hcolumns⟩ := bind_ok hcolumns
      cases hcolumns
      exact ⟨p, (OrdMap.mem_entries _ _ _).mpr (find?_fieldIdToPosition hfield hbefore hafter hmem), hleaf⟩

/-- A list has one leaf, so the field after it has the index of its leaf. -/
theorem fieldAfterList_designatesLeaf :
    FieldIdDesignatesLeaf none ((∅ : OrdMap Int Bytes).insert 2 (bytes "b")) [2]
      [.group (bytes "l") 1 [.group (bytes "list") (-1) [.primitive (bytes "element") 3]], .primitive (bytes "b") 2]
      1 2 (bytes "b") := by
  refine (fieldIdDesignatesLeaf_iff rfl (by decide) (by decide) rfl (fun id h => ?_) (by decide)).mpr rfl
  rw [OrdMap.find?_insert] at h
  split_ifs at h with hid
  · exact hid
  · cases h

/-- A struct with the fields x and y before b: all three read y in the place of b. -/
theorem fieldAfterStruct_other_leaf :
    columnPosition none
        [.group (bytes "s") 1 [.primitive (bytes "x") 3, .primitive (bytes "y") 4], .primitive (bytes "b") 2] 2 =
      .ok (some 1) ∧
    parquetColumn [.group (bytes "s") 1 [.primitive (bytes "x") 3, .primitive (bytes "y") 4], .primitive (bytes "b") 2]
      1 = some [0, 1] ∧
    ¬FieldIdDesignatesLeaf none ((∅ : OrdMap Int Bytes).insert 2 (bytes "b")) [2]
      [.group (bytes "s") 1 [.primitive (bytes "x") 3, .primitive (bytes "y") 4], .primitive (bytes "b") 2]
      1 2 (bytes "b") := by
  refine ⟨rfl, rfl, fun h => ?_⟩
  obtain ⟨index, hindex, i, rfl, hleaf⟩ := h.data
  cases hindex
  cases hleaf

end IcebergCxx.Proofs

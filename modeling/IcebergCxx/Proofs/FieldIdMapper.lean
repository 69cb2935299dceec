import IcebergCxx.IcebergStream
import IcebergCxx.Lib.Json

/-!
# Names of field ids

A generated name says its counter and its field id, and the counter is raised until the name is none of
the known ones. There are at most `2 ^ 32` known names, so the counter never wraps.
-/

namespace IcebergCxx.Proofs

open Lib

/-! ### Generated names -/

lemma toDecimalInt_inj {i j : Int} (h : toDecimalInt i = toDecimalInt j) : i = j := by
  have hminus : ∀ n m : Nat, toDecimal n ≠ 45 :: toDecimal m := by
    intro n m hnm
    have h45 : (45 : Byte) ∈ toDecimal n := by rw [hnm]; exact List.mem_cons_self
    have hdigit := Json.isDigit_toDecimal n 45 h45
    exact absurd hdigit (by decide)
  cases i with
  | ofNat n =>
    cases j with
    | ofNat m => rw [toDecimal_inj h]
    | negSucc m => exact absurd h (hminus n (m + 1))
  | negSucc n =>
    cases j with
    | ofNat m => exact absurd h.symm (hminus m (n + 1))
    | negSucc m =>
      have := toDecimal_inj (List.cons.inj h).2
      rw [Nat.succ.inj this]

lemma unnamedColumn_inj {id id' : Int} {c c' : Nat}
    (h : FieldIdMapper.unnamedColumn id c = FieldIdMapper.unnamedColumn id' c') : c = c' ∧ id = id' := by
  simp only [FieldIdMapper.unnamedColumn, List.append_assoc, List.append_cancel_left_eq] at h
  -- the digits end at the underscore
  have hspan : ∀ n : Nat, ∀ i : Int,
      (toDecimal n ++ (bytes "_f" ++ toDecimalInt i)).takeWhile Json.isDigit = toDecimal n := by
    intro n i
    rw [List.takeWhile_append_of_pos (Json.isDigit_toDecimal n)]
    have : (bytes "_f" ++ toDecimalInt i).takeWhile Json.isDigit = [] := rfl
    rw [this, List.append_nil]
  have hc : toDecimal c = toDecimal c' := by rw [← hspan c id, h, hspan]
  rw [hc, List.append_cancel_left_eq, List.append_cancel_left_eq] at h
  exact ⟨toDecimal_inj hc, toDecimalInt_inj h⟩

/-- More candidates than used names: one of them is free, and the first such is generated. -/
lemma find?_unnamedColumn (mapper : FieldIdMapper) (id : Int) :
    ((List.range (mapper.usedNames.length + 1)).map (FieldIdMapper.unnamedColumn id)).find?
      (fun name => name ∉ mapper.usedNames) = some (mapper.generateNameForUnnamedColumn id) := by
  set candidates := (List.range (mapper.usedNames.length + 1)).map (FieldIdMapper.unnamedColumn id) with hcand
  have hnodup : candidates.Nodup :=
    List.nodup_range.map (fun c c' h => (unnamedColumn_inj h).1)
  have hsome : (candidates.find? (fun name => name ∉ mapper.usedNames)).isSome := by
    rw [List.find?_isSome]
    by_contra hnone
    have hsub : candidates ⊆ mapper.usedNames := by
      intro name hname
      by_contra hfree
      exact hnone ⟨name, hname, by simpa using hfree⟩
    have hlen := (hnodup.subperm hsub).length_le
    simp [hcand] at hlen
  obtain ⟨name, hname⟩ := Option.isSome_iff_exists.mp hsome
  rw [FieldIdMapper.generateNameForUnnamedColumn, ← hcand, hname]
  rfl

lemma generateNameForUnnamedColumn_spec (mapper : FieldIdMapper) (id : Int) :
    mapper.generateNameForUnnamedColumn id ∉ mapper.usedNames ∧
      ∃ c, mapper.generateNameForUnnamedColumn id = FieldIdMapper.unnamedColumn id c := by
  have hfind := find?_unnamedColumn mapper id
  refine ⟨by simpa using List.find?_some hfind, ?_⟩
  obtain ⟨c, -, hc⟩ := List.mem_map.mp (List.mem_of_find?_eq_some hfind)
  exact ⟨c, hc.symm⟩

/-- Where the schema gives its columns distinct names, so does the mapper to all field ids. -/
lemma fieldIdToColumnName_injective {mapper : FieldIdMapper} (h : mapper.usedNames.Nodup) :
    Function.Injective mapper.fieldIdToColumnName := by
  have hused : ∀ {id name}, mapper.knownFieldIdToName.find? id = some name → name ∈ mapper.usedNames :=
    fun hid => List.mem_map_of_mem ((OrdMap.mem_entries _ _ _).mpr hid)
  intro id id' heq
  unfold FieldIdMapper.fieldIdToColumnName at heq
  obtain ⟨hfree, c, hc⟩ := generateNameForUnnamedColumn_spec mapper id
  obtain ⟨hfree', c', hc'⟩ := generateNameForUnnamedColumn_spec mapper id'
  cases hid : mapper.knownFieldIdToName.find? id with
  | none =>
    cases hid' : mapper.knownFieldIdToName.find? id' with
    | none =>
      rw [hid, hid', Option.getD_none, Option.getD_none, hc, hc'] at heq
      exact (unnamedColumn_inj heq).2
    | some name' =>
      rw [hid, hid', Option.getD_none, Option.getD_some] at heq
      exact absurd (heq ▸ hused hid') hfree
  | some name =>
    cases hid' : mapper.knownFieldIdToName.find? id' with
    | none =>
      rw [hid, hid', Option.getD_none, Option.getD_some] at heq
      exact absurd (heq ▸ hused hid) hfree'
    | some name' =>
      rw [hid, hid', Option.getD_some, Option.getD_some] at heq
      subst heq
      have h1 := (OrdMap.mem_entries _ _ _).mpr hid
      have h2 := (OrdMap.mem_entries _ _ _).mpr hid'
      have := List.inj_on_of_nodup_map h h1 h2 rfl
      exact congrArg Prod.fst this

/-! ### The loop -/

/-- As long as the counter does not wrap, the loop takes the first free name of a range. -/
lemma generateNameLoop_eq (mapper : FieldIdMapper) (id : Int) {rounds c : Nat} (h : c + rounds ≤ 2 ^ 64) :
    mapper.generateNameLoop id rounds (UInt64.ofNat c) =
      ((List.range' c rounds).map (FieldIdMapper.unnamedColumn id)).find? (fun name => name ∉ mapper.usedNames) := by
  induction rounds generalizing c with
  | zero => rfl
  | succ rounds ih =>
    have hc : (UInt64.ofNat c).toNat = c := by rw [UInt64.toNat_ofNat', Nat.mod_eq_of_lt (by omega)]
    have hnext : UInt64.ofNat c + 1 = UInt64.ofNat (c + 1) := by rw [UInt64.ofNat_add]; rfl
    rw [FieldIdMapper.generateNameLoop, List.range'_succ, List.map_cons, List.find?_cons, hc, hnext]
    by_cases hused : FieldIdMapper.unnamedColumn id c ∈ mapper.usedNames
    · rw [if_pos hused, ih (by omega), decide_eq_false (not_not.mpr hused)]
    · rw [if_neg hused, decide_eq_true hused]

/-- More rounds than the loop takes change nothing. -/
lemma generateNameLoop_mono {mapper : FieldIdMapper} {id : Int} {rounds more : Nat} {c : UInt64} {name : Bytes}
    (h : mapper.generateNameLoop id rounds c = some name) (hmore : rounds ≤ more) :
    mapper.generateNameLoop id more c = some name := by
  induction rounds generalizing more c with
  | zero => cases h
  | succ rounds ih =>
    obtain ⟨more, rfl⟩ : ∃ n, more = n + 1 := ⟨more - 1, by omega⟩
    rw [FieldIdMapper.generateNameLoop] at h ⊢
    split_ifs at h ⊢
    · exact ih h (by omega)
    · exact h

/-- The known field ids are of the type `int`. -/
def KnowsInts (mapper : FieldIdMapper) : Prop := ∀ id ∈ mapper.knownFieldIdToName.keys, -2 ^ 31 ≤ id ∧ id < 2 ^ 31

lemma KnowsInts.length_usedNames_le {mapper : FieldIdMapper} (h : KnowsInts mapper) :
    mapper.usedNames.length ≤ 2 ^ 32 := by
  have hsub : mapper.knownFieldIdToName.keys.toFinset ⊆ Finset.Ico (-2 ^ 31) (2 ^ 31) := by
    intro id hid
    rw [Finset.mem_Ico]
    exact h id (List.mem_toFinset.mp hid)
  have hcard := Finset.card_le_card hsub
  rw [List.toFinset_card_of_nodup (OrdMap.keys_nodup _), Int.card_Ico] at hcard
  simpa [FieldIdMapper.usedNames, OrdMap.values, OrdMap.keys] using hcard

/-- The loop ends, and gives the name that the other modules go by. -/
lemma fieldIdToColumnNameWithin_eq {mapper : FieldIdMapper} (h : KnowsInts mapper) (id : Int) {rounds : Nat}
    (hrounds : mapper.usedNames.length < rounds) :
    mapper.fieldIdToColumnNameWithin rounds id = some (mapper.fieldIdToColumnName id) := by
  have hused := h.length_usedNames_le
  have hloop : mapper.generateNameLoop id (mapper.usedNames.length + 1) 0 =
      some (mapper.generateNameForUnnamedColumn id) := by
    rw [← find?_unnamedColumn, List.range_eq_range']
    exact generateNameLoop_eq mapper id (c := 0) (by omega)
  rw [FieldIdMapper.fieldIdToColumnNameWithin, FieldIdMapper.fieldIdToColumnName]
  cases mapper.knownFieldIdToName.find? id with
  | none => exact generateNameLoop_mono hloop hrounds
  | some name => rfl

/-- Whatever the known names are, every field id gets a name, distinct ones get distinct names, and
a known name is that of its known id. -/
theorem columnNames_distinct (mapper : FieldIdMapper) (hints : KnowsInts mapper) (hnames : mapper.usedNames.Nodup) :
    (∀ id, ∃ rounds, ∀ more ≥ rounds,
        mapper.fieldIdToColumnNameWithin more id = some (mapper.fieldIdToColumnName id)) ∧
      Function.Injective mapper.fieldIdToColumnName ∧
      ∀ id known name, mapper.knownFieldIdToName.find? known = some name → mapper.fieldIdToColumnName id = name →
        id = known := by
  refine ⟨?_, fieldIdToColumnName_injective hnames, ?_⟩
  · intro id
    exact ⟨mapper.usedNames.length + 1, fun more hmore => fieldIdToColumnNameWithin_eq hints id hmore⟩
  · intro id known name hknown heq
    apply fieldIdToColumnName_injective hnames
    rw [heq, FieldIdMapper.fieldIdToColumnName, hknown, Option.getD_some]

/-- The known name of the field 1 is the first that would be generated for the field 7. -/
def adversarialMapper : FieldIdMapper where
  knownFieldIdToName := (∅ : OrdMap Int Bytes).insert 1 (bytes "__unnamed_c0_f7") |>.insert 2 (bytes "__unnamed_c2_f7")

theorem adversarialMapper_distinct : adversarialMapper.fieldIdToColumnName 7 = bytes "__unnamed_c1_f7" ∧
    Function.Injective adversarialMapper.fieldIdToColumnName := by
  have h := columnNames_distinct adversarialMapper (by unfold KnowsInts; decide) (by decide)
  exact ⟨by decide, h.2.1⟩

end IcebergCxx.Proofs

import IcebergCxx.Proofs.PackedDelete

/-!
# When an equality delete answers right

The general implementation always does. The one-column implementation forgets the layer of
deleted nulls, and the packed implementation compares the bytes of null slots.
-/

namespace IcebergCxx.Proofs

open Lib

def totalBitWidth (types : List KeyType) : Nat := (types.map (fun type => 8 * type.byteWidth.getD 0)).sum

/-- The first column of a row is null. -/
def FirstNull (arrays : List KeyArray) (row : Nat) : Prop := (arrays.getD 0 default).isNull row = true

/-- If a null was deleted at all, one was deleted in a high enough layer. -/
def NullLayersSuffice (calls : List AddCall) (arrays : List KeyArray) (row : Nat) (dataLayer : Int) : Prop :=
  FirstNull arrays row → (∃ added ∈ addedRows calls, FirstNull added.1 added.2.1) →
    ∃ added ∈ addedRows calls, FirstNull added.1 added.2.1 ∧ dataLayer ≤ added.2.2

/-- If an equal row was deleted in a high enough layer, one was that has the same bytes in its
null slots. -/
def NullBytesAgree (calls : List AddCall) (arrays : List KeyArray) (row : Nat) (dataLayer : Int) : Prop :=
  EqualityDeleted calls arrays row dataLayer →
    ∃ added ∈ addedRows calls, rowSlots added.1 added.2.1 = rowSlots arrays row ∧ dataLayer ≤ added.2.2

/-- The condition on the deleted rows and the query, for the implementation that is chosen. -/
def RemembersRight (types : List KeyType) (useSpecializedDeletes : Bool) (calls : List AddCall)
    (arrays : List KeyArray) (row : Nat) (dataLayer : Int) : Prop :=
  useSpecializedDeletes = true → types.all KeyType.isSpecialized = true →
    (types.length = 1 → NullLayersSuffice calls arrays row dataLayer) ∧
    (types.length ≠ 1 → totalBitWidth types ≤ 128 → NullBytesAgree calls arrays row dataLayer)

lemma typeToBitWidth_ok {type : KeyType} (h : type.isSpecialized = true) :
    typeToBitWidth type = .ok (8 * type.byteWidth.getD 0) := by
  cases type <;> simp_all [KeyType.isSpecialized, typeToBitWidth, KeyType.byteWidth]

lemma mapM_typeToBitWidth {types : List KeyType} (h : types.all KeyType.isSpecialized = true) :
    types.mapM typeToBitWidth = .ok (types.map (fun type => 8 * type.byteWidth.getD 0)) := by
  rw [mapM_ok_iff, List.forall₂_map_right_iff, List.forall₂_same]
  intro type htype
  exact typeToBitWidth_ok (List.all_eq_true.mp h type htype)

lemma length_le_of_totalBitWidth {types : List KeyType} (h : types.all KeyType.isSpecialized = true) :
    16 * types.length ≤ totalBitWidth types := by
  induction types with
  | nil => simp
  | cons type types ih =>
    simp only [List.all_cons, Bool.and_eq_true] at h
    have htail := ih h.2
    have hhead : 16 ≤ 8 * type.byteWidth.getD 0 := by
      cases type <;> simp_all [KeyType.isSpecialized, KeyType.byteWidth]
    simp only [totalBitWidth, List.map_cons, List.sum_cons, List.length_cons] at htail ⊢
    omega

/-- Two or more columns that fit into 128 bits are packed. -/
lemma makeEqualityDelete_packed (sortBy : ∀ width : Nat → Nat, DescendingSort width) {types : List KeyType}
    (hall : types.all KeyType.isSpecialized = true) (hlen : types.length ≠ 1) (hwidth : totalBitWidth types ≤ 128) :
    ∃ del, makeEqualityDelete sortBy types true = .ok (.multipleColumn del) ∧ PackedFor types del ∧
      del.values = {} ∧ del.valuesWithNulls = {} ∧ (del.bits = 32 ∨ del.bits = 64 ∨ del.bits = 128) := by
  unfold makeEqualityDelete
  simp only [Bool.true_eq_false, if_false]
  split
  · exact absurd rfl hlen
  · rw [if_pos hall, mapM_typeToBitWidth hall, ok_bind]
    refine ⟨_, if_neg (not_lt.mpr hwidth), ⟨rfl, ?_, ?_, ?_, ?_⟩, rfl, rfl, ?_⟩
    · simpa using (sortBy _).perm (List.range types.length)
    · rw [List.forall₂_map_right_iff, List.forall₂_same]
      intro type htype
      exact typeToBitWidth_ok (List.all_eq_true.mp hall type htype)
    · have hsum : (types.map (fun type => 8 * type.byteWidth.getD 0)).sum = totalBitWidth types := rfl
      simp only [hsum]
      split_ifs <;> omega
    · have := length_le_of_totalBitWidth hall
      omega
    · simp only
      split_ifs <;> simp

/-- What `MakeEqualityDelete` answers. -/
inductive Chosen (types : List KeyType) (useSpecializedDeletes : Bool) : EqualityDelete → Prop
  | generic (h : useSpecializedDeletes = true → types.all KeyType.isSpecialized = true →
      types.length ≠ 1 ∧ 128 < totalBitWidth types) : Chosen types useSpecializedDeletes (.generic {})
  | oneColumn {type : KeyType} (hs : useSpecializedDeletes = true) (ht : types = [type])
      (hall : type.isSpecialized = true) : Chosen types useSpecializedDeletes (.oneColumn { type })
  | multipleColumn {del : SpecializedDeleteMultipleColumn} (hs : useSpecializedDeletes = true)
      (hall : types.all KeyType.isSpecialized = true) (hlen : types.length ≠ 1) (hwidth : totalBitWidth types ≤ 128)
      (hd : PackedFor types del) (hvalues : del.values = {}) (hnulls : del.valuesWithNulls = {}) :
      Chosen types useSpecializedDeletes (.multipleColumn del)

lemma makeEqualityDelete_chosen (sortBy : ∀ width : Nat → Nat, DescendingSort width) (types : List KeyType)
    (useSpecializedDeletes : Bool) :
    ∃ impl, makeEqualityDelete sortBy types useSpecializedDeletes = .ok impl ∧
      Chosen types useSpecializedDeletes impl := by
  cases useSpecializedDeletes with
  | false => exact ⟨_, rfl, .generic (fun h => absurd h (by decide))⟩
  | true =>
    by_cases hpacked : types.all KeyType.isSpecialized = true ∧ types.length ≠ 1 ∧ totalBitWidth types ≤ 128
    · obtain ⟨hall, hlen, hwidth⟩ := hpacked
      obtain ⟨del, hdel, hd, hvalues, hnulls, -⟩ := makeEqualityDelete_packed sortBy hall hlen hwidth
      exact ⟨_, hdel, .multipleColumn rfl hall hlen hwidth hd hvalues hnulls⟩
    · unfold makeEqualityDelete
      simp only [Bool.true_eq_false, if_false]
      split
      · rename_i type
        by_cases ht : type.isSpecialized = true
        · exact ⟨_, if_pos ht, .oneColumn rfl rfl ht⟩
        · refine ⟨_, if_neg ht, .generic ?_⟩
          intro _ hall
          exact absurd (by simpa using hall) ht
      · rename_i hne
        have hlen : types.length ≠ 1 := fun h => by
          obtain ⟨type, rfl⟩ := List.length_eq_one_iff.mp h
          exact hne type rfl
        by_cases hall : types.all KeyType.isSpecialized = true
        · have hwidth : 128 < totalBitWidth types := by
            by_contra hle
            exact hpacked ⟨hall, hlen, not_lt.mp hle⟩
          rw [if_pos hall, mapM_typeToBitWidth hall, ok_bind]
          exact ⟨_, if_pos hwidth, .generic (fun _ _ => ⟨hlen, hwidth⟩)⟩
        · rw [if_neg hall]
          exact ⟨_, rfl, .generic (fun _ h => absurd h hall)⟩

/-! ### The three implementations -/

section
variable {types : List KeyType} {calls : List AddCall} {arrays : List KeyArray} {row : Nat} {dataLayer : Int}

lemma conforms_of_mem (hcalls : ∀ call ∈ calls, ConformsTo types call.arrays)
    {added : List KeyArray × Nat × Int} (h : added ∈ addedRows calls) : ConformsTo types added.1 := by
  obtain ⟨call, hcall, harrays⟩ := arrays_of_mem_addedRows h
  exact harrays ▸ hcalls call hcall

/-- The general implementation answers right. -/
lemma generic_isDeleted (hcalls : ∀ call ∈ calls, ConformsTo types call.arrays) (hquery : ConformsTo types arrays)
    (hsize : keySize arrays row < 2 ^ 16) (hsizes : ∀ added ∈ addedRows calls, keySize added.1 added.2.1 < 2 ^ 16)
    {del : EqualityDelete} (h : (EqualityDelete.generic {}).addAll calls = .ok del) :
    del.isDeleted arrays row dataLayer = true ↔ EqualityDeleted calls arrays row dataLayer := by
  obtain ⟨final, rfl, hcounts, hreach⟩ := generic_addAll h
  have hempty : ¬(({} : GenericEqualityDelete).values.Reaches (genericDeleteKey arrays row) dataLayer) := by
    rintro ⟨v, hv, -⟩
    cases hv
  rw [EqualityDelete.isDeleted, GenericEqualityDelete.isDeleted, layerDeletes_iff, hreach, or_iff_right hempty,
    EqualityDeleted]
  refine exists_congr (fun added => and_congr_right (fun hadded => and_congr_left (fun _ => ?_)))
  obtain ⟨call, hcall, harrays⟩ := arrays_of_mem_addedRows hadded
  exact genericDeleteKey_iff ((conforms_of_mem hcalls hadded).trans hquery.symm) (harrays ▸ hcounts call hcall)
    (hsizes added hadded) hsize

/-- The one-column implementation answers right for values, and for nulls without their layers. -/
lemma oneColumn_isDeleted {type : KeyType} (hcalls : ∀ call ∈ calls, ConformsTo [type] call.arrays)
    (hquery : ConformsTo [type] arrays) {del : EqualityDelete}
    (h : (EqualityDelete.oneColumn { type }).addAll calls = .ok del) :
    (del.isDeleted arrays row dataLayer = true ↔ EqualityDeleted calls arrays row dataLayer) ↔
      NullLayersSuffice calls arrays row dataLayer := by
  obtain ⟨final, rfl, hnull, hreach⟩ := oneColumn_addAll h
  obtain ⟨q, rfl⟩ : ∃ q, arrays = [q] := by
    apply List.length_eq_one_iff.mp
    simpa using congrArg List.length hquery
  have hsame : ∀ added ∈ addedRows calls, (SameRow added.1 added.2.1 [q] row ↔
      (added.1.getD 0 default).isNull added.2.1 = q.isNull row ∧
        ((added.1.getD 0 default).isNull added.2.1 = false →
          (added.1.getD 0 default).getView added.2.1 = q.getView row)) := by
    intro added hadded
    obtain ⟨a, ha⟩ : ∃ a, added.1 = [a] := by
      apply List.length_eq_one_iff.mp
      simpa using congrArg List.length (conforms_of_mem hcalls hadded)
    simp [ha, SameRow, rowSlots, SameSlot, KeyArray.isNull, KeyArray.getView]
  have hdeleted : EqualityDeleted calls [q] row dataLayer ↔
      ∃ added ∈ addedRows calls, ((added.1.getD 0 default).isNull added.2.1 = q.isNull row ∧
        ((added.1.getD 0 default).isNull added.2.1 = false →
          (added.1.getD 0 default).getView added.2.1 = q.getView row)) ∧ dataLayer ≤ added.2.2 :=
    exists_congr (fun added => and_congr_right (fun hadded => and_congr_left (fun _ => hsame added hadded)))
  rw [EqualityDelete.isDeleted, SpecializedDeleteOneColumn.isDeleted, hdeleted]
  simp only [NullLayersSuffice, FirstNull, List.getD_cons_zero]
  cases hq : q.isNull row with
  | true =>
    simp only [if_true, hnull, Bool.false_eq_true, false_or, true_implies]
    have hlayers : (∃ added ∈ addedRows calls, ((added.1.getD 0 default).isNull added.2.1 = true ∧
          ((added.1.getD 0 default).isNull added.2.1 = false →
            (added.1.getD 0 default).getView added.2.1 = q.getView row)) ∧ dataLayer ≤ added.2.2) ↔
        ∃ added ∈ addedRows calls, (added.1.getD 0 default).isNull added.2.1 = true ∧ dataLayer ≤ added.2.2 := by
      refine exists_congr (fun added => and_congr_right (fun _ => and_congr_left (fun _ => ?_)))
      exact ⟨fun h => h.1, fun h => ⟨h, fun hf => absurd (h.symm.trans hf) (by decide)⟩⟩
    rw [hlayers]
    constructor
    · exact fun h => h.mp
    · refine fun h => ⟨h, ?_⟩
      rintro ⟨added, hadded, hn, -⟩
      exact ⟨added, hadded, hn⟩
  | false =>
    have hempty : ¬(({ type } : SpecializedDeleteOneColumn).values.Reaches (q.getView row) dataLayer) := by
      rintro ⟨v, hv, -⟩
      cases hv
    simp only [Bool.false_eq_true, if_false, layerDeletes_iff, hreach, false_implies, iff_true]
    rw [or_iff_right hempty]
    refine exists_congr (fun added => and_congr_right (fun _ => ?_))
    constructor
    · rintro ⟨hn, hview, hlayer⟩
      exact ⟨⟨hn, fun _ => hview⟩, hlayer⟩
    · rintro ⟨⟨hn, hview⟩, hlayer⟩
      exact ⟨hn, hview hn, hlayer⟩

lemma sameRow_of_rowSlots {arrays' : List KeyArray} {row' : Nat} (h : rowSlots arrays row = rowSlots arrays' row') :
    SameRow arrays row arrays' row' := by
  rw [SameRow, h, List.forall₂_same]
  exact fun slot _ => ⟨rfl, fun _ => rfl⟩

/-- The packed implementation answers right for rows with the same bytes in their null slots. -/
lemma multipleColumn_isDeleted_iff {packed : SpecializedDeleteMultipleColumn} (hd : PackedFor types packed)
    (hvalues : packed.values = {}) (hnulls : packed.valuesWithNulls = {})
    (hcalls : ∀ call ∈ calls, ConformsTo types call.arrays) (hquery : ConformsTo types arrays) {del : EqualityDelete}
    (h : (EqualityDelete.multipleColumn packed).addAll calls = .ok del) :
    (del.isDeleted arrays row dataLayer = true ↔ EqualityDeleted calls arrays row dataLayer) ↔
      NullBytesAgree calls arrays row dataLayer := by
  obtain ⟨final, rfl, hcode, hreach⟩ := multipleColumn_addAll hd h
  have hempty : ∀ mask key, ¬PackedReaches packed mask key dataLayer := by
    intro mask key hr
    unfold PackedReaches at hr
    rw [hvalues, hnulls] at hr
    split_ifs at hr with h0
    · obtain ⟨v, hv, -⟩ := hr
      cases hv
    · obtain ⟨values, hv, -⟩ := hr
      cases hv
  have hans : (EqualityDelete.multipleColumn final).isDeleted arrays row dataLayer = true ↔
      ∃ added ∈ addedRows calls, rowSlots added.1 added.2.1 = rowSlots arrays row ∧ dataLayer ≤ added.2.2 := by
    rw [EqualityDelete.isDeleted, multipleColumn_isDeleted (hcode.packedFor hd) hquery, hreach,
      or_iff_right (hempty _ _), hcode.nullsMask, hcode.constructRowIgnoreNulls]
    refine exists_congr (fun added => and_congr_right (fun hadded => ?_))
    rw [← hd.key_iff (conforms_of_mem hcalls hadded) hquery, and_assoc]
  rw [hans, NullBytesAgree]
  constructor
  · exact fun h => h.mpr
  · refine fun h => ⟨?_, h⟩
    rintro ⟨added, hadded, hslots, hlayer⟩
    exact ⟨added, hadded, sameRow_of_rowSlots hslots, hlayer⟩

end

/-- The answer of the chosen implementation, and its agreement with the general one, are right
exactly under the condition on deleted nulls. -/
theorem isDeleted_exact_iff (sortBy : ∀ width : Nat → Nat, DescendingSort width) (types : List KeyType)
    (useSpecializedDeletes : Bool) (calls : List AddCall) (hcalls : ∀ call ∈ calls, ConformsTo types call.arrays)
    (hsizes : ∀ added ∈ addedRows calls, keySize added.1 added.2.1 < 2 ^ 16) (arrays : List KeyArray) (row : Nat)
    (dataLayer : Int) (hquery : ConformsTo types arrays) (hsize : keySize arrays row < 2 ^ 16) :
    ∃ impl, makeEqualityDelete sortBy types useSpecializedDeletes = .ok impl ∧
      ∀ del, impl.addAll calls = .ok del →
        ((del.isDeleted arrays row dataLayer = true ↔ EqualityDeleted calls arrays row dataLayer) ↔
          RemembersRight types useSpecializedDeletes calls arrays row dataLayer) ∧
        ∀ general, (EqualityDelete.generic {}).addAll calls = .ok general →
          (del.isDeleted arrays row dataLayer = general.isDeleted arrays row dataLayer ↔
            RemembersRight types useSpecializedDeletes calls arrays row dataLayer) := by
  obtain ⟨impl, hmake, hchosen⟩ := makeEqualityDelete_chosen sortBy types useSpecializedDeletes
  refine ⟨impl, hmake, ?_⟩
  intro del hdel
  have hmain : (del.isDeleted arrays row dataLayer = true ↔ EqualityDeleted calls arrays row dataLayer) ↔
      RemembersRight types useSpecializedDeletes calls arrays row dataLayer := by
    cases hchosen with
    | generic hg =>
      refine iff_of_true (generic_isDeleted hcalls hquery hsize hsizes hdel) ?_
      intro hs hall
      obtain ⟨hlen, hwidth⟩ := hg hs hall
      exact ⟨fun h => absurd h hlen, fun _ h => absurd h (not_le.mpr hwidth)⟩
    | oneColumn hs ht hall =>
      subst ht
      rw [oneColumn_isDeleted hcalls hquery hdel]
      simp [RemembersRight, hs, hall]
    | multipleColumn hs hall hlen hwidth hd hvalues hnulls =>
      rw [multipleColumn_isDeleted_iff hd hvalues hnulls hcalls hquery hdel]
      simp [RemembersRight, hs, hall, hlen, hwidth]
  refine ⟨hmain, ?_⟩
  intro general hgeneral
  rw [← hmain, Bool.eq_iff_iff, generic_isDeleted hcalls hquery hsize hsizes hgeneral]

/-! ### Concrete columns -/

/-- An insertion sort as `std::sort`. -/
def insertionSortBy (width : Nat → Nat) : DescendingSort width where
  sort l := l.insertionSort (fun a b => width b ≤ width a)
  perm l := List.perm_insertionSort _ l
  sorted l := by
    have : Std.Total (fun a b => width b ≤ width a) := ⟨fun a b => Nat.le_total _ _⟩
    have : IsTrans Nat (fun a b => width b ≤ width a) := ⟨fun a b c h h' => h'.trans h⟩
    exact List.pairwise_insertionSort _ l

/-- An `int16` column; a slot says whether it is null and what its bytes are. -/
def int16Column (slots : List (Bool × Nat)) : KeyArray where
  type := .int16
  slots := slots.map (fun (isNull, value) => ⟨isNull, leBytes 2 value⟩)
  fits := by
    intro slot hslot width hwidth
    obtain ⟨p, -, rfl⟩ := List.mem_map.mp hslot
    simpa [KeyType.byteWidth] using hwidth

/-- The rows `(7, NULL)` and `(8, 9)`, with 5 in the bytes of the null. -/
def exampleAddCall : AddCall :=
  { arrays := [int16Column [(false, 7), (false, 8)], int16Column [(true, 5), (false, 9)]]
    rowsCount := 2
    deleteLayer := 3 }

def exampleKey : List KeyArray := [int16Column [(false, 7)], int16Column [(true, 5)]]

theorem isDeleted_exact_iff_int16Pair :
    RemembersRight [.int16, .int16] true [exampleAddCall] exampleKey 0 2 ∧
    (∃ impl, makeEqualityDelete insertionSortBy [.int16, .int16] true = .ok impl ∧
      ∀ del, impl.addAll [exampleAddCall] = .ok del →
        ((del.isDeleted exampleKey 0 2 = true ↔ EqualityDeleted [exampleAddCall] exampleKey 0 2) ↔
          RemembersRight [.int16, .int16] true [exampleAddCall] exampleKey 0 2) ∧
        ∀ general, (EqualityDelete.generic {}).addAll [exampleAddCall] = .ok general →
          (del.isDeleted exampleKey 0 2 = general.isDeleted exampleKey 0 2 ↔
            RemembersRight [.int16, .int16] true [exampleAddCall] exampleKey 0 2)) ∧
    ((do
      let impl ← makeEqualityDelete insertionSortBy [.int16, .int16] true
      let del ← impl.addAll [exampleAddCall]
      .ok (del.isDeleted exampleKey 0 2) : Except String Bool) = .ok true) := by
  refine ⟨?_, isDeleted_exact_iff insertionSortBy [.int16, .int16] true [exampleAddCall] ?_ (by decide) exampleKey 0 2
    rfl (by decide), by decide⟩
  · intro _ _
    refine ⟨fun h => absurd h (by decide), fun _ _ _ => ?_⟩
    exact ⟨(exampleAddCall.arrays, 0, 3), List.mem_cons_self, by decide, by decide⟩
  · intro call hcall
    rw [List.mem_singleton.mp hcall]
    rfl

/-- A deleted null of layer 0, asked for in layer 1; and the row `(7, NULL)`, asked for with other
bytes in the null slot. -/
theorem isDeleted_wrong_for_nulls :
    (∃ call : AddCall, ∃ arrays : List KeyArray, ConformsTo [.int16] call.arrays ∧ ConformsTo [.int16] arrays ∧
      ((do
        let impl ← makeEqualityDelete insertionSortBy [.int16] true
        let del ← impl.addAll [call]
        .ok (del.isDeleted arrays 0 1) : Except String Bool) = .ok true) ∧
      ¬EqualityDeleted [call] arrays 0 1) ∧
    ∃ call : AddCall, ∃ arrays : List KeyArray, ConformsTo [.int16, .int16] call.arrays ∧
      ConformsTo [.int16, .int16] arrays ∧
      ((do
        let impl ← makeEqualityDelete insertionSortBy [.int16, .int16] true
        let del ← impl.addAll [call]
        .ok (del.isDeleted arrays 0 0) : Except String Bool) = .ok false) ∧
      EqualityDeleted [call] arrays 0 0 := by
  constructor
  · refine ⟨⟨[int16Column [(true, 0)]], 1, 0⟩, [int16Column [(true, 0)]], rfl, rfl, by decide, ?_⟩
    rintro ⟨added, hadded, -, hlayer⟩
    obtain rfl := List.mem_singleton.mp hadded
    exact absurd hlayer (by decide)
  · refine ⟨⟨[int16Column [(false, 7)], int16Column [(true, 5)]], 1, 0⟩,
      [int16Column [(false, 7)], int16Column [(true, 0)]], rfl, rfl, by decide, ?_⟩
    refine ⟨_, List.mem_cons_self, ?_, le_refl _⟩
    exact .cons ⟨rfl, fun _ => rfl⟩ (.cons ⟨rfl, fun h => absurd h (by decide)⟩ .nil)

end IcebergCxx.Proofs

import IcebergCxx.EqualityDeleteApplier
import IcebergCxx.Proofs.EqualityDeleteLaw

/-!
# What the bytes of null slots decide

Two runs on a packed delete whose arrays differ in the bytes of their null slots alone. A row without nulls is told from
the others by its values in both runs. A row with a null can meet an equal row in one run and not in the other.
-/

namespace IcebergCxx.Proofs

open Lib SpecializedDeleteMultipleColumn

/-- A call on a packed delete. -/
inductive PackedCall
  | add (call : AddCall)
  | isDeleted (arrays : List KeyArray) (row : Nat) (dataLayer : Int)

/-- What a call lets be seen: `Size()` after rows were added, or the result. -/
inductive Observation
  | size (n : Nat)
  | failed (message : String)
  | deleted (answer : Bool)
deriving DecidableEq

/-- A call, with what it lets be seen. One that fails adds nothing. -/
def packedStep (del : SpecializedDeleteMultipleColumn) : PackedCall → SpecializedDeleteMultipleColumn × Observation
  | .add call =>
    match del.add call.arrays call.rowsCount call.deleteLayer with
    | .ok next => (next, .size (EqualityDelete.multipleColumn next).size)
    | .error message => (del, .failed message)
  | .isDeleted arrays row dataLayer => (del, .deleted (del.isDeleted arrays row dataLayer))

def observe (del : SpecializedDeleteMultipleColumn) : List PackedCall → List Observation
  | [] => []
  | call :: calls => (packedStep del call).2 :: observe (packedStep del call).1 calls

/-- Arrays agree on validity and on all values that are not null. -/
def ArraysAgree (arrays arrays' : List KeyArray) : Prop :=
  List.Forall₂ (fun a b => a.type = b.type ∧ List.Forall₂ SameSlot a.slots b.slots) arrays arrays'

/-- Two calls that differ in the bytes of null slots alone. -/
inductive CallsAgree : PackedCall → PackedCall → Prop
  | add {arrays arrays' : List KeyArray} (h : ArraysAgree arrays arrays') (rowsCount : Nat) (deleteLayer : Int) :
    CallsAgree (.add ⟨arrays, rowsCount, deleteLayer⟩) (.add ⟨arrays', rowsCount, deleteLayer⟩)
  | isDeleted {arrays arrays' : List KeyArray} (h : ArraysAgree arrays arrays') (row : Nat) (dataLayer : Int) :
    CallsAgree (.isDeleted arrays row dataLayer) (.isDeleted arrays' row dataLayer)

def HasNull (arrays : List KeyArray) (row : Nat) : Prop := ∃ array ∈ arrays, array.isNull row = true

/-- The rows that calls have added; `Add` refuses arrays of other types. -/
def rowsAdded (types : List KeyType) : List PackedCall → List (List KeyArray × Nat × Int)
  | [] => []
  | .add call :: calls =>
    (if call.arrays.map KeyArray.type = types then addedRows [call] else []) ++ rowsAdded types calls
  | .isDeleted _ _ _ :: calls => rowsAdded types calls

/-- No row with a null that a call adds equals one added before it, and no row with a null that it asks for equals one
added in a high enough layer. -/
def NullsDecided (rows : List (List KeyArray × Nat × Int)) : PackedCall → Prop
  | .add call => ∀ row < call.rowsCount, HasNull call.arrays row →
    (∀ added ∈ rows, ¬SameRow added.1 added.2.1 call.arrays row) ∧ ∀ earlier < row, ¬SameRow call.arrays earlier call.arrays row
  | .isDeleted arrays row dataLayer => HasNull arrays row →
    ∀ added ∈ rows, SameRow added.1 added.2.1 arrays row → ¬dataLayer ≤ added.2.2

/-! ### Rows of two runs -/

lemma SameRow.refl (arrays : List KeyArray) (row : Nat) : SameRow arrays row arrays row :=
  List.forall₂_same.mpr (fun _ _ => ⟨rfl, fun _ => rfl⟩)

lemma SameRow.symm {arrays arrays' : List KeyArray} {row row' : Nat} (h : SameRow arrays row arrays' row') :
    SameRow arrays' row' arrays row := by
  refine List.Forall₂.flip (List.Forall₂.imp (fun a b hab => ?_) h)
  exact ⟨hab.1.symm, fun hb => (hab.2 (hab.1.trans hb)).symm⟩

lemma SameRow.trans {a b c : List KeyArray} {i j k : Nat} (h : SameRow a i b j) (h' : SameRow b j c k) : SameRow a i c k := by
  unfold SameRow at h h' ⊢
  generalize rowSlots a i = x at h ⊢
  generalize rowSlots b j = y at h h'
  generalize rowSlots c k = z at h' ⊢
  induction h generalizing z with
  | nil => rwa [List.forall₂_nil_left_iff] at h' ⊢
  | cons hab _ ih =>
    obtain ⟨s, t, hbc, hrest, rfl⟩ := List.forall₂_cons_left_iff.mp h'
    refine .cons ⟨hab.1.trans hbc.1, fun ha => ?_⟩ (ih _ hrest)
    exact (hab.2 ha).trans (hbc.2 (hab.1 ▸ ha))

lemma sameRow_of_agree {arrays arrays' : List KeyArray} (h : ArraysAgree arrays arrays') (row : Nat) :
    SameRow arrays row arrays' row := by
  unfold SameRow rowSlots
  rw [List.forall₂_map_left_iff, List.forall₂_map_right_iff]
  refine List.Forall₂.imp (fun a b hab => ?_) h
  obtain ⟨htype, hslots⟩ := hab
  unfold KeyArray.slot
  have hlen := hslots.length_eq
  rcases Nat.lt_or_ge row a.slots.length with hlt | hge
  · rw [List.getElem?_eq_getElem hlt, List.getElem?_eq_getElem (hlen ▸ hlt)]
    exact List.Forall₂.get hslots hlt (hlen ▸ hlt)
  · rw [List.getElem?_eq_none hge, List.getElem?_eq_none (hlen ▸ hge), htype]
    exact ⟨rfl, fun _ => rfl⟩

lemma types_of_agree {arrays arrays' : List KeyArray} (h : ArraysAgree arrays arrays') :
    arrays.map KeyArray.type = arrays'.map KeyArray.type := by
  induction h with
  | nil => rfl
  | cons hab _ ih => rw [List.map_cons, List.map_cons, hab.1, ih]

lemma hasNull_of_sameRow {arrays arrays' : List KeyArray} {row row' : Nat} (h : SameRow arrays row arrays' row')
    (hnull : HasNull arrays row) : HasNull arrays' row' := by
  obtain ⟨array, harray, hn⟩ := hnull
  have hmem : true ∈ arrays.map (fun array => array.isNull row) := List.mem_map.mpr ⟨array, harray, hn⟩
  rw [sameRow_nulls h] at hmem
  obtain ⟨array', harray', hn'⟩ := List.mem_map.mp hmem
  exact ⟨array', harray', hn'⟩

/-- Equal rows without nulls have the same slots. -/
lemma rowSlots_of_sameRow {arrays arrays' : List KeyArray} {row row' : Nat} (h : SameRow arrays row arrays' row')
    (hnull : ¬HasNull arrays row) : rowSlots arrays row = rowSlots arrays' row' := by
  have hvalid : ∀ slot ∈ rowSlots arrays row, slot.isNull = false := by
    intro slot hslot
    obtain ⟨array, harray, rfl⟩ := List.mem_map.mp hslot
    by_contra hne
    exact hnull ⟨array, harray, (Bool.not_eq_false _).mp hne⟩
  unfold SameRow at h
  generalize rowSlots arrays row = x at h hvalid
  generalize rowSlots arrays' row' = y at h
  induction h with
  | nil => rfl
  | @cons a b l l' hab _ ih =>
    have ha := hvalid a List.mem_cons_self
    rw [ih (fun slot hslot => hvalid slot (List.mem_cons_of_mem _ hslot))]
    obtain ⟨an, av⟩ := a
    obtain ⟨bn, bv⟩ := b
    obtain ⟨hn, hview⟩ := hab
    simp only at hn hview ha
    rw [hn, hview ha]

/-! ### Sizes -/

lemma length_alter {K V : Type} [LinearOrder K] (m : OrdMap K V) (k : K) (f : Option V → V) :
    (m.alter k f).entries.length = m.entries.length + if (m.find? k).isSome then 0 else 1 := by
  obtain ⟨l, hl⟩ := m
  change (OrdMap.alterList k f l).length = l.length + if (OrdMap.findList k l).isSome then 0 else 1
  induction l with
  | nil => rfl
  | cons p l ih =>
    obtain ⟨k', v⟩ := p
    obtain ⟨hp, hl'⟩ := List.pairwise_cons.mp hl
    rw [OrdMap.alterList, OrdMap.findList]
    rcases lt_trichotomy k k' with hlt | rfl | hgt
    · have hnone : OrdMap.findList k l = none := OrdMap.findList_eq_none_of_lt (fun q hq => hlt.trans (hp q hq))
      rw [if_pos hlt, if_neg hlt.ne, hnone]
      rfl
    · rw [if_neg (lt_irrefl k), if_pos rfl, if_pos rfl]
      rfl
    · rw [if_neg hgt.asymm, if_neg hgt.ne', if_neg hgt.ne', List.length_cons, ih hl', List.length_cons]
      omega

lemma length_updateMax {K : Type} [LinearOrder K] (m : OrdMap K Int) (k : K) (v : Int) :
    (m.updateMax k v).entries.length = m.entries.length + if (m.find? k).isSome then 0 else 1 := by
  unfold OrdMap.updateMax
  split <;> exact length_alter m k _

/-- Of the sum over all values, only the part of the altered one changes. -/
lemma sum_alter {K V : Type} [LinearOrder K] (m : OrdMap K V) (k : K) (f : Option V → V) (g : V → Nat) :
    ((m.alter k f).values.map g).sum + ((m.find? k).map g).getD 0 = (m.values.map g).sum + g (f (m.find? k)) := by
  obtain ⟨l, hl⟩ := m
  change (((OrdMap.alterList k f l).map Prod.snd).map g).sum + ((OrdMap.findList k l).map g).getD 0 =
    ((l.map Prod.snd).map g).sum + g (f (OrdMap.findList k l))
  induction l with
  | nil => simp [OrdMap.alterList, OrdMap.findList]
  | cons p l ih =>
    obtain ⟨k', v⟩ := p
    obtain ⟨hp, hl'⟩ := List.pairwise_cons.mp hl
    rw [OrdMap.alterList, OrdMap.findList]
    rcases lt_trichotomy k k' with hlt | rfl | hgt
    · have hnone : OrdMap.findList k l = none := OrdMap.findList_eq_none_of_lt (fun q hq => hlt.trans (hp q hq))
      rw [if_pos hlt, if_neg hlt.ne, hnone]
      simp only [List.map_cons, List.sum_cons, Option.map_none, Option.getD_none]
      omega
    · rw [if_neg (lt_irrefl k), if_pos rfl, if_pos rfl]
      simp only [List.map_cons, List.sum_cons, Option.map_some, Option.getD_some]
      omega
    · rw [if_neg hgt.asymm, if_neg hgt.ne', if_neg hgt.ne']
      simp only [List.map_cons, List.sum_cons]
      have := ih hl'
      omega

/-- Some layer is remembered for a null mask and a packed number. -/
def Packed (del : SpecializedDeleteMultipleColumn) (mask key : Nat) : Prop := ∃ x, PackedReaches del mask key x

lemma isSome_iff_reaches {K : Type} [LinearOrder K] (m : OrdMap K Int) (k : K) :
    (m.find? k).isSome = true ↔ ∃ x, m.Reaches k x := by
  rw [Option.isSome_iff_exists]
  exact ⟨fun ⟨v, hv⟩ => ⟨v, v, hv, le_rfl⟩, fun ⟨_, v, hv, _⟩ => ⟨v, hv⟩⟩

open Classical in
lemma size_addRowWithNulls (arrays : List KeyArray) (layer : Int) (del : SpecializedDeleteMultipleColumn) (row : Nat) :
    (EqualityDelete.multipleColumn (addRowWithNulls arrays layer del row)).size =
      (EqualityDelete.multipleColumn del).size +
        if Packed del (del.nullsMask arrays row) (del.constructRowIgnoreNulls arrays row) then 0 else 1 := by
  unfold EqualityDelete.size addRowWithNulls Packed PackedReaches
  by_cases hmask : del.nullsMask arrays row = 0
  · simp only [hmask, if_true, length_updateMax, isSome_iff_reaches]
    omega
  · simp only [hmask, if_false]
    have hsum := sum_alter del.valuesWithNulls (del.nullsMask arrays row)
      (fun values => (values.getD {}).updateMax (del.constructRowIgnoreNulls arrays row) layer)
      (fun values => values.entries.length)
    simp only [length_updateMax, isSome_iff_reaches] at hsum
    cases hfind : del.valuesWithNulls.find? (del.nullsMask arrays row) with
    | none =>
      have hempty : ¬∃ x, ({} : OrdMap Nat Int).Reaches (del.constructRowIgnoreNulls arrays row) x := by
        rintro ⟨_, v, hv, -⟩
        cases hv
      have habsent : ¬∃ x values, (none : Option (OrdMap Nat Int)) = some values ∧
          values.Reaches (del.constructRowIgnoreNulls arrays row) x := by
        rintro ⟨_, _, hv, -⟩
        cases hv
      have hzero : ({} : OrdMap Nat Int).entries.length = 0 := rfl
      rw [hfind] at hsum
      simp only [Option.map_none, Option.getD_none, hempty, if_false, hzero] at hsum
      rw [if_neg habsent]
      omega
    | some values =>
      have hpresent : (∃ x values', some values = some values' ∧
          OrdMap.Reaches values' (del.constructRowIgnoreNulls arrays row) x) ↔
          ∃ x, values.Reaches (del.constructRowIgnoreNulls arrays row) x :=
        exists_congr (fun x => ⟨fun ⟨_, hv, h⟩ => Option.some.inj hv ▸ h, fun h => ⟨values, rfl, h⟩⟩)
      rw [hfind] at hsum
      simp only [Option.map_some, Option.getD_some] at hsum
      simp only [hpresent]
      omega

/-! ### Two runs -/

section
variable {types : List KeyType} {del del' : SpecializedDeleteMultipleColumn}

/-- Rows added to two deletes, each pair equal and with its layer. -/
abbrev RowPairs := List ((List KeyArray × Nat) × (List KeyArray × Nat) × Int)

/-- Two deletes have remembered equal rows, and know as many keys. -/
structure Paired (types : List KeyType) (pairs : RowPairs) (del del' : SpecializedDeleteMultipleColumn) : Prop where
  packed : PackedFor types del
  coding : SameCoding del del'
  rows : ∀ pair ∈ pairs, ConformsTo types pair.1.1 ∧ ConformsTo types pair.2.1.1 ∧
    SameRow pair.1.1 pair.1.2 pair.2.1.1 pair.2.1.2
  reaches : ∀ mask key x, PackedReaches del mask key x ↔ ∃ pair ∈ pairs, del.nullsMask pair.1.1 pair.1.2 = mask ∧
    del.constructRowIgnoreNulls pair.1.1 pair.1.2 = key ∧ x ≤ pair.2.2
  reaches' : ∀ mask key x, PackedReaches del' mask key x ↔ ∃ pair ∈ pairs, del.nullsMask pair.2.1.1 pair.2.1.2 = mask ∧
    del.constructRowIgnoreNulls pair.2.1.1 pair.2.1.2 = key ∧ x ≤ pair.2.2
  size : (EqualityDelete.multipleColumn del).size = (EqualityDelete.multipleColumn del').size

/-- A row without nulls, or one that equals no pair that counts, is found in both deletes or in neither. -/
lemma Paired.found_iff {pairs : RowPairs} (h : Paired types pairs del del') {arrays arrays' : List KeyArray} {row : Nat}
    (hc : ConformsTo types arrays) (hagree : ArraysAgree arrays arrays') {x : Int}
    (hdecided : HasNull arrays row → ∀ pair ∈ pairs, SameRow pair.1.1 pair.1.2 arrays row → ¬x ≤ pair.2.2) :
    PackedReaches del (del.nullsMask arrays row) (del.constructRowIgnoreNulls arrays row) x ↔
      PackedReaches del' (del.nullsMask arrays' row) (del.constructRowIgnoreNulls arrays' row) x := by
  have hc' : ConformsTo types arrays' := (types_of_agree hagree).symm.trans hc
  have hrow := sameRow_of_agree hagree row
  rw [h.reaches, h.reaches']
  refine exists_congr (fun pair => and_congr_right (fun hpair => ?_))
  obtain ⟨hp, hp', hsame⟩ := h.rows pair hpair
  rw [← and_assoc, ← and_assoc, h.packed.key_iff hp hc, h.packed.key_iff hp' hc']
  constructor
  · rintro ⟨hslots, hx⟩
    have hequal := sameRow_of_rowSlots hslots
    by_cases hnull : HasNull arrays row
    · exact absurd hx (hdecided hnull pair hpair hequal)
    · have hnull' : ¬HasNull pair.2.1.1 pair.2.1.2 :=
        fun hn => hnull (hasNull_of_sameRow (hsame.symm.trans hequal) hn)
      exact ⟨rowSlots_of_sameRow (hsame.symm.trans (hequal.trans hrow)) hnull', hx⟩
  · rintro ⟨hslots, hx⟩
    have hequal := hsame.trans ((sameRow_of_rowSlots hslots).trans hrow.symm)
    by_cases hnull : HasNull arrays row
    · exact absurd hx (hdecided hnull pair hpair hequal)
    · have hnull' : ¬HasNull pair.1.1 pair.1.2 := fun hn => hnull (hasNull_of_sameRow hequal hn)
      exact ⟨rowSlots_of_sameRow hequal hnull', hx⟩

lemma Paired.addRow {pairs : RowPairs} (h : Paired types pairs del del') {arrays arrays' : List KeyArray} {row : Nat}
    (hc : ConformsTo types arrays) (hagree : ArraysAgree arrays arrays') (layer : Int)
    (hdecided : HasNull arrays row → ∀ pair ∈ pairs, ¬SameRow pair.1.1 pair.1.2 arrays row) :
    Paired types (pairs ++ [((arrays, row), (arrays', row), layer)]) (addRowWithNulls arrays layer del row)
      (addRowWithNulls arrays' layer del' row) := by
  have hc' : ConformsTo types arrays' := (types_of_agree hagree).symm.trans hc
  have hstep := @sameCoding_addRowWithNulls del arrays layer row
  have hstep' := @sameCoding_addRowWithNulls del' arrays' layer row
  have hback : SameCoding (addRowWithNulls arrays layer del row) (addRowWithNulls arrays' layer del' row) :=
    ⟨hstep'.types.trans (h.coding.types.trans hstep.types.symm), hstep'.order.trans (h.coding.order.trans hstep.order.symm),
      hstep'.bitWidth.trans (h.coding.bitWidth.trans hstep.bitWidth.symm),
      hstep'.bits.trans (h.coding.bits.trans hstep.bits.symm)⟩
  refine ⟨hstep.packedFor h.packed, hback, ?_, ?_, ?_, ?_⟩
  · intro pair hpair
    rcases List.mem_append.mp hpair with hpair | hpair
    · exact h.rows pair hpair
    · rw [List.mem_singleton.mp hpair]
      exact ⟨hc, hc', sameRow_of_agree hagree row⟩
  · intro mask key x
    rw [packedReaches_addRowWithNulls, h.reaches]
    simp only [hstep.nullsMask, hstep.constructRowIgnoreNulls, List.mem_append, List.mem_singleton, or_and_right,
      exists_or, exists_eq_left]
  · intro mask key x
    rw [packedReaches_addRowWithNulls, h.reaches', h.coding.nullsMask, h.coding.constructRowIgnoreNulls]
    simp only [hstep.nullsMask, hstep.constructRowIgnoreNulls, List.mem_append, List.mem_singleton, or_and_right,
      exists_or, exists_eq_left]
  · have hpresent : Packed del (del.nullsMask arrays row) (del.constructRowIgnoreNulls arrays row) ↔
        Packed del' (del.nullsMask arrays' row) (del.constructRowIgnoreNulls arrays' row) :=
      exists_congr (fun x => h.found_iff hc hagree (fun hnull pair hpair hsame => absurd hsame (hdecided hnull pair hpair)))
    rw [size_addRowWithNulls, size_addRowWithNulls, h.size, h.coding.nullsMask, h.coding.constructRowIgnoreNulls]
    by_cases hp : Packed del (del.nullsMask arrays row) (del.constructRowIgnoreNulls arrays row)
    · rw [if_pos hp, if_pos (hpresent.mp hp)]
    · rw [if_neg hp, if_neg (fun hp' => hp (hpresent.mpr hp'))]

/-- The rows of one call of `Add`. -/
def pairsOf (arrays arrays' : List KeyArray) (layer : Int) (rows : List Nat) : RowPairs :=
  rows.map (fun row => ((arrays, row), (arrays', row), layer))

lemma Paired.addRows {pairs : RowPairs} (h : Paired types pairs del del') {arrays arrays' : List KeyArray}
    (hc : ConformsTo types arrays) (hagree : ArraysAgree arrays arrays') (layer : Int) (rowsCount : Nat)
    (hdecided : ∀ row < rowsCount, HasNull arrays row → (∀ pair ∈ pairs, ¬SameRow pair.1.1 pair.1.2 arrays row) ∧
      ∀ earlier < row, ¬SameRow arrays earlier arrays row) :
    Paired types (pairs ++ pairsOf arrays arrays' layer (List.range rowsCount))
      ((List.range rowsCount).foldl (addRowWithNulls arrays layer) del)
      ((List.range rowsCount).foldl (addRowWithNulls arrays' layer) del') := by
  induction rowsCount with
  | zero => simpa [pairsOf] using h
  | succ n ih =>
    rw [List.range_succ, List.foldl_append, List.foldl_append, pairsOf, List.map_append, ← List.append_assoc]
    refine (ih (fun row hrow => hdecided row (Nat.lt_succ_of_lt hrow))).addRow hc hagree layer (fun hnull pair hpair => ?_)
    obtain ⟨hbefore, hearlier⟩ := hdecided n (Nat.lt_succ_self n) hnull
    rcases List.mem_append.mp hpair with hpair | hpair
    · exact hbefore pair hpair
    · obtain ⟨row, hrow, rfl⟩ := List.mem_map.mp hpair
      exact hearlier row (List.mem_range.mp hrow)

/-- `Add` succeeds exactly on arrays of the right types. -/
lemma packed_add_eq (hd : PackedFor types del) (arrays : List KeyArray) (rowsCount : Nat) (layer : Int) :
    (arrays.map KeyArray.type = types ∧
      del.add arrays rowsCount layer = .ok ((List.range rowsCount).foldl (addRowWithNulls arrays layer) del)) ∨
    (arrays.map KeyArray.type ≠ types ∧ del.add arrays rowsCount layer = .error
      (if arrays.length = types.length then "SpecializedDeleteMultipleColumn (Add): unexpected type"
        else "SpecializedDeleteMultipleColumn (Add): unexpected number of columns")) := by
  by_cases htypes : arrays.map KeyArray.type = types
  · refine .inl ⟨htypes, ?_⟩
    have hlen : arrays.length = del.types.length := by rw [hd.same, ← htypes, List.length_map]
    have hfew : arrays.length < 9 := by
      have := hd.count
      rw [hlen, hd.same]
      omega
    have hok : ∃ next, del.add arrays rowsCount layer = .ok next := by
      unfold SpecializedDeleteMultipleColumn.add
      rw [hd.same, htypes, hlen, hd.same]
      simp only [beq_self_eq_true, ensure_true, ok_bind]
      split_ifs
      · exact ⟨_, rfl⟩
      · rw [← hd.same, ← hlen, decide_eq_true hfew, ensure_true, ok_bind]
        exact ⟨_, rfl⟩
    obtain ⟨next, hnext⟩ := hok
    rw [hnext, multipleColumn_add hd hnext]
  · refine .inr ⟨htypes, ?_⟩
    unfold SpecializedDeleteMultipleColumn.add
    rw [hd.same]
    by_cases hlen : arrays.length = types.length
    · rw [hlen, beq_self_eq_true, ensure_true, ok_bind, beq_false_of_ne htypes, if_pos rfl]
      rfl
    · rw [beq_false_of_ne hlen, if_neg hlen]
      rfl

/-- One call lets the same be seen in both runs, and the deletes stay paired. -/
lemma Paired.step {pairs : RowPairs} (h : Paired types pairs del del') {call call' : PackedCall}
    (hagree : CallsAgree call call')
    (hasked : ∀ arrays row dataLayer, call = .isDeleted arrays row dataLayer → ConformsTo types arrays)
    (hdecided : NullsDecided (pairs.map (fun pair => (pair.1.1, pair.1.2, pair.2.2))) call) :
    (packedStep del call).2 = (packedStep del' call').2 ∧
      ∃ pairs' : RowPairs, Paired types pairs' (packedStep del call).1 (packedStep del' call').1 ∧
        pairs'.map (fun pair => (pair.1.1, pair.1.2, pair.2.2)) =
          pairs.map (fun pair => (pair.1.1, pair.1.2, pair.2.2)) ++ rowsAdded types [call] := by
  cases hagree with
  | @isDeleted arrays arrays' hagree row dataLayer =>
    have hc := hasked arrays row dataLayer rfl
    have hc' : ConformsTo types arrays' := (types_of_agree hagree).symm.trans hc
    refine ⟨congrArg Observation.deleted ?_, pairs, h, (List.append_nil _).symm⟩
    rw [Bool.eq_iff_iff, multipleColumn_isDeleted h.packed hc,
      multipleColumn_isDeleted (h.coding.packedFor h.packed) hc', h.coding.nullsMask, h.coding.constructRowIgnoreNulls]
    refine h.found_iff hc hagree (fun hnull pair hpair hsame => ?_)
    exact hdecided hnull (pair.1.1, pair.1.2, pair.2.2) (List.mem_map_of_mem hpair) hsame
  | @add arrays arrays' hagree rowsCount layer =>
    have htypes := types_of_agree hagree
    have hlen : arrays.length = arrays'.length := hagree.length_eq
    unfold packedStep
    rcases packed_add_eq h.packed arrays rowsCount layer with ⟨hc, hadd⟩ | ⟨hc, hadd⟩
    · rcases packed_add_eq (h.coding.packedFor h.packed) arrays' rowsCount layer with ⟨-, hadd'⟩ | ⟨hne, -⟩
      · have hnext := h.addRows hc hagree layer rowsCount (fun row hrow hnull => by
          obtain ⟨hbefore, hearlier⟩ := hdecided row hrow hnull
          exact ⟨fun pair hpair => hbefore (pair.1.1, pair.1.2, pair.2.2) (List.mem_map_of_mem hpair), hearlier⟩)
        simp only [hadd, hadd']
        refine ⟨congrArg Observation.size hnext.size, _, hnext, ?_⟩
        rw [List.map_append, rowsAdded, if_pos hc, rowsAdded, List.append_nil, pairsOf, List.map_map, addedRows,
          List.flatMap_singleton]
        rfl
      · exact absurd (htypes.symm.trans hc) hne
    · rcases packed_add_eq (h.coding.packedFor h.packed) arrays' rowsCount layer with ⟨hc', -⟩ | ⟨-, hadd'⟩
      · exact absurd (htypes.trans hc') hc
      · simp only [hadd, hadd', hlen]
        refine ⟨trivial, pairs, h, ?_⟩
        rw [rowsAdded, if_neg hc]
        exact (List.append_nil _).symm

lemma Paired.observe_eq {pairs : RowPairs} (h : Paired types pairs del del') {calls calls' : List PackedCall}
    (hagree : List.Forall₂ CallsAgree calls calls')
    (hasked : ∀ arrays row dataLayer, .isDeleted arrays row dataLayer ∈ calls → ConformsTo types arrays)
    (hdecided : ∀ before call after, calls = before ++ call :: after →
      NullsDecided (pairs.map (fun pair => (pair.1.1, pair.1.2, pair.2.2)) ++ rowsAdded types before) call) :
    observe del calls = observe del' calls' := by
  induction hagree generalizing pairs del del' with
  | nil => rfl
  | @cons call call' calls calls' hcall _ ih =>
    have hfirst := hdecided [] call calls rfl
    rw [rowsAdded, List.append_nil] at hfirst
    obtain ⟨hseen, pairs', hnext, hpairs⟩ := h.step hcall
      (fun arrays row dataLayer heq => hasked arrays row dataLayer (heq ▸ List.mem_cons_self)) hfirst
    have hrest := ih hnext (fun arrays row dataLayer hmem => hasked arrays row dataLayer (List.mem_cons_of_mem _ hmem))
      (fun before call₁ after hcalls => by
        have hcons := hdecided (call :: before) call₁ after (by rw [hcalls]; rfl)
        have hrows : rowsAdded types (call :: before) = rowsAdded types [call] ++ rowsAdded types before := by
          cases call with
          | add c => rw [rowsAdded, rowsAdded, rowsAdded, List.append_nil]
          | isDeleted arrays row dataLayer => rfl
        rwa [hpairs, List.append_assoc, ← hrows])
    rw [observe, observe, hseen, hrest]

end

/-- In two runs on the packed delete of some columns that differ in the bytes of null slots alone, all answers and sizes
are the same, when the nulls of every call are decided by the rows added before it. -/
theorem observe_eq_of_nullsDecided {sortBy : ∀ width : Nat → Nat, DescendingSort width} {types : List KeyType}
    {del : SpecializedDeleteMultipleColumn} (hmake : makeEqualityDelete sortBy types true = .ok (.multipleColumn del))
    {calls calls' : List PackedCall} (hagree : List.Forall₂ CallsAgree calls calls')
    (hasked : ∀ arrays row dataLayer, .isDeleted arrays row dataLayer ∈ calls → ConformsTo types arrays)
    (hdecided : ∀ before call after, calls = before ++ call :: after → NullsDecided (rowsAdded types before) call) :
    observe del calls = observe del calls' := by
  obtain ⟨impl, himpl, hchosen⟩ := makeEqualityDelete_chosen sortBy types true
  rw [hmake] at himpl
  obtain rfl := Except.ok.inj himpl
  cases hchosen with
  | multipleColumn _ _ _ _ hd hvalues hnulls =>
    have hempty : ∀ mask key x, ¬PackedReaches del mask key x := by
      intro mask key x hr
      unfold PackedReaches at hr
      rw [hvalues, hnulls] at hr
      split_ifs at hr
      · obtain ⟨v, hv, -⟩ := hr
        cases hv
      · obtain ⟨values, hv, -⟩ := hr
        cases hv
    have hpaired : Paired types [] del del :=
      ⟨hd, .refl del, fun _ h => absurd h List.not_mem_nil, fun mask key x => by simp [hempty mask key x],
        fun mask key x => by simp [hempty mask key x], rfl⟩
    exact hpaired.observe_eq hagree hasked hdecided

/-- The row `(7, NULL)`, with a number in the bytes of the null. -/
def sevenAndNull (garbage : Nat) : List KeyArray := [int16Column [(false, 7)], int16Column [(true, garbage)]]

lemma sevenAndNull_agree (a b : Nat) : ArraysAgree (sevenAndNull a) (sevenAndNull b) :=
  .cons ⟨rfl, .cons ⟨rfl, fun _ => rfl⟩ .nil⟩ (.cons ⟨rfl, .cons ⟨rfl, fun h => absurd h (by simp)⟩ .nil⟩ .nil)

/-- The packed delete of two `int16` columns. -/
def int16Pair : SpecializedDeleteMultipleColumn where
  types := [.int16, .int16]
  order := [0, 1]
  bitWidth := [16, 16]
  bits := 32

/-- The row is added, and asked for in a later layer. -/
theorem sevenAndNull_observed :
    observe int16Pair [.add ⟨sevenAndNull 5, 1, 3⟩, .isDeleted (sevenAndNull 6) 0 4] =
      observe int16Pair [.add ⟨sevenAndNull 8, 1, 3⟩, .isDeleted (sevenAndNull 9) 0 4] := by
  have hmake : makeEqualityDelete insertionSortBy [.int16, .int16] true = .ok (.multipleColumn int16Pair) := by
    decide +kernel
  refine observe_eq_of_nullsDecided hmake
    (.cons (.add (sevenAndNull_agree 5 8) 1 3) (.cons (.isDeleted (sevenAndNull_agree 6 9) 0 4) .nil)) ?_ ?_
  · intro arrays row dataLayer hmem
    obtain ⟨rfl, -, -⟩ : arrays = sevenAndNull 6 ∧ row = 0 ∧ dataLayer = 4 := by simpa using hmem
    rfl
  · intro before call after hcalls
    rcases before with _ | ⟨first, _ | ⟨second, before⟩⟩
    · obtain ⟨rfl, -⟩ := List.cons.inj hcalls
      intro row hrow _
      obtain rfl : row = 0 := Nat.lt_one_iff.mp hrow
      exact ⟨fun _ h => absurd h List.not_mem_nil, fun _ h => absurd h (Nat.not_lt_zero _)⟩
    · obtain ⟨rfl, htail⟩ := List.cons.inj hcalls
      obtain ⟨rfl, -⟩ := List.cons.inj htail
      intro _ added hadded _
      have hlayer : added.2.2 = 3 := by
        have hrows : added ∈ [(sevenAndNull 5, 0, (3 : Int))] := hadded
        rw [List.mem_singleton.mp hrows]
      rw [hlayer]
      decide
    · exact absurd (congrArg List.length hcalls) (by simp)

/-- The row is added and asked for, with the same bytes behind the null and with others. -/
theorem nullBytes_observed :
    makeEqualityDelete insertionSortBy [.int16, .int16] true = .ok (.multipleColumn int16Pair) ∧
      List.Forall₂ CallsAgree [.add ⟨sevenAndNull 5, 1, 3⟩, .isDeleted (sevenAndNull 5) 0 1]
        [.add ⟨sevenAndNull 5, 1, 3⟩, .isDeleted (sevenAndNull 6) 0 1] ∧
      observe int16Pair [.add ⟨sevenAndNull 5, 1, 3⟩, .isDeleted (sevenAndNull 5) 0 1] ≠
        observe int16Pair [.add ⟨sevenAndNull 5, 1, 3⟩, .isDeleted (sevenAndNull 6) 0 1] :=
  ⟨by decide +kernel, .cons (.add (sevenAndNull_agree 5 5) 1 3) (.cons (.isDeleted (sevenAndNull_agree 5 6) 0 1) .nil),
    by decide +kernel⟩

end IcebergCxx.Proofs

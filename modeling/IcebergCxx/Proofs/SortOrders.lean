import IcebergCxx.SortOrders
import IcebergCxx.Proofs.MetadataChecker
import IcebergCxx.Lib.Run

/-!
# Sort orders keep their identity

What `SetSortOrder` can do is said once: it chooses a known order with the same fields, or appends the given one under
an id that is not taken. An `int32_t` has no free id when every positive one is taken.
-/

namespace IcebergCxx.Proofs

open Lib SortOrderState

/-! ### The search for an id -/

lemma toInt_add_one {x : Int32} (h : x.toInt < 2 ^ 31 - 1) : (x + 1).toInt = x.toInt + 1 := by
  have hlower := Int32.le_toInt x
  have hone : (1 : Int32).toInt = 1 := rfl
  rw [Int32.toInt_add, hone, Int.bmod_eq_of_le (by omega) (by omega)]

lemma nextOrderId_ok {ids : List Int32} {start orderId : Int32} (h : nextOrderId ids start = .ok orderId) :
    orderId ∉ ids := by
  induction start using nextOrderId.induct ids with
  | case1 start hmem hlt ih =>
    rw [nextOrderId, if_pos hmem, if_pos hlt] at h
    exact ih h
  | case2 start hmem hlt =>
    rw [nextOrderId, if_pos hmem, if_neg hlt] at h
    cases h
  | case3 start hmem =>
    rw [nextOrderId, if_neg hmem] at h
    cases h
    exact hmem

/-- The search ends with an id when one from its start on is not taken. -/
lemma nextOrderId_of_free {ids : List Int32} (start : Int32) {free : Int32} (hfree : free ∉ ids)
    (hle : start.toInt ≤ free.toInt) : ∃ orderId, nextOrderId ids start = .ok orderId := by
  induction start using nextOrderId.induct ids with
  | case1 start hmem hlt ih =>
    rw [nextOrderId, if_pos hmem, if_pos hlt]
    have hne : start.toInt ≠ free.toInt := fun heq => hfree (Int32.toInt_inj.mp heq ▸ hmem)
    refine ih ?_
    rw [toInt_add_one hlt]
    omega
  | case2 start hmem hlt =>
    have hupper := Int32.toInt_lt free
    have heq : start.toInt = free.toInt := by omega
    exact absurd (Int32.toInt_inj.mp heq ▸ hmem) hfree
  | case3 start hmem =>
    rw [nextOrderId, if_neg hmem]
    exact ⟨start, rfl⟩

/-- The search overflows when every id from its start on is taken. -/
lemma nextOrderId_of_taken {ids : List Int32} {start : Int32}
    (h : ∀ orderId : Int32, start.toInt ≤ orderId.toInt → orderId ∈ ids) :
    nextOrderId ids start = .error .undefined := by
  induction start using nextOrderId.induct ids with
  | case1 start hmem hlt ih =>
    rw [nextOrderId, if_pos hmem, if_pos hlt]
    refine ih (fun orderId hle => h orderId ?_)
    rw [toInt_add_one hlt] at hle
    omega
  | case2 start hmem hlt => rw [nextOrderId, if_pos hmem, if_neg hlt]
  | case3 start hmem => exact absurd (h start le_rfl) hmem

/-! ### States -/

variable {P : Type} {s s' : SortOrderState P} {order : P}

lemma find?_eq_none (h : ∀ known ∈ s.sortOrders, (s.objects known).fields ≠ (s.objects order).fields) :
    s.sortOrders.find? (fun known => (s.objects known).fields = (s.objects order).fields) = none := by
  rw [List.find?_eq_none]
  exact fun known hknown => by simpa using h known hknown

/-- The given order is new, and its own id cannot be kept. -/
def SearchesId (s : SortOrderState P) (order : P) : Prop :=
  (∀ known ∈ s.sortOrders, (s.objects known).fields ≠ (s.objects order).fields) ∧
    ((s.objects order).orderId = 0 ∨ (s.objects order).orderId ∈ s.orderIds)

def HasFreeId (s : SortOrderState P) : Prop := ∃ orderId : Int32, 0 < orderId.toInt ∧ orderId ∉ s.orderIds

/-- The orders of the first state are the first ones of the second, and their objects are the same. -/
structure Extends (s s' : SortOrderState P) : Prop where
  front : s.sortOrders <+: s'.sortOrders
  objects : ∀ order ∈ s.sortOrders, s'.objects order = s.objects order

def FieldsDistinct (s : SortOrderState P) : Prop := (s.sortOrders.map (fun order => (s.objects order).fields)).Nodup

lemma Extends.trans {s'' : SortOrderState P} (h : Extends s s') (h' : Extends s' s'') : Extends s s'' where
  front := h.front.trans h'.front
  objects := fun order horder => (h'.objects order (h.front.subset horder)).trans (h.objects order horder)

/-- The first order with given fields stays the first one. -/
lemma Extends.find? {fields : List SortField} {known : P} (h : Extends s s')
    (hfind : s.sortOrders.find? (fun p => (s.objects p).fields = fields) = some known) :
    s'.sortOrders.find? (fun p => (s'.objects p).fields = fields) = some known := by
  obtain ⟨rest, hrest⟩ := h.front
  have hsame : s.sortOrders.filter (fun p => (s'.objects p).fields = fields) =
      s.sortOrders.filter (fun p => (s.objects p).fields = fields) :=
    List.filter_congr (fun p hp => by rw [h.objects p hp])
  rw [← hrest, List.find?_append, ← List.head?_filter, hsame, List.head?_filter, hfind]
  rfl

/-- Where ids are distinct, the default id designates the order that has it. -/
lemma getSortOrder_of_mem {known : P} (hdistinct : s.orderIds.Nodup) (hknown : known ∈ s.sortOrders)
    (hid : (s.objects known).orderId = s.defaultSortOrderId) : s.getSortOrder = some (s.objects known) := by
  rw [getSortOrder]
  cases hfind : s.sortOrders.find? (fun p => (s.objects p).orderId = s.defaultSortOrderId) with
  | none => exact absurd hid (by simpa using List.find?_eq_none.mp hfind known hknown)
  | some found =>
    have hfound : (s.objects found).orderId = s.defaultSortOrderId := by simpa using List.find?_some hfind
    have heq : found = known :=
      List.inj_on_of_nodup_map hdistinct (List.mem_of_find?_eq_some hfind) hknown (hfound.trans hid.symm)
    rw [heq]
    rfl

/-! ### One call -/

variable [DecidableEq P]

/-- The state after an order was appended under an id. -/
def appended (s : SortOrderState P) (order : P) (orderId : Int32) : SortOrderState P where
  objects := Function.update s.objects order { s.objects order with orderId := orderId }
  sortOrders := s.sortOrders ++ [order]
  defaultSortOrderId := orderId

lemma setSortOrder_known {known : P}
    (h : s.sortOrders.find? (fun known => (s.objects known).fields = (s.objects order).fields) = some known) :
    s.setSortOrder order =
      .ok ({ s with defaultSortOrderId := (s.objects known).orderId }, (s.objects known).orderId) := by
  rw [setSortOrder, h]

lemma setSortOrder_searches (h : SearchesId s order) :
    s.setSortOrder order = nextOrderId s.orderIds 1 >>= fun orderId => .ok (appended s order orderId, orderId) := by
  rw [setSortOrder, find?_eq_none h.1]
  dsimp only
  rw [if_pos h.2]
  cases nextOrderId s.orderIds 1 with
  | error e => rfl
  | ok orderId =>
    simp only [ok_bind, pure_bind, Function.update_self, appended]
    rfl

lemma setSortOrder_keeps (hnew : ∀ known ∈ s.sortOrders, (s.objects known).fields ≠ (s.objects order).fields)
    (h : ¬((s.objects order).orderId = 0 ∨ (s.objects order).orderId ∈ s.orderIds)) :
    s.setSortOrder order = .ok (appended s order (s.objects order).orderId, (s.objects order).orderId) := by
  rw [setSortOrder, find?_eq_none hnew]
  dsimp only
  rw [if_neg h, pure_bind, appended, Function.update_eq_self]
  rfl

/-- What a call can do: it chooses a known order, or appends the given one under a new id. -/
lemma setSortOrder_cases {orderId : Int32} (h : s.setSortOrder order = .ok (s', orderId)) :
    (∃ known ∈ s.sortOrders, (s.objects known).fields = (s.objects order).fields ∧
      (s.objects known).orderId = orderId ∧ s' = { s with defaultSortOrderId := orderId }) ∨
    ((∀ known ∈ s.sortOrders, (s.objects known).fields ≠ (s.objects order).fields) ∧ orderId ∉ s.orderIds ∧
      s' = appended s order orderId) := by
  cases hfind : s.sortOrders.find? (fun known => (s.objects known).fields = (s.objects order).fields) with
  | some known =>
    rw [setSortOrder_known hfind] at h
    cases h
    exact .inl ⟨known, List.mem_of_find?_eq_some hfind, by simpa using List.find?_some hfind, rfl, rfl⟩
  | none =>
    have hnew : ∀ known ∈ s.sortOrders, (s.objects known).fields ≠ (s.objects order).fields :=
      fun known hknown => by simpa using List.find?_eq_none.mp hfind known hknown
    refine .inr ⟨hnew, ?_⟩
    by_cases hid : (s.objects order).orderId = 0 ∨ (s.objects order).orderId ∈ s.orderIds
    · rw [setSortOrder_searches ⟨hnew, hid⟩] at h
      obtain ⟨orderId', hnext, h⟩ := bind_eq_ok_iff.mp h
      cases h
      exact ⟨nextOrderId_ok hnext, rfl⟩
    · rw [setSortOrder_keeps hnew hid] at h
      cases h
      exact ⟨fun hmem => hid (.inr hmem), rfl⟩

/-- A call returns unless it has to search an id and none is free. -/
lemma setSortOrder_total (h : SearchesId s order → HasFreeId s) : ∃ result, s.setSortOrder order = .ok result := by
  cases hfind : s.sortOrders.find? (fun known => (s.objects known).fields = (s.objects order).fields) with
  | some known => exact ⟨_, setSortOrder_known hfind⟩
  | none =>
    have hnew : ∀ known ∈ s.sortOrders, (s.objects known).fields ≠ (s.objects order).fields :=
      fun known hknown => by simpa using List.find?_eq_none.mp hfind known hknown
    by_cases hid : (s.objects order).orderId = 0 ∨ (s.objects order).orderId ∈ s.orderIds
    · obtain ⟨free, hpos, hfree⟩ := h ⟨hnew, hid⟩
      have hone : (1 : Int32).toInt = 1 := rfl
      obtain ⟨orderId, hnext⟩ := nextOrderId_of_free 1 hfree (by omega)
      rw [setSortOrder_searches ⟨hnew, hid⟩, hnext]
      exact ⟨_, rfl⟩
    · exact ⟨_, setSortOrder_keeps hnew hid⟩

/-! ### Runs of calls -/

/-- The state after a call that returns. -/
def afterCall (s : SortOrderState P) (order : P) : Option (SortOrderState P) :=
  (s.setSortOrder order).toOption.map Prod.fst

lemma afterCall_eq_some_iff : afterCall s order = some s' ↔ ∃ orderId, s.setSortOrder order = .ok (s', orderId) := by
  unfold afterCall
  cases s.setSortOrder order with
  | error e => simp [Except.toOption]
  | ok result => simp [Except.toOption, Prod.ext_iff]

lemma extends_appended {orderId : Int32}
    (h : ∀ known ∈ s.sortOrders, (s.objects known).fields ≠ (s.objects order).fields) :
    Extends s (appended s order orderId) where
  front := List.prefix_append _ _
  objects := fun known hknown => Function.update_of_ne (fun heq => h known hknown (by rw [heq])) _ _

lemma map_appended {α : Type} (f : SortOrder → α) {orderId : Int32}
    (h : ∀ known ∈ s.sortOrders, (s.objects known).fields ≠ (s.objects order).fields) :
    (appended s order orderId).sortOrders.map (fun p => f ((appended s order orderId).objects p)) =
      s.sortOrders.map (fun p => f (s.objects p)) ++ [f { s.objects order with orderId := orderId }] := by
  have hold : s.sortOrders.map (fun p => f ((appended s order orderId).objects p)) =
      s.sortOrders.map (fun p => f (s.objects p)) :=
    List.map_congr_left (fun known hknown => by rw [(extends_appended h).objects known hknown])
  change (s.sortOrders ++ [order]).map _ = _
  rw [List.map_append, hold, List.map_singleton]
  simp only [appended, Function.update_self]

/-- What one call keeps. -/
lemma setSortOrder_extends {orderId : Int32} (h : s.setSortOrder order = .ok (s', orderId)) :
    Extends s s' ∧ (s.orderIds.Nodup → s'.orderIds.Nodup) ∧ (FieldsDistinct s → FieldsDistinct s') := by
  obtain ⟨known, hknown, hfields, hid, rfl⟩ | ⟨hnew, hfree, rfl⟩ := setSortOrder_cases h
  · exact ⟨⟨List.prefix_rfl, fun _ _ => rfl⟩, id, id⟩
  · refine ⟨extends_appended hnew, fun hnodup => ?_, fun hnodup => ?_⟩
    · rw [orderIds, map_appended SortOrder.orderId hnew, ← List.concat_eq_append]
      exact hnodup.concat hfree
    · rw [FieldsDistinct, map_appended SortOrder.fields hnew, ← List.concat_eq_append]
      refine hnodup.concat (fun hmem => ?_)
      obtain ⟨known, hknown, heq⟩ := List.mem_map.mp hmem
      exact hnew known hknown heq

/-- What every run keeps. -/
lemma run_extends (h : Leads afterCall s s') :
    Extends s s' ∧ (s.orderIds.Nodup → s'.orderIds.Nodup) ∧ (FieldsDistinct s → FieldsDistinct s') := by
  obtain ⟨orders, hrun⟩ := h
  have hstart : Extends s s ∧ (s.orderIds.Nodup → s.orderIds.Nodup) ∧ (FieldsDistinct s → FieldsDistinct s) :=
    ⟨⟨List.prefix_rfl, fun _ _ => rfl⟩, id, id⟩
  refine foldlM_invariant (P := fun t => Extends s t ∧ (s.orderIds.Nodup → t.orderIds.Nodup) ∧
    (FieldsDistinct s → FieldsDistinct t)) hstart ?_ hrun
  intro t order t' ⟨hext, hids, hfields⟩ hcall
  obtain ⟨orderId, hcall⟩ := afterCall_eq_some_iff.mp hcall
  obtain ⟨hext', hids', hfields'⟩ := setSortOrder_extends hcall
  exact ⟨hext.trans hext', fun h => hids' (hids h), fun h => hfields' (hfields h)⟩

/-- Valid metadata stays valid. -/
theorem run_keepsValid {metadata : TableMetadataV2} (hvalid : defaultCheck (s.toMetadata metadata) = .ok ())
    (hrun : Leads afterCall s s') : defaultCheck (s'.toMetadata metadata) = .ok () := by
  have hconsistent := defaultCheck_ok_iff.mp hvalid
  have hfront := (run_extends hrun).1.front
  have horders : (s'.toMetadata metadata).sortOrders ≠ [] := by
    intro hnil
    have hempty : s'.sortOrders = [] := List.map_eq_nil_iff.mp hnil
    rw [hempty, List.prefix_nil] at hfront
    exact hconsistent.sortOrders (List.map_eq_nil_iff.mpr hfront)
  exact defaultCheck_ok_iff.mpr ⟨hconsistent.tableUuid, hconsistent.location, horders, hconsistent.sequenceNumbers,
    hconsistent.snapshotLog, hconsistent.refs, hconsistent.currentSnapshot, hconsistent.currentSchema,
    hconsistent.defaultSpec⟩

/-- After a call, the first order with the given fields has the id that was returned. -/
lemma setSortOrder_designates {orderId : Int32} (h : s.setSortOrder order = .ok (s', orderId)) :
    s'.defaultSortOrderId = orderId ∧ ∃ known,
      s'.sortOrders.find? (fun p => (s'.objects p).fields = (s.objects order).fields) = some known ∧
        (s'.objects known).orderId = orderId := by
  obtain ⟨known, hknown, hfields, hid, rfl⟩ | ⟨hnew, hfree, rfl⟩ := setSortOrder_cases h
  · obtain ⟨first, hfind⟩ : ∃ first,
        s.sortOrders.find? (fun p => (s.objects p).fields = (s.objects order).fields) = some first :=
      Option.isSome_iff_exists.mp (List.find?_isSome.mpr ⟨known, hknown, decide_eq_true hfields⟩)
    rw [setSortOrder_known hfind] at h
    have hfirst : (s.objects first).orderId = orderId := congrArg Prod.snd (Except.ok.inj h)
    exact ⟨rfl, first, hfind, hfirst⟩
  · have hobject : (appended s order orderId).objects order = { s.objects order with orderId := orderId } :=
      Function.update_self _ _ _
    have hold : s.sortOrders.find? (fun p => ((appended s order orderId).objects p).fields =
        (s.objects order).fields) = none := by
      rw [List.find?_eq_none]
      intro known hknown
      rw [(extends_appended hnew).objects known hknown]
      simpa using hnew known hknown
    refine ⟨rfl, order, ?_, by rw [hobject]⟩
    change (s.sortOrders ++ [order]).find? _ = _
    rw [List.find?_append, hold, Option.none_or]
    exact List.find?_cons_of_pos (by simp [hobject])

/-- In every state a run reaches, ids are distinct and no order was changed or removed; a call that need not search an
id, or finds a free one, returns the id of an order with the given fields, which is the default then, and every later
call with the same fields changes nothing but the default. -/
theorem sortOrders_keepIdentity (hdistinct : s.orderIds.Nodup) (hrun : Leads afterCall s s') :
    s'.orderIds.Nodup ∧ Extends s s' ∧ (FieldsDistinct s → FieldsDistinct s') ∧
      ∀ order, (SearchesId s' order → HasFreeId s') → ∃ s'' orderId, s'.setSortOrder order = .ok (s'', orderId) ∧
        s''.defaultSortOrderId = orderId ∧
        s''.getSortOrder = some { orderId := orderId, fields := (s'.objects order).fields } ∧
        ∀ t order', Leads afterCall s'' t → (t.objects order').fields = (s'.objects order).fields →
          t.setSortOrder order' = .ok ({ t with defaultSortOrderId := orderId }, orderId) := by
  obtain ⟨hext, hids, hfields⟩ := run_extends hrun
  refine ⟨hids hdistinct, hext, hfields, fun order hfree => ?_⟩
  obtain ⟨⟨s'', orderId⟩, hcall⟩ := setSortOrder_total hfree
  obtain ⟨hdefault, known, hfind, hid⟩ := setSortOrder_designates hcall
  have hknownFields : (s''.objects known).fields = (s'.objects order).fields := by simpa using List.find?_some hfind
  refine ⟨s'', orderId, hcall, hdefault, ?_, fun t order' hlater hsame => ?_⟩
  · have hdesignated := getSortOrder_of_mem ((setSortOrder_extends hcall).2.1 (hids hdistinct))
      (List.mem_of_find?_eq_some hfind) (hid.trans hdefault.symm)
    rw [hdesignated, ← hid, ← hknownFields]
  · have hext' := (run_extends hlater).1
    have hkept : t.objects known = s''.objects known := hext'.objects known (List.mem_of_find?_eq_some hfind)
    have hlaterFind := hext'.find? hfind
    rw [← hsame] at hlaterFind
    rw [setSortOrder_known hlaterFind, hkept, hid]

/-- The unsorted order alone, and two objects with the id 0 and the same field. -/
def unsortedTable : SortOrderState (Fin 3) where
  objects := fun order =>
    if order = 0 then { orderId := 0, fields := [] }
    else { orderId := 0, fields := [{ transform := [], sourceId := 1, direction := .asc, nullOrder := .nullsLast }] }
  sortOrders := [0]
  defaultSortOrderId := 0

lemma nextOrderId_unsorted : nextOrderId unsortedTable.orderIds 1 = .ok 1 := by
  rw [nextOrderId, if_neg (by decide)]

theorem unsortedTable_keepsIdentity :
    (appended unsortedTable 1 1).orderIds.Nodup ∧
      ∃ s'' orderId, (appended unsortedTable 1 1).setSortOrder 2 = .ok (s'', orderId) ∧
        s''.defaultSortOrderId = orderId := by
  have hsearches : SearchesId unsortedTable 1 := by
    constructor
    · decide
    · exact .inl rfl
  have hcall : unsortedTable.setSortOrder 1 = .ok (appended unsortedTable 1 1, 1) := by
    rw [setSortOrder_searches hsearches, nextOrderId_unsorted]
    rfl
  have hrun : Leads afterCall unsortedTable (appended unsortedTable 1 1) := Leads.one (afterCall_eq_some_iff.mpr ⟨1, hcall⟩)
  obtain ⟨hnodup, -, -, hcalls⟩ := sortOrders_keepIdentity (s := unsortedTable) (by decide) hrun
  obtain ⟨s'', orderId, hnext, hdefault, -⟩ := hcalls 2 (fun _ => ⟨2, by decide, by decide⟩)
  exact ⟨hnodup, s'', orderId, hnext, hdefault⟩

/-- The ids from 1 to `n`. -/
def firstIds (n : Nat) : List Int32 := (List.range n).map (fun i => Int32.ofNat (i + 1))

lemma mem_firstIds {n : Nat} (hn : n < 2 ^ 31) {orderId : Int32} :
    orderId ∈ firstIds n ↔ 0 < orderId.toInt ∧ orderId.toInt ≤ n := by
  constructor
  · intro h
    obtain ⟨i, hi, rfl⟩ := List.mem_map.mp h
    have hlt : i < n := List.mem_range.mp hi
    rw [Int32.toInt_ofNat_of_lt (by omega)]
    omega
  · intro ⟨hpos, hle⟩
    refine List.mem_map.mpr ⟨orderId.toInt.toNat - 1, List.mem_range.mpr (by omega), Int32.toInt_inj.mp ?_⟩
    rw [Int32.toInt_ofNat_of_lt (by omega)]
    omega

lemma nodup_firstIds {n : Nat} (hn : n < 2 ^ 31) : (firstIds n).Nodup := by
  refine List.Nodup.map_on (fun i hi j hj heq => ?_) List.nodup_range
  have hi : i < n := List.mem_range.mp hi
  have hj : j < n := List.mem_range.mp hj
  have heq' := congrArg Int32.toInt heq
  rw [Int32.toInt_ofNat_of_lt (by omega), Int32.toInt_ofNat_of_lt (by omega)] at heq'
  omega

/-- A table with the ids from 1 to `n`; the order behind the pointer 0 has no fields. -/
def tableWithIds (n : Nat) : SortOrderState Int32 where
  objects := fun order =>
    if order = 0 then { orderId := 0, fields := [] }
    else { orderId := order, fields := [{ transform := [], sourceId := 1, direction := .asc, nullOrder := .nullsLast }] }
  sortOrders := firstIds n
  defaultSortOrderId := 1

lemma ne_zero_of_mem_firstIds {n : Nat} (hn : n < 2 ^ 31) {orderId : Int32} (h : orderId ∈ firstIds n) :
    orderId ≠ 0 := by
  rintro rfl
  exact absurd ((mem_firstIds hn).mp h).1 (by decide)

lemma orderIds_tableWithIds {n : Nat} (hn : n < 2 ^ 31) : (tableWithIds n).orderIds = firstIds n := by
  have hids : ∀ order ∈ firstIds n, ((tableWithIds n).objects order).orderId = order :=
    fun order horder => by simp only [tableWithIds, if_neg (ne_zero_of_mem_firstIds hn horder)]
  change (firstIds n).map _ = _
  rw [List.map_congr_left hids, List.map_id']

lemma setSortOrder_tableWithIds {n : Nat} (hn : n + 1 = 2 ^ 31) :
    (tableWithIds n).orderIds.Nodup ∧ (tableWithIds n).setSortOrder 0 = .error .undefined := by
  have hlt : n < 2 ^ 31 := by omega
  have hsearches : SearchesId (tableWithIds n) 0 := by
    refine ⟨fun known hknown => ?_, .inl rfl⟩
    simp [tableWithIds, ne_zero_of_mem_firstIds hlt hknown]
  have hone : (1 : Int32).toInt = 1 := rfl
  have htaken : ∀ orderId : Int32, (1 : Int32).toInt ≤ orderId.toInt → orderId ∈ firstIds n := by
    intro orderId hle
    have hupper := Int32.toInt_lt orderId
    exact (mem_firstIds hlt).mpr (by omega)
  rw [setSortOrder_searches hsearches, orderIds_tableWithIds hlt, nextOrderId_of_taken htaken]
  exact ⟨nodup_firstIds hlt, rfl⟩

/-- A new order gets no id when all are taken. -/
theorem fullTable_overflows : ∃ s : SortOrderState Int32, s.orderIds.Nodup ∧ s.setSortOrder 0 = .error .undefined :=
  ⟨tableWithIds (2 ^ 31 - 1), setSortOrder_tableWithIds (by norm_num)⟩

end IcebergCxx.Proofs

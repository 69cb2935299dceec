import IcebergCxx.Lib.Effects
import IcebergCxx.MemoryState

/-!
# Counting within the limit

A counter that does not exceed the limit is counted up exactly when the limit allows it, and counted down exactly as long
as no more is taken off than there is. Both keep the flags. A key is put into a table without an error when its table
need not grow or the new storage fits.
-/

namespace IcebergCxx.Proofs

open Lib

/-- A limit that throws and has not been exceeded, and a counter that has never wrapped around. -/
structure Within (limit : UInt64) (m : MemoryState) : Prop where
  maxSize : m.maxSize = some limit
  throwing : m.throwOnAllocExceeded = true
  notExceeded : m.limitExceeded = false
  within : m.allocatedSize.toNat ≤ limit.toNat
  counter : m.counterWrapped = false
  remaining : m.remainingWrapped = false

variable {limit : UInt64} {m : MemoryState}

/-- The state after a number of bytes was counted. -/
def counted (m : MemoryState) (bytes : Nat) : MemoryState :=
  { m with allocatedSize := m.allocatedSize + UInt64.ofNat bytes }

lemma Within.subtracted (h : Within limit m) : m.subtracted = m := by
  have hle : ¬limit < m.allocatedSize := by
    rw [UInt64.lt_iff_toNat_lt]
    exact not_lt.mpr h.within
  rw [MemoryState.subtracted, h.maxSize]
  simp only [hle, decide_false, Bool.or_false]
  rw [← h.maxSize]

lemma Within.toNat_remaining (h : Within limit m) :
    (limit - m.allocatedSize).toNat = limit.toNat - m.allocatedSize.toNat :=
  UInt64.toNat_sub_of_le _ _ (UInt64.le_iff_toNat_le.mpr h.within)

lemma Within.exceeds_iff (h : Within limit m) (bytes : Nat) :
    m.exceeds (UInt64.ofNat bytes) = true ↔ limit.toNat < m.allocatedSize.toNat + bytes % 2 ^ 64 := by
  have hle := h.within
  rw [MemoryState.exceeds, h.maxSize, decide_eq_true_iff, UInt64.lt_iff_toNat_lt, h.toNat_remaining, UInt64.toNat_ofNat']
  omega

lemma toNat_counted {bytes : Nat} (hfits : m.allocatedSize.toNat + bytes % 2 ^ 64 ≤ limit.toNat) :
    (counted m bytes).allocatedSize.toNat = m.allocatedSize.toNat + bytes % 2 ^ 64 := by
  have hlimit := limit.toNat_lt
  rw [counted, UInt64.toNat_add, UInt64.toNat_ofNat', Nat.mod_eq_of_lt]
  omega

lemma Within.counted (h : Within limit m) {bytes : Nat}
    (hfits : m.allocatedSize.toNat + bytes % 2 ^ 64 ≤ limit.toNat) : Within limit (counted m bytes) :=
  ⟨h.maxSize, h.throwing, h.notExceeded, (toNat_counted hfits).trans_le hfits, h.counter, h.remaining⟩

lemma Within.allocateCommon_fits (h : Within limit m) {bytes : Nat}
    (hfits : m.allocatedSize.toNat + bytes % 2 ^ 64 ≤ limit.toNat) :
    m.allocateCommon (UInt64.ofNat bytes) = (true, Proofs.counted m bytes) := by
  have hlimit := limit.toNat_lt
  have hexceeds : m.exceeds (UInt64.ofNat bytes) = false := by
    rw [Bool.eq_false_iff, ne_eq, h.exceeds_iff]
    omega
  have hwrap : decide (2 ^ 64 ≤ m.allocatedSize.toNat + (UInt64.ofNat bytes).toNat) = false := by
    rw [decide_eq_false_iff_not, UInt64.toNat_ofNat']
    omega
  simp only [MemoryState.allocateCommon, h.subtracted, hexceeds, Bool.false_and, Bool.false_eq_true, if_false, Bool.or_false,
    hwrap]
  rfl

lemma Within.allocateCommon_refused (h : Within limit m) (hallow : m.allowThrow = true) {bytes : Nat}
    (hfull : limit.toNat < m.allocatedSize.toNat + bytes % 2 ^ 64) :
    m.allocateCommon (UInt64.ofNat bytes) = (false, m) := by
  simp only [MemoryState.allocateCommon, h.subtracted, (h.exceeds_iff bytes).mpr hfull, h.throwing, hallow, Bool.and_self,
    if_true]

/-- Between calls exceptions are allowed. -/
structure Enforced (limit : UInt64) (m : MemoryState) : Prop extends Within limit m where
  allowThrow : m.allowThrow = true

lemma Enforced.counted (h : Enforced limit m) {bytes : Nat}
    (hfits : m.allocatedSize.toNat + bytes % 2 ^ 64 ≤ limit.toNat) : Enforced limit (counted m bytes) :=
  ⟨h.toWithin.counted hfits, h.allowThrow⟩

/-- Bytes are counted as far as the limit allows it. -/
lemma allocate_ends (h : Enforced limit m) (bytes : Nat) :
    Ends (allocate bytes) m
      (fun _ m' => m.allocatedSize.toNat + bytes % 2 ^ 64 ≤ limit.toNat ∧ m' = counted m bytes)
      (fun e m' => e = .badAlloc ∧ m' = m) := by
  rcases Nat.lt_or_ge limit.toNat (m.allocatedSize.toNat + bytes % 2 ^ 64) with hfull | hfits
  · have hrun : allocate bytes m = .error .badAlloc m := by
      rw [allocate, h.allocateCommon_refused h.allowThrow hfull]
    exact Ends.of_error hrun ⟨rfl, rfl⟩
  · have hrun : allocate bytes m = .ok () (Proofs.counted m bytes) := by
      rw [allocate, h.allocateCommon_fits hfits]
    exact Ends.of_ok hrun ⟨hfits, rfl⟩

/-- No more than is counted is taken off. -/
lemma deallocate_exact {bytes : Nat} (hle : bytes ≤ m.allocatedSize.toNat) :
    (m.deallocate bytes).allocatedSize.toNat = m.allocatedSize.toNat - bytes ∧
      (m.deallocate bytes).counterWrapped = m.counterWrapped := by
  have hlt := m.allocatedSize.toNat_lt
  have hmod : (UInt64.ofNat bytes).toNat = bytes := by
    rw [UInt64.toNat_ofNat', Nat.mod_eq_of_lt]
    omega
  have hnot : ¬m.allocatedSize.toNat < bytes := by omega
  refine ⟨?_, ?_⟩
  · rw [MemoryState.deallocate, UInt64.toNat_sub_of_le, hmod]
    rw [UInt64.le_iff_toNat_le, hmod]
    exact hle
  · simp only [MemoryState.deallocate, hnot, decide_false, Bool.or_false]

lemma Within.deallocate (h : Within limit m) {bytes : Nat} (hle : bytes ≤ m.allocatedSize.toNat) :
    Within limit (m.deallocate bytes) ∧ (m.deallocate bytes).allocatedSize.toNat = m.allocatedSize.toNat - bytes := by
  obtain ⟨hsub, hcounter⟩ := deallocate_exact hle
  refine ⟨⟨h.maxSize, h.throwing, h.notExceeded, ?_, hcounter.trans h.counter, h.remaining⟩, hsub⟩
  rw [hsub]
  exact (Nat.sub_le _ _).trans h.within

lemma Enforced.deallocate (h : Enforced limit m) {bytes : Nat} (hle : bytes ≤ m.allocatedSize.toNat) :
    Enforced limit (m.deallocate bytes) :=
  ⟨(h.toWithin.deallocate hle).1, h.allowThrow⟩

lemma Within.setAllowThrow (h : Within limit m) (flag : Bool) : Within limit { m with allowThrow := flag } :=
  ⟨h.maxSize, h.throwing, h.notExceeded, h.within, h.counter, h.remaining⟩

lemma setExceptionFlag_ok (h : Within limit m) (flag : Bool) :
    setExceptionFlag flag m = .ok () { m with allowThrow := flag } := by
  simp only [setExceptionFlag, h.notExceeded, Bool.and_false, Bool.false_and, Bool.false_eq_true, if_false]

/-! ### Scopes -/

section
variable {α : Type} {body : MemoryM α} {Q Q' : α → MemoryState → Prop} {E E' : Exit → MemoryState → Prop}

/-- The rule for an object with a destructor. -/
lemma destroying_ends {destructor : MemoryState → MemoryState} (hbody : Ends body m Q E)
    (hQ : ∀ a m', Q a m' → Q' a (destructor m')) (hE : ∀ e m', E e m' → e ≠ .terminated ∧ E' e (destructor m')) :
    Ends (destroying destructor body) m Q' E' := by
  cases h : body m with
  | ok a m' =>
    have hrun : destroying destructor body m = .ok a (destructor m') := by
      rw [destroying, h]
    exact Ends.of_ok hrun (hQ a m' (hbody.ok h))
  | error e m' =>
    obtain ⟨hne, hE'⟩ := hE e m' (hbody.error h)
    have hrun : destroying destructor body m = .error e (destructor m') := by
      rw [destroying, h]
      cases e <;> first | rfl | exact absurd rfl hne
    exact Ends.of_error hrun hE'

/-- The rule for a guard that suspends exceptions around a body that cannot fail. -/
lemma guardFalse_ends (hm : Within limit m) (hbody : Ends body { m with allowThrow := false }
      (fun a m' => Within limit m' ∧ Q a { m' with allowThrow := true }) (fun _ _ => False)) :
    Ends (exceptionFlagGuard false body) m Q E := by
  cases h : body { m with allowThrow := false } with
  | ok a m' =>
    obtain ⟨hwithin, hQ⟩ := hbody.ok h
    have hrun : exceptionFlagGuard false body m = .ok a { m' with allowThrow := true } := by
      refine (bind_apply_ok (setExceptionFlag_ok hm false)).trans ?_
      simp only [h, Bool.not_false, setExceptionFlag_ok hwithin true]
    exact Ends.of_ok hrun hQ
  | error e m' => exact (hbody.error h).elim

end

/-! ### Hash tables -/

section
variable {K : Type} {growth : Growth} {traits : KeyTraits K} {map : FlatHashMap K}

/-- The bytes that the destructors of all keys of a table take off. -/
def releasedSlots (traits : KeyTraits K) (map : FlatHashMap K) : Nat :=
  (map.slots.map (fun slot => traits.released slot.1)).sum

lemma Within.foldl_deallocate (h : Within limit m) (traits : KeyTraits K) (slots : List (K × Int))
    (hle : (slots.map (fun slot => traits.released slot.1)).sum ≤ m.allocatedSize.toNat) :
    Within limit (slots.foldl (fun m slot => m.deallocate (traits.released slot.1)) m) ∧
      (slots.foldl (fun m slot => m.deallocate (traits.released slot.1)) m).allocatedSize.toNat =
        m.allocatedSize.toNat - (slots.map (fun slot => traits.released slot.1)).sum ∧
      (slots.foldl (fun m slot => m.deallocate (traits.released slot.1)) m).allowThrow = m.allowThrow := by
  induction slots generalizing m with
  | nil => exact ⟨h, rfl, rfl⟩
  | cons slot slots ih =>
    rw [List.map_cons, List.sum_cons] at hle ⊢
    obtain ⟨hstep, hsub⟩ := h.deallocate (show traits.released slot.1 ≤ m.allocatedSize.toNat by omega)
    obtain ⟨hrest, hcount, hallow⟩ := ih hstep (by omega)
    refine ⟨hrest, ?_, hallow⟩
    rw [List.foldl_cons, hcount, hsub]
    omega

/-- A table grows within the limit when its new storage fits. -/
lemma resize_ok (h : Within limit m) (map : FlatHashMap K) {capacity : Nat}
    (hfits : m.allocatedSize.toNat + growth.storage traits.slotSize capacity ≤ limit.toNat)
    (hreleased : releasedSlots traits map + map.storage growth traits ≤
      m.allocatedSize.toNat + growth.storage traits.slotSize capacity) :
    ∃ m', map.resize growth traits capacity m = .ok { map with capacity } m' ∧ Within limit m' ∧
      m'.allowThrow = m.allowThrow ∧ m'.allocatedSize.toNat =
        m.allocatedSize.toNat + growth.storage traits.slotSize capacity -
          (releasedSlots traits map + map.storage growth traits) := by
  have hlimit := limit.toNat_lt
  have hmod : growth.storage traits.slotSize capacity % 2 ^ 64 = growth.storage traits.slotSize capacity :=
    Nat.mod_eq_of_lt (by omega)
  have hfits' : m.allocatedSize.toNat + growth.storage traits.slotSize capacity % 2 ^ 64 ≤ limit.toNat := by
    rwa [hmod]
  have halloc : allocate (growth.storage traits.slotSize capacity) m =
      .ok () (counted m (growth.storage traits.slotSize capacity)) := by
    rw [allocate, h.allocateCommon_fits hfits']
  have hcount := toNat_counted hfits'
  rw [hmod] at hcount
  obtain ⟨hslots, hslotsCount, hallow⟩ := (h.counted hfits').foldl_deallocate traits map.slots
    (by rw [hcount]; exact (Nat.le_add_right _ _).trans hreleased)
  rw [hcount] at hslotsCount
  unfold releasedSlots at hreleased ⊢
  have hold : map.storage growth traits ≤ (map.slots.foldl (fun m slot => m.deallocate (traits.released slot.1))
      (counted m (growth.storage traits.slotSize capacity))).allocatedSize.toNat := by omega
  obtain ⟨hend, hendCount⟩ := hslots.deallocate hold
  refine ⟨_, ?_, hend, hallow, by rw [hendCount, hslotsCount, Nat.sub_sub]⟩
  rw [FlatHashMap.resize, bind_apply_ok halloc]
  rfl

/-- `CheckLimitsBeforeAllocation` refuses a key, with `allocated` bytes counted. -/
def CheckRefuses (traits : KeyTraits K) (limit : UInt64) (allocated : Nat) (map : FlatHashMap K) : Prop :=
  limit.toNat - allocated < map.predictedReallocSize traits % 2 ^ 64

/-- The table grows for a key. -/
def Grows (growth : Growth) (traits : KeyTraits K) (map : FlatHashMap K) (key : K) : Prop :=
  map.get traits key = none ∧ growth.full map.capacity map.slots.length = true

instance (traits : KeyTraits K) (limit : UInt64) (allocated : Nat) (map : FlatHashMap K) :
    Decidable (CheckRefuses traits limit allocated map) := inferInstanceAs (Decidable (_ < _))

instance (growth : Growth) (traits : KeyTraits K) (map : FlatHashMap K) (key : K) :
    Decidable (Grows growth traits map key) := inferInstanceAs (Decidable (_ ∧ _))

/-- A key can be put into a table, with `allocated` bytes counted of which `after` are taken off later: it is refused
beforehand, or the table does not grow, or the new storage fits into the limit; and no destructor, nor the freed
storage, takes off more than is counted. -/
def SetFits (growth : Growth) (traits : KeyTraits K) (limit : UInt64) (allocated : Nat) (map : FlatHashMap K) (key : K)
    (after : Nat) : Prop :=
  if ¬CheckRefuses traits limit allocated map ∧ Grows growth traits map key then
    allocated + growth.storage traits.slotSize (growth.next map.capacity) ≤ limit.toNat ∧
      releasedSlots traits map + map.storage growth traits + (traits.released key + after) ≤
        allocated + growth.storage traits.slotSize (growth.next map.capacity)
  else traits.released key + after ≤ allocated

/-- `values_[key] = value` while exceptions are suspended. -/
lemma assign_ok (h : Within limit m) {key : K} (value : Int) {after : Nat}
    (hfits : if Grows growth traits map key then
        m.allocatedSize.toNat + growth.storage traits.slotSize (growth.next map.capacity) ≤ limit.toNat ∧
          releasedSlots traits map + map.storage growth traits + after ≤
            m.allocatedSize.toNat + growth.storage traits.slotSize (growth.next map.capacity)
      else after ≤ m.allocatedSize.toNat) :
    Ends (map.assign growth traits key value) m (fun _ m' => Within limit m' ∧ after ≤ m'.allocatedSize.toNat)
      (fun _ _ => False) := by
  unfold FlatHashMap.assign
  by_cases hget : (map.get traits key).isSome
  · have hnot : ¬Grows growth traits map key := by
      intro hgrows
      rw [hgrows.1] at hget
      cases hget
    rw [if_neg hnot] at hfits
    rw [if_pos hget]
    exact ends_pure ⟨h, hfits⟩
  · rw [if_neg hget]
    have hnone : map.get traits key = none := Option.not_isSome_iff_eq_none.mp hget
    cases hfull : growth.full map.capacity map.slots.length with
    | false =>
      have hnot : ¬Grows growth traits map key := fun hgrows => absurd (hgrows.2.symm.trans hfull) (by decide)
      rw [if_neg hnot] at hfits
      exact Ends.bind (Q := fun _ m' => Within limit m' ∧ after ≤ m'.allocatedSize.toNat) (ends_pure ⟨h, hfits⟩)
        (fun _ _ hQ => ends_pure hQ)
    | true =>
      rw [if_pos ⟨hnone, hfull⟩] at hfits
      obtain ⟨m', hresize, hwithin, -, hcount⟩ := resize_ok h map hfits.1 (by omega)
      refine Ends.bind (Q := fun _ m' => Within limit m' ∧ after ≤ m'.allocatedSize.toNat)
        (Ends.of_ok hresize ⟨hwithin, by omega⟩) (fun _ _ hQ => ends_pure hQ)

/-- `CheckLimitsBeforeAllocation`. -/
lemma checkLimits_ends (h : Within limit m) (predicted : Nat) :
    Ends (checkLimitsBeforeAllocation predicted) m
      (fun _ m' => m' = m ∧ ¬limit.toNat - m.allocatedSize.toNat < predicted % 2 ^ 64)
      (fun e m' => e = .badAlloc ∧ m' = m ∧ limit.toNat - m.allocatedSize.toNat < predicted % 2 ^ 64) := by
  have hremaining : m.remainingAllocateSize = limit - m.allocatedSize := by
    rw [MemoryState.remainingAllocateSize, h.maxSize]
  have hiff : m.remainingAllocateSize < UInt64.ofNat predicted ↔
      limit.toNat - m.allocatedSize.toNat < predicted % 2 ^ 64 := by
    rw [hremaining, UInt64.lt_iff_toNat_lt, h.toNat_remaining, UInt64.toNat_ofNat']
  by_cases hlt : m.remainingAllocateSize < UInt64.ofNat predicted
  · have hrun : checkLimitsBeforeAllocation predicted m = .error .badAlloc m := by
      simp only [checkLimitsBeforeAllocation, h.subtracted, hlt, h.throwing, decide_true, Bool.and_self, if_true]
    exact Ends.of_error hrun ⟨rfl, rfl, hiff.mp hlt⟩
  · have hrun : checkLimitsBeforeAllocation predicted m = .ok () m := by
      simp only [checkLimitsBeforeAllocation, h.subtracted, hlt, decide_false, Bool.false_and, Bool.false_eq_true, if_false]
    exact Ends.of_ok hrun ⟨rfl, fun hfull => hlt (hiff.mpr hfull)⟩

/-- `Set` keeps the limit, and throws nothing out of a destructor, when the key fits. -/
lemma set_ends (h : Enforced limit m) {key : K} (value : Int) {after : Nat}
    (hfits : SetFits growth traits limit m.allocatedSize.toNat map key after) :
    Ends (map.set growth traits key value) m (fun _ m' => Enforced limit m' ∧ after ≤ m'.allocatedSize.toNat)
      (fun e m' => e ≠ .terminated ∧ Enforced limit m' ∧ after ≤ m'.allocatedSize.toNat) := by
  have hrelease : ∀ m' : MemoryState, Enforced limit m' → traits.released key + after ≤ m'.allocatedSize.toNat →
      Enforced limit (m'.deallocate (traits.released key)) ∧
        after ≤ (m'.deallocate (traits.released key)).allocatedSize.toNat := by
    intro m' hm' hle
    refine ⟨hm'.deallocate (by omega), ?_⟩
    rw [(hm'.toWithin.deallocate (by omega)).2]
    omega
  refine destroying_ends (Q := fun _ m' => Enforced limit m' ∧ traits.released key + after ≤ m'.allocatedSize.toNat)
    (E := fun e m' => e ≠ .terminated ∧ Enforced limit m' ∧ traits.released key + after ≤ m'.allocatedSize.toNat)
    ?_ (fun _ m' hQ => hrelease m' hQ.1 hQ.2) (fun _ m' hE => ⟨hE.1, hE.1, hrelease m' hE.2.1 hE.2.2⟩)
  refine Ends.bind (Ends.mono (checkLimits_ends h.toWithin _) (fun _ _ hQ => hQ) ?_) ?_
  · rintro e m' ⟨rfl, rfl, hrefused⟩
    rw [SetFits, if_neg (fun hgrows => hgrows.1 hrefused)] at hfits
    exact ⟨by simp, h, hfits⟩
  · rintro _ m' ⟨rfl, hadmitted⟩
    have hfits' : if Grows growth traits map key then
        m'.allocatedSize.toNat + growth.storage traits.slotSize (growth.next map.capacity) ≤ limit.toNat ∧
          releasedSlots traits map + map.storage growth traits + (traits.released key + after) ≤
            m'.allocatedSize.toNat + growth.storage traits.slotSize (growth.next map.capacity)
        else traits.released key + after ≤ m'.allocatedSize.toNat := by
      by_cases hgrows : Grows growth traits map key
      · rw [SetFits, if_pos ⟨hadmitted, hgrows⟩] at hfits
        rwa [if_pos hgrows]
      · rw [SetFits, if_neg (fun hboth => hgrows hboth.2)] at hfits
        rwa [if_neg hgrows]
    refine guardFalse_ends h.toWithin (Ends.mono (assign_ok (h.toWithin.setAllowThrow false) value hfits') ?_ ?_)
    · rintro _ m₁ ⟨hwithin, hle⟩
      exact ⟨hwithin, ⟨hwithin.setAllowThrow true, rfl⟩, hle⟩
    · exact fun _ _ hE => hE

lemma updateMax_ends (h : Enforced limit m) {key : K} (value : Int) {after : Nat}
    (hfits : SetFits growth traits limit m.allocatedSize.toNat map key after) :
    Ends (map.updateMax growth traits key value) m (fun _ m' => Enforced limit m' ∧ after ≤ m'.allocatedSize.toNat)
      (fun e m' => e ≠ .terminated ∧ Enforced limit m' ∧ after ≤ m'.allocatedSize.toNat) := by
  unfold FlatHashMap.updateMax
  cases map.get traits key with
  | none => exact set_ends h value hfits
  | some oldValue => exact set_ends h (max oldValue value) hfits

/-- `Reserve` of an empty table is refused or stays within the limit. -/
lemma reserve_ends (h : Enforced limit m) (size : Nat) :
    Ends (({} : FlatHashMap K).reserve growth traits size) m (fun _ m' => Enforced limit m')
      (fun e m' => e ≠ .terminated ∧ Enforced limit m') := by
  unfold FlatHashMap.reserve
  split_ifs with hgrow
  · refine Ends.bind (Ends.mono (allocate_ends h _) (fun _ _ hQ => hQ) ?_) ?_
    · rintro e m' ⟨rfl, rfl⟩
      exact ⟨by simp, h⟩
    · rintro _ m' ⟨hfits, rfl⟩
      exact (h.counted hfits).deallocate (Nat.zero_le _)
  · exact ends_pure h

end

/-- How `absl::flat_hash_map` grows: one slot in eight stays free, and beside a slot there is a byte of control. -/
def abslGrowth : Growth where
  full := fun capacity size => size == capacity - capacity / 8
  next := fun capacity => 2 * capacity + 1
  reserved := fun size => if size = 0 then 0 else 2 ^ (Nat.log2 (size + (size - 1) / 7) + 1) - 1
  storage := fun slotSize capacity => (8 + capacity + 16 + 7) / 8 * 8 + capacity * slotSize

end IcebergCxx.Proofs

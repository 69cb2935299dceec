import IcebergCxx.CountedDelete
import IcebergCxx.Lib.Effects
import IcebergCxx.Proofs.MemoryState

/-!
# What a general delete counts

The constructor of a key counts its buffer, no copy of a key is counted, and every destructor takes the buffer off
again. `Set` copies the key it is given, and a table that grows copies all of its keys, so every row that is added takes
off more than it counts. Questions are accounted for, unless their key is too long for the 16 bits of its size.
-/

namespace IcebergCxx.Proofs

open Lib GenericDeleteKey

/-- A call on a general delete. -/
inductive GenericCall
  | add (columns : List KeyColumn) (rowsCount : Nat) (deleteLayer : Int)
  | isDeleted (columns : List KeyColumn) (row : Nat) (dataLayer : Int)

/-- A general delete and the state on which it counts. -/
structure AccountedDelete where
  memory : MemoryState
  del : CountedGenericDelete := {}

namespace AccountedDelete

/-- A call, whichever way it ends. -/
def step (growth : Growth) (s : AccountedDelete) : GenericCall → AccountedDelete
  | .add columns rowsCount deleteLayer =>
    let outcome := s.del.add growth columns rowsCount deleteLayer s.memory
    ⟨outcome.memory, outcome.del⟩
  | .isDeleted columns row dataLayer =>
    match s.del.isDeleted columns row dataLayer s.memory with
    | .ok _ memory => ⟨memory, s.del⟩
    | .error _ memory => ⟨memory, s.del⟩

def run (growth : Growth) (s : AccountedDelete) (calls : List GenericCall) : AccountedDelete := calls.foldl (step growth) s

/-- The bytes of the keys alive, each counted as its constructor does. Every key of the table has a buffer of its own. -/
def liveBytes (s : AccountedDelete) : Nat := (s.del.values.slots.map (fun slot => 4 + slot.1.size)).sum

/-- The destructor of the delete: the keys and the storage of the table. -/
def destroy (growth : Growth) (s : AccountedDelete) : MemoryState :=
  (s.del.values.slots.foldl (fun m slot => m.deallocate (traits.released slot.1)) s.memory).deallocate
    (s.del.values.storage growth traits)

/-- The counter holds what it held at first, the keys alive and the storage of the table, and has never wrapped around;
destroying the delete brings it back to what it held at first. -/
def Exact (growth : Growth) (initial : Nat) (s : AccountedDelete) : Prop :=
  s.memory.allocatedSize.toNat = initial + s.liveBytes + s.del.values.storage growth traits ∧
    s.memory.counterWrapped = false ∧
    (s.destroy growth).allocatedSize.toNat = initial ∧ (s.destroy growth).counterWrapped = false

end AccountedDelete

/-- The size of the buffer of a row. -/
def bufferSize (total : Int) : Nat := ((8 + total) % 2 ^ 32).toNat

/-- The constructor throws before it has counted anything. -/
def NothingCounted (columns : List KeyColumn) (row : Nat) (m : MemoryState) : Prop :=
  (∃ e, totalWidth columns row = .error e) ∨ (m.allocateCommon 4).1 = false

/-- A call is accounted for: no row is added, and the key of a question is counted in full, fits 16 bits, and the counter
has room for it. -/
def CallAccounted (s : AccountedDelete) : GenericCall → Prop
  | .add columns rowsCount _ => rowsCount = 0 ∨ 64 < columns.length ∨ NothingCounted columns 0 s.memory
  | .isDeleted columns row _ => NothingCounted columns row s.memory ∨
    ∃ total written, totalWidth columns row = .ok total ∧ writtenData columns row = .ok written ∧
      bufferSize total < 2 ^ 16 ∧ (s.memory.allocateCommon 4).1 = true ∧
      ((s.memory.allocateCommon 4).2.allocateCommon (UInt64.ofNat (bufferSize total))).1 = true ∧
      s.memory.allocatedSize.toNat + 4 + bufferSize total < 2 ^ 64

/-- The counter is as before and has not wrapped around. -/
def SameCounter (m m' : MemoryState) : Prop :=
  m'.allocatedSize = m.allocatedSize ∧ m'.counterWrapped = m.counterWrapped

lemma sameCounter_subtracted (m : MemoryState) : SameCounter m m.subtracted := by
  unfold MemoryState.subtracted
  split <;> exact ⟨rfl, rfl⟩

lemma allocateCommon_false {m : MemoryState} {bytes : UInt64} (h : (m.allocateCommon bytes).1 = false) :
    SameCounter m (m.allocateCommon bytes).2 := by
  unfold MemoryState.allocateCommon at h ⊢
  dsimp only at h ⊢
  split_ifs at h ⊢
  exact sameCounter_subtracted m

lemma allocateCommon_true {m : MemoryState} {bytes : Nat} (h : (m.allocateCommon (UInt64.ofNat bytes)).1 = true)
    (hroom : m.allocatedSize.toNat + bytes < 2 ^ 64) :
    (m.allocateCommon (UInt64.ofNat bytes)).2.allocatedSize.toNat = m.allocatedSize.toNat + bytes ∧
      (m.allocateCommon (UInt64.ofNat bytes)).2.counterWrapped = m.counterWrapped := by
  obtain ⟨hsize, hwrapped⟩ := sameCounter_subtracted m
  have hbytes : (UInt64.ofNat bytes).toNat = bytes := by
    rw [UInt64.toNat_ofNat', Nat.mod_eq_of_lt]
    omega
  have hfits : ¬2 ^ 64 ≤ m.allocatedSize.toNat + bytes := by omega
  unfold MemoryState.allocateCommon at h ⊢
  dsimp only at h ⊢
  split_ifs at h ⊢
  refine ⟨?_, ?_⟩
  · rw [UInt64.toNat_add, hsize, hbytes, Nat.mod_eq_of_lt hroom]
  · simp only [hsize, hwrapped, hbytes, hfits, decide_false, Bool.or_false]

lemma construct_nothingCounted {columns : List KeyColumn} {row : Nat} {m : MemoryState} (h : NothingCounted columns row m) :
    ∃ e m', construct columns row m = .error e m' ∧ SameCounter m m' := by
  rcases h with ⟨e, he⟩ | hrefused
  · have hwidth : (MemoryM.ofExcept (totalWidth columns row) : MemoryM Int) m = .error e m := by
      rw [he]
      rfl
    exact ⟨e, m, bind_apply_error (bind_apply_error hwidth), rfl, rfl⟩
  · cases htotal : totalWidth columns row with
    | error e =>
      have hwidth : (MemoryM.ofExcept (totalWidth columns row) : MemoryM Int) m = .error e m := by
        rw [htotal]
        rfl
      exact ⟨e, m, bind_apply_error (bind_apply_error hwidth), rfl, rfl⟩
    | ok total =>
      have hwidth : (MemoryM.ofExcept (totalWidth columns row) : MemoryM Int) m = .ok total m := by
        rw [htotal]
        rfl
      have halloc : allocate 4 m = .error .badAlloc (m.allocateCommon 4).2 := by
        unfold allocate
        have hpair : m.allocateCommon (UInt64.ofNat 4) = (false, (m.allocateCommon 4).2) := Prod.ext hrefused rfl
        rw [hpair]
      refine ⟨.badAlloc, _, bind_apply_error ?_, allocateCommon_false hrefused⟩
      exact (bind_apply_ok hwidth).trans (bind_apply_error halloc)

lemma construct_counted {columns : List KeyColumn} {row : Nat} {m : MemoryState} {total : Int} {written : Bytes}
    (htotal : totalWidth columns row = .ok total) (hwritten : writtenData columns row = .ok written)
    (hfirst : (m.allocateCommon 4).1 = true)
    (hsecond : ((m.allocateCommon 4).2.allocateCommon (UInt64.ofNat (bufferSize total))).1 = true) :
    construct columns row m = .ok ⟨bufferSize total, written⟩
      ((m.allocateCommon 4).2.allocateCommon (UInt64.ofNat (bufferSize total))).2 := by
  have halloc : ∀ {m : MemoryState} {bytes : Nat}, (m.allocateCommon (UInt64.ofNat bytes)).1 = true →
      allocate bytes m = .ok () (m.allocateCommon (UInt64.ofNat bytes)).2 := by
    intro m bytes h
    have hpair : m.allocateCommon (UInt64.ofNat bytes) = (true, (m.allocateCommon (UInt64.ofNat bytes)).2) := Prod.ext h rfl
    unfold allocate
    rw [hpair]
  have hbuffer : allocateBuffer columns row m = .ok (bufferSize total)
      ((m.allocateCommon 4).2.allocateCommon (UInt64.ofNat (bufferSize total))).2 := by
    unfold allocateBuffer
    rw [htotal]
    exact (bind_apply_ok (halloc hfirst)).trans (bind_apply_ok (halloc hsecond))
  unfold construct
  rw [bind_apply_ok hbuffer, hwritten]
  rfl

/-- A question whose key is accounted for leaves the counter as it was. -/
lemma isDeleted_sameCounter {s : AccountedDelete} {columns : List KeyColumn} {row : Nat} {dataLayer : Int}
    (h : CallAccounted s (.isDeleted columns row dataLayer)) (growth : Growth) :
    (s.step growth (.isDeleted columns row dataLayer)).del = s.del ∧
      SameCounter s.memory (s.step growth (.isDeleted columns row dataLayer)).memory := by
  rcases h with hnothing | ⟨total, written, htotal, hwritten, hshort, hfirst, hsecond, hroom⟩
  · obtain ⟨e, m', hconstruct, hsame⟩ := construct_nothingCounted hnothing
    have hrun : s.del.isDeleted columns row dataLayer s.memory = .error e m' := bind_apply_error hconstruct
    rw [AccountedDelete.step, hrun]
    exact ⟨rfl, hsame⟩
  · have hconstruct := construct_counted htotal hwritten hfirst hsecond
    obtain ⟨hcount, hwrapped⟩ : (s.memory.allocateCommon 4).2.allocatedSize.toNat = s.memory.allocatedSize.toNat + 4 ∧
        (s.memory.allocateCommon 4).2.counterWrapped = s.memory.counterWrapped :=
      @allocateCommon_true s.memory 4 hfirst (by omega)
    obtain ⟨hcount', hwrapped'⟩ := allocateCommon_true hsecond (by omega)
    have hrun : s.del.isDeleted columns row dataLayer s.memory = .ok
        (layerDeletes (s.del.values.get traits ⟨bufferSize total, written⟩) dataLayer)
        (((s.memory.allocateCommon 4).2.allocateCommon (UInt64.ofNat (bufferSize total))).2.deallocate
          (traits.released ⟨bufferSize total, written⟩)) := bind_apply_ok hconstruct
    have hreleased : traits.released ⟨bufferSize total, written⟩ = 4 + bufferSize total := by
      change 4 + bufferSize total % 2 ^ 16 = _
      rw [Nat.mod_eq_of_lt hshort]
    obtain ⟨hsub, hwrapped''⟩ := deallocate_exact (m := ((s.memory.allocateCommon 4).2.allocateCommon
      (UInt64.ofNat (bufferSize total))).2) (show 4 + bufferSize total ≤ _ by omega)
    rw [AccountedDelete.step, hrun, hreleased]
    refine ⟨rfl, ?_, hwrapped''.trans (hwrapped'.trans hwrapped)⟩
    rw [← UInt64.toNat_inj, hsub]
    omega

lemma add_sameCounter {s : AccountedDelete} {columns : List KeyColumn} {rowsCount : Nat} {deleteLayer : Int}
    (h : CallAccounted s (.add columns rowsCount deleteLayer)) (growth : Growth) :
    (s.step growth (.add columns rowsCount deleteLayer)).del = s.del ∧
      SameCounter s.memory (s.step growth (.add columns rowsCount deleteLayer)).memory := by
  rw [AccountedDelete.step, CountedGenericDelete.add]
  split_ifs with hcount
  · exact ⟨rfl, rfl, rfl⟩
  · cases rowsCount with
    | zero => exact ⟨rfl, rfl, rfl⟩
    | succ n =>
      have hnothing : NothingCounted columns 0 s.memory := by
        rcases h with hzero | hmany | hnothing
        · exact absurd hzero (by simp)
        · exact absurd hmany hcount
        · exact hnothing
      obtain ⟨e, m', hconstruct, hsame⟩ := construct_nothingCounted hnothing
      have hrow : CountedGenericDelete.addRow growth columns deleteLayer s.del 0 s.memory = .error e m' :=
        bind_apply_error hconstruct
      rw [List.range_succ_eq_map, addRows, hrow]
      exact ⟨rfl, hsame⟩

lemma step_sameCounter {s : AccountedDelete} {call : GenericCall} (h : CallAccounted s call) (growth : Growth) :
    (s.step growth call).del = s.del ∧ SameCounter s.memory (s.step growth call).memory := by
  cases call with
  | add columns rowsCount deleteLayer => exact add_sameCounter h growth
  | isDeleted columns row dataLayer => exact isDeleted_sameCounter h growth

/-- An empty delete accounts for its memory exactly when nothing is counted. -/
lemma exact_of_empty {growth : Growth} {s : AccountedDelete} {m : MemoryState} (hdel : s.del = {})
    (hcounter : SameCounter m s.memory) (hwrapped : m.counterWrapped = false) :
    s.Exact growth m.allocatedSize.toNat := by
  obtain ⟨memory, del⟩ := s
  obtain rfl := hdel
  obtain ⟨hsize, hflag⟩ := hcounter
  have hsame : (memory.deallocate 0).allocatedSize.toNat = memory.allocatedSize.toNat - 0 ∧
      (memory.deallocate 0).counterWrapped = memory.counterWrapped := deallocate_exact (Nat.zero_le _)
  refine ⟨by rw [hsize]; rfl, hflag.trans hwrapped, ?_, hsame.2.trans (hflag.trans hwrapped)⟩
  exact hsame.1.trans (congrArg UInt64.toNat hsize)

/-- In every run of calls that are accounted for, a general delete accounts for its memory in every state, and after
every call. -/
theorem run_exact (growth : Growth) {m : MemoryState} (hwrapped : m.counterWrapped = false) {calls : List GenericCall}
    (haccounted : ∀ before call after, calls = before ++ call :: after →
      CallAccounted (AccountedDelete.run growth ⟨m, {}⟩ before) call) :
    ∀ before after, calls = before ++ after →
      (AccountedDelete.run growth ⟨m, {}⟩ before).Exact growth m.allocatedSize.toNat := by
  have hreached : ∀ before after, calls = before ++ after →
      (AccountedDelete.run growth ⟨m, {}⟩ before).del = {} ∧
        SameCounter m (AccountedDelete.run growth ⟨m, {}⟩ before).memory := by
    intro before
    induction before using List.reverseRecOn with
    | nil => exact fun _ _ => ⟨rfl, rfl, rfl⟩
    | append_singleton before call ih =>
      intro after hcalls
      rw [List.append_assoc, List.singleton_append] at hcalls
      obtain ⟨hdel, hsize, hflag⟩ := ih _ hcalls
      obtain ⟨hdel', hsize', hflag'⟩ := step_sameCounter (haccounted before call after hcalls) growth
      rw [AccountedDelete.run, List.foldl_append]
      exact ⟨hdel'.trans hdel, hsize'.trans hsize, hflag'.trans hflag⟩
  intro before after hcalls
  obtain ⟨hdel, hsame⟩ := hreached before after hcalls
  exact exact_of_empty hdel hsame hwrapped

/-- The text "ab". -/
def textColumn : KeyColumn :=
  ⟨.key .string, [⟨false, [97, 98]⟩], fun _ _ _ h => absurd h (by simp [ColumnType.viewWidth, ColumnType.byteWidth, KeyType.byteWidth])⟩

theorem textColumn_asked_exact :
    (AccountedDelete.run abslGrowth ⟨⟨some 1000, true, true, false, 0, false, false⟩, {}⟩
      [.isDeleted [textColumn] 0 1]).Exact abslGrowth 0 := by
  refine run_exact abslGrowth (m := ⟨some 1000, true, true, false, 0, false, false⟩) rfl
    (fun before call after hcalls => ?_) [.isDeleted [textColumn] 0 1] [] (List.append_nil _).symm
  cases before with
  | cons first before => exact absurd (congrArg List.length hcalls) (by simp)
  | nil =>
    obtain ⟨rfl, -⟩ := List.cons.inj hcalls
    exact .inr ⟨6, leBytes 8 0 ++ (leBytes 4 2 ++ [97, 98]), by decide +kernel, rfl, by decide, by decide, by decide, by decide⟩

/-- A text of 100 letters. -/
def hundredLetters : KeyColumn :=
  ⟨.key .string, [⟨false, List.replicate 100 97⟩],
    fun _ _ _ h => absurd h (by simp [ColumnType.viewWidth, ColumnType.byteWidth, KeyType.byteWidth])⟩

/-- The first row added takes the counter below zero: 116 bytes and the storage of one slot are counted, and twice 116
bytes are taken off. -/
theorem firstRow_wraps :
    (AccountedDelete.run abslGrowth ⟨⟨none, true, true, false, 0, false, false⟩, {}⟩
      [.add [hundredLetters] 1 1]).memory.counterWrapped = true ∧
    ¬(AccountedDelete.run abslGrowth ⟨⟨none, true, true, false, 0, false, false⟩, {}⟩
      [.add [hundredLetters] 1 1]).Exact abslGrowth 0 := by
  have hwrapped : (AccountedDelete.run abslGrowth ⟨⟨none, true, true, false, 0, false, false⟩, {}⟩
      [.add [hundredLetters] 1 1]).memory.counterWrapped = true := by decide +kernel
  exact ⟨hwrapped, fun hexact => absurd (hwrapped.symm.trans hexact.2.1) (by decide)⟩

end IcebergCxx.Proofs

import IcebergCxx.CountedDelete
import IcebergCxx.Proofs.EqualityDeleteLaw
import IcebergCxx.Proofs.MemoryState

/-!
# The memory limit over whole runs

Between calls exceptions are allowed, the limit is not exceeded and nothing has wrapped around, as long as every row of a
call meets a condition on the state before it. The delete of one column leaves exceptions forbidden after any row that is
not null. The others terminate the program when a table grows past the limit, since the size that is checked beforehand
is not that of the new table.
-/

namespace IcebergCxx.Proofs

open Lib

variable {growth : Growth} {limit : UInt64} {m : MemoryState}

/-! ### One row -/

/-- The key of a row can be put into a general delete, unless it cannot be made. -/
def GenericRowFits (growth : Growth) (limit : UInt64) (columns : List KeyColumn) (del : CountedGenericDelete) (row : Nat)
    (m : MemoryState) : Prop :=
  ∀ key m', GenericDeleteKey.construct columns row m = .ok key m' →
    SetFits growth GenericDeleteKey.traits limit m'.allocatedSize.toNat del.values key (GenericDeleteKey.traits.released key)

/-- A key can be put into a table of a packed delete, unless the limit refuses one of the two sizes counted before. -/
def PackedKeyFits (growth : Growth) (limit : UInt64) (bits : Nat) (values : FlatHashMap Nat) (key : Nat)
    (m : MemoryState) : Prop :=
  m.allocatedSize.toNat + 2 * (bits / 8 % 2 ^ 64) ≤ limit.toNat →
    SetFits growth (CountedMultipleColumnDelete.traits bits) limit (m.allocatedSize.toNat + 2 * (bits / 8 % 2 ^ 64)) values
      key 0

/-- A row can be added to a packed delete when no array has a null. -/
def PackedRowFits (growth : Growth) (limit : UInt64) (arrays : List KeyArray) (del : CountedMultipleColumnDelete)
    (row : Nat) (m : MemoryState) : Prop :=
  PackedKeyFits growth limit del.bits del.values (del.packing.constructRow arrays row) m

/-- A row can be added to a packed delete when some array has a null. -/
def PackedRowWithNullsFits (growth : Growth) (limit : UInt64) (arrays : List KeyArray) (del : CountedMultipleColumnDelete)
    (row : Nat) (m : MemoryState) : Prop :=
  PackedKeyFits growth limit del.bits
    (if del.packing.nullsMask arrays row = 0 then del.values
      else (del.valuesWithNulls.find? (del.packing.nullsMask arrays row)).getD {})
    (del.packing.constructRowIgnoreNulls arrays row) m

/-- What a call, or a row of it, keeps: exceptions are allowed, the limit is not exceeded, and nothing is thrown out of
a destructor. -/
abbrev KeepsLimit {α : Type} (limit : UInt64) (x : MemoryM α) (m : MemoryState) : Prop :=
  Ends x m (fun _ m' => Enforced limit m') (fun e m' => e ≠ .terminated ∧ Enforced limit m')

lemma keepsLimit_ofExcept {α : Type} (h : Enforced limit m) {x : Except Exit α} (hx : x ≠ .error .terminated) :
    KeepsLimit limit (MemoryM.ofExcept x) m := by
  cases x with
  | ok a => exact ends_pure h
  | error e => exact ⟨fun he => hx (he ▸ rfl), h⟩

lemma keepsLimit_allocate (h : Enforced limit m) (bytes : Nat) : KeepsLimit limit (allocate bytes) m := by
  refine Ends.mono (allocate_ends h bytes) ?_ ?_
  · rintro _ m' ⟨hfits, rfl⟩
    exact h.counted hfits
  · rintro e m' ⟨rfl, rfl⟩
    exact ⟨by simp, h⟩

lemma foldlM_ne_terminated {σ α : Type} {f : σ → α → Except Exit σ} (hf : ∀ s a, f s a ≠ .error .terminated) (l : List α)
    (s : σ) : l.foldlM f s ≠ .error .terminated := by
  induction l generalizing s with
  | nil => exact fun h => by cases h
  | cons a l ih =>
    rw [List.foldlM_cons]
    cases h : f s a with
    | ok s' => exact ih s'
    | error e =>
      intro he
      rw [error_bind] at he
      exact hf s a (h.trans he)

lemma totalWidth_ne_terminated (columns : List KeyColumn) (row : Nat) :
    GenericDeleteKey.totalWidth columns row ≠ .error .terminated := by
  refine foldlM_ne_terminated (fun total column hterminated => ?_) columns 0
  split_ifs at hterminated with hnull
  · cases hterminated
  · cases hwidth : column.getWidth row with
    | ok width =>
      rw [hwidth] at hterminated
      cases hterminated
    | error e =>
      rw [hwidth] at hterminated
      obtain rfl : e = .terminated := Except.error.inj hterminated
      unfold KeyColumn.getWidth at hwidth
      split at hwidth
      · cases hwidth
      · split at hwidth <;> cases hwidth

lemma writtenData_ne_terminated (columns : List KeyColumn) (row : Nat) :
    GenericDeleteKey.writtenData columns row ≠ .error .terminated := by
  refine foldlM_ne_terminated (fun data column hterminated => ?_) columns _
  split_ifs at hterminated with hnull
  · cases hterminated
  · cases hvalue : column.writeToData row with
    | ok value =>
      rw [hvalue] at hterminated
      cases hterminated
    | error e =>
      rw [hvalue] at hterminated
      obtain rfl : e = .terminated := Except.error.inj hterminated
      unfold KeyColumn.writeToData at hvalue
      split at hvalue <;> cases hvalue

lemma keepsLimit_construct (h : Enforced limit m) (columns : List KeyColumn) (row : Nat) :
    KeepsLimit limit (GenericDeleteKey.construct columns row) m := by
  refine Ends.bind (Q := fun _ m' => Enforced limit m') ?_
    (fun _ m' hm' => Ends.bind (keepsLimit_ofExcept hm' (writtenData_ne_terminated columns row))
      (fun _ _ hm' => ends_pure hm'))
  refine Ends.bind (keepsLimit_ofExcept h (totalWidth_ne_terminated columns row)) (fun _ m' hm' => ?_)
  exact Ends.bind (keepsLimit_allocate hm' 4) (fun _ _ hm' => Ends.bind (keepsLimit_allocate hm' _)
    (fun _ _ hm' => ends_pure hm'))

lemma generic_addRow_keepsLimit (h : Enforced limit m) {columns : List KeyColumn} {del : CountedGenericDelete} {row : Nat}
    (layer : Int) (hfits : GenericRowFits growth limit columns del row m) :
    KeepsLimit limit (del.addRow growth columns layer row) m := by
  have hconstruct := keepsLimit_construct h columns row
  cases hkey : GenericDeleteKey.construct columns row m with
  | error e m' => exact Ends.of_error (bind_apply_error hkey) (hconstruct.error hkey)
  | ok key m' =>
    rw [KeepsLimit, Ends, CountedGenericDelete.addRow, bind_apply_ok hkey]
    refine destroying_ends (Q := fun _ m₁ => Enforced limit m₁ ∧ GenericDeleteKey.traits.released key ≤ m₁.allocatedSize.toNat)
      (E := fun e m₁ => e ≠ .terminated ∧ Enforced limit m₁ ∧ GenericDeleteKey.traits.released key ≤ m₁.allocatedSize.toNat)
      (Ends.bind (updateMax_ends (hconstruct.ok hkey) layer (hfits key m' hkey)) (fun _ _ hQ => ends_pure hQ)) ?_ ?_
    · exact fun _ m₁ hQ => hQ.1.deallocate hQ.2
    · exact fun e m₁ hE => ⟨hE.1, hE.1, hE.2.1.deallocate hE.2.2⟩

/-- The two allocations of a packed row, and then its key. -/
lemma packed_keepsLimit (h : Enforced limit m) {bits : Nat} {values : FlatHashMap Nat} {key : Nat} (layer : Int)
    (hfits : PackedKeyFits growth limit bits values key m) {α : Type} (result : FlatHashMap Nat → α) :
    KeepsLimit limit (do
      allocateWithStatus (bits / 8) .status
      allocateWithStatus (bits / 8) .thrown
      let values ← values.updateMax growth (CountedMultipleColumnDelete.traits bits) key layer
      return result values) m := by
  have hstatus : ∀ {m : MemoryState}, Enforced limit m → ∀ (failed : String → Exit), (∀ message, failed message ≠ .terminated) →
      Ends (allocateWithStatus (bits / 8) failed) m
        (fun _ m' => m.allocatedSize.toNat + bits / 8 % 2 ^ 64 ≤ limit.toNat ∧ m' = counted m (bits / 8))
        (fun e m' => e ≠ .terminated ∧ Enforced limit m') := by
    intro m h failed hfailed
    rcases Nat.lt_or_ge limit.toNat (m.allocatedSize.toNat + bits / 8 % 2 ^ 64) with hfull | hfits
    · have hrun : allocateWithStatus (bits / 8) failed m =
          .error (failed ("Error to allocate " ++ toString (bits / 8) ++ " bytes")) m := by
        rw [allocateWithStatus, h.allocateCommon_refused h.allowThrow hfull]
      exact Ends.of_error hrun ⟨hfailed _, h⟩
    · have hrun : allocateWithStatus (bits / 8) failed m = .ok () (counted m (bits / 8)) := by
        rw [allocateWithStatus, h.allocateCommon_fits hfits]
      exact Ends.of_ok hrun ⟨hfits, rfl⟩
  refine Ends.bind (hstatus h .status (by simp)) ?_
  rintro _ _ ⟨hfirst, rfl⟩
  refine Ends.bind (hstatus (h.counted hfirst) .thrown (by simp)) ?_
  rintro _ _ ⟨hsecond, rfl⟩
  have hcount := toNat_counted hsecond
  rw [toNat_counted hfirst] at hsecond hcount
  have hset := hfits (by omega)
  rw [two_mul, ← add_assoc, ← hcount] at hset
  refine Ends.bind (Ends.mono (updateMax_ends ((h.counted hfirst).counted (by rwa [toNat_counted hfirst])) layer hset)
    (fun _ _ hQ => hQ.1) (fun _ _ hE => ⟨hE.1, hE.2.1⟩)) (fun _ _ hQ => ends_pure hQ)

lemma packed_addRow_keepsLimit (h : Enforced limit m) {arrays : List KeyArray} {del : CountedMultipleColumnDelete} {row : Nat}
    (layer : Int) (hfits : PackedRowFits growth limit arrays del row m) :
    KeepsLimit limit (del.addRow growth arrays layer row) m :=
  packed_keepsLimit h layer hfits (fun values => ({ del with values } : CountedMultipleColumnDelete))

lemma packed_addRowWithNulls_keepsLimit (h : Enforced limit m) {arrays : List KeyArray} {del : CountedMultipleColumnDelete}
    {row : Nat} (layer : Int) (hfits : PackedRowWithNullsFits growth limit arrays del row m) :
    KeepsLimit limit (del.addRowWithNulls growth arrays layer row) m := by
  unfold PackedRowWithNullsFits at hfits
  unfold CountedMultipleColumnDelete.addRowWithNulls
  by_cases hmask : del.packing.nullsMask arrays row = 0
  · rw [if_pos hmask] at hfits
    simp only [if_pos hmask]
    exact packed_keepsLimit h layer hfits (fun values => ({ del with values } : CountedMultipleColumnDelete))
  · rw [if_neg hmask] at hfits
    simp only [if_neg hmask]
    exact packed_keepsLimit h layer hfits (fun values => ({ del with
      valuesWithNulls := del.valuesWithNulls.insert (del.packing.nullsMask arrays row) values } : CountedMultipleColumnDelete))

/-! ### Calls -/

/-- Every row of a call meets a condition on the state before it. -/
def RowsFit {D : Type} (addRow : D → Nat → MemoryM D) (fits : D → Nat → MemoryState → Prop) :
    D → List Nat → MemoryState → Prop
  | _, [], _ => True
  | del, row :: rows, m =>
    fits del row m ∧ ∀ del' m', addRow del row m = .ok del' m' → RowsFit addRow fits del' rows m'

/-- A call of `Add` fits: to a delete of one column it adds only null rows, and every row that it adds to another delete
fits. -/
def AddFits (growth : Growth) (limit : UInt64) (columns : List KeyColumn) (rowsCount : Nat) (layer : Int) (m : MemoryState) :
    CountedDelete → Prop
  | .generic del => columns.length ≤ 64 →
    RowsFit (CountedGenericDelete.addRow growth columns layer) (GenericRowFits growth limit columns) del
      (List.range rowsCount) m
  | .oneColumn del => ∀ column, columns = [column] → column.type = .key del.type →
    ∀ row < rowsCount, column.toKeyArray.isNull row = true
  | .multipleColumn del => columns.map KeyColumn.type = del.types.map .key →
    let arrays := columns.map KeyColumn.toKeyArray
    if arrays.all (fun array => array.nullCount == 0) then
      RowsFit (CountedMultipleColumnDelete.addRow growth arrays layer) (PackedRowFits growth limit arrays) del
        (List.range rowsCount) m
    else columns.length < 9 →
      RowsFit (CountedMultipleColumnDelete.addRowWithNulls growth arrays layer) (PackedRowWithNullsFits growth limit arrays) del
        (List.range rowsCount) m

/-- A call fits the state before it. -/
def CallFits (growth : Growth) (limit : UInt64) (s : CountedDeletes) : DeleteCall → Prop
  | .make _ _ _ => True
  | .add index columns rowsCount layer =>
    ∀ del, s.deletes[index]? = some del → AddFits growth limit columns rowsCount layer s.memory del

/-- How a call ends that keeps the limit. -/
def OutcomeKeepsLimit {D : Type} (limit : UInt64) (outcome : Counted D) : Prop :=
  outcome.exit ≠ some .terminated ∧ Enforced limit outcome.memory

lemma addRows_keepsLimit {D : Type} {addRow : D → Nat → MemoryM D} {fits : D → Nat → MemoryState → Prop}
    (hrow : ∀ del row m, Enforced limit m → fits del row m → KeepsLimit limit (addRow del row) m) {del : D}
    {rows : List Nat} (h : Enforced limit m) (hfits : RowsFit addRow fits del rows m) :
    OutcomeKeepsLimit limit (addRows addRow del rows m) := by
  induction rows generalizing del m with
  | nil => exact ⟨by simp [addRows], h⟩
  | cons row rows ih =>
    obtain ⟨hfirst, hrest⟩ := hfits
    have hstep := hrow del row m h hfirst
    rw [addRows]
    cases hadd : addRow del row m with
    | ok del' m' => exact ih (hstep.ok hadd) (hrest del' m' hadd)
    | error e m' =>
      obtain ⟨hne, hm'⟩ := hstep.error hadd
      exact ⟨fun he => hne (Option.some.inj he), hm'⟩

lemma oneColumn_addRows_null (growth : Growth) {array : KeyArray} (layer : Int) {rows : List Nat}
    (hnull : ∀ row ∈ rows, array.isNull row = true) (del : CountedOneColumnDelete) (m : MemoryState) :
    (addRows (CountedOneColumnDelete.addRow growth array layer) del rows m).exit = none ∧
      (addRows (CountedOneColumnDelete.addRow growth array layer) del rows m).memory = m := by
  induction rows generalizing del with
  | nil => exact ⟨rfl, rfl⟩
  | cons row rows ih =>
    have hrow : CountedOneColumnDelete.addRow growth array layer del row m = .ok { del with containsNull := true } m := by
      rw [CountedOneColumnDelete.addRow, if_pos (hnull row List.mem_cons_self)]
      rfl
    rw [addRows, hrow]
    exact ih (fun r hr => hnull r (List.mem_cons_of_mem _ hr)) { del with containsNull := true }

lemma add_keepsLimit (h : Enforced limit m) {del : CountedDelete} {columns : List KeyColumn} {rowsCount : Nat} {layer : Int}
    (hfits : AddFits growth limit columns rowsCount layer m del) :
    OutcomeKeepsLimit limit (del.add growth columns rowsCount layer m) := by
  cases del with
  | generic del =>
    change OutcomeKeepsLimit limit (del.add growth columns rowsCount layer m)
    unfold CountedGenericDelete.add
    split_ifs with hcount
    · exact ⟨by simp, h⟩
    · exact addRows_keepsLimit (fun del row m hm hrow => generic_addRow_keepsLimit hm layer hrow) h (hfits (by omega))
  | oneColumn del =>
    change OutcomeKeepsLimit limit (del.add growth columns rowsCount layer m)
    unfold CountedOneColumnDelete.add
    split
    · rename_i column
      split_ifs with htype
      · exact ⟨by simp, h⟩
      · obtain ⟨hexit, hmemory⟩ := oneColumn_addRows_null growth layer
          (fun row hrow => hfits column rfl (not_not.mp htype) row (List.mem_range.mp hrow)) del m
        refine ⟨by rw [hexit]; simp, ?_⟩
        rwa [hmemory]
    · exact ⟨by simp, h⟩
  | multipleColumn del =>
    change OutcomeKeepsLimit limit (del.add growth columns rowsCount layer m)
    unfold CountedMultipleColumnDelete.add
    by_cases hcount : columns.length ≠ del.types.length
    · rw [if_pos hcount]
      exact ⟨by simp, h⟩
    rw [if_neg hcount]
    by_cases htypes : columns.map KeyColumn.type ≠ del.types.map .key
    · rw [if_pos htypes]
      exact ⟨by simp, h⟩
    rw [if_neg htypes]
    have hrows := hfits (not_not.mp htypes)
    dsimp only at hrows ⊢
    split_ifs at hrows ⊢ with hnulls hmany
    · exact addRows_keepsLimit (fun _ _ _ hm hrow => packed_addRow_keepsLimit hm layer hrow) h hrows
    · exact ⟨by simp, h⟩
    · exact addRows_keepsLimit (fun _ _ _ hm hrow => packed_addRowWithNulls_keepsLimit hm layer hrow) h
        (hrows (by omega))

/-! ### Runs -/

section
variable {sortBy : ∀ width : Nat → Nat, DescendingSort width}

lemma makeCountedDelete_keepsLimit (growth : Growth) (sortBy : ∀ width : Nat → Nat, DescendingSort width)
    (h : Enforced limit m) (types : List ColumnType) (useSpecializedDeletes : Bool) (numRows : Nat) :
    KeepsLimit limit (makeCountedDelete growth sortBy types useSpecializedDeletes numRows) m := by
  unfold makeCountedDelete
  split
  · exact ends_pure h
  · split
    · exact ⟨by simp, h⟩
    · exact ends_pure h
    · exact Ends.bind (reserve_ends h numRows) (fun _ _ hQ => ends_pure hQ)
    · exact Ends.bind (reserve_ends h numRows) (fun _ _ hQ => ends_pure hQ)

lemma step_keepsLimit {s : CountedDeletes} {call : DeleteCall} (h : Enforced limit s.memory)
    (hfits : CallFits growth limit s call) :
    (s.step growth sortBy call).1 ≠ some .terminated ∧ Enforced limit (s.step growth sortBy call).2.memory := by
  cases call with
  | make types useSpecializedDeletes numRows =>
    have hmake := makeCountedDelete_keepsLimit growth sortBy h types useSpecializedDeletes numRows
    rw [CountedDeletes.step]
    cases hrun : makeCountedDelete growth sortBy types useSpecializedDeletes numRows s.memory with
    | ok del memory => exact ⟨by simp, hmake.ok hrun⟩
    | error e memory =>
      obtain ⟨hne, hmemory⟩ := hmake.error hrun
      exact ⟨fun he => hne (Option.some.inj he), hmemory⟩
  | add index columns rowsCount layer =>
    rw [CountedDeletes.step]
    cases hdel : s.deletes[index]? with
    | none => exact ⟨by simp, h⟩
    | some del => exact add_keepsLimit h (hfits del hdel)

/-- In every run whose calls fit the states before them, exceptions are allowed between calls, no destructor throws,
and neither the counter nor what remains of the limit wraps around or exceeds it. -/
theorem run_enforces_limit {s : CountedDeletes} {calls : List DeleteCall} (h : Enforced limit s.memory)
    (hfits : ∀ before call after, calls = before ++ call :: after → CallFits growth limit (s.run growth sortBy before) call) :
    ∀ before call after, calls = before ++ call :: after →
      Enforced limit (s.run growth sortBy before).memory ∧
        ((s.run growth sortBy before).step growth sortBy call).1 ≠ some .terminated ∧
        Enforced limit ((s.run growth sortBy before).step growth sortBy call).2.memory := by
  have hreached : ∀ before after, calls = before ++ after → Enforced limit (s.run growth sortBy before).memory := by
    intro before
    induction before using List.reverseRecOn with
    | nil => exact fun _ _ => h
    | append_singleton before call ih =>
      intro after hcalls
      rw [List.append_assoc, List.singleton_append] at hcalls
      rw [CountedDeletes.run, List.foldl_append]
      exact (step_keepsLimit (ih _ hcalls) (hfits before call after hcalls)).2
  intro before call after hcalls
  have hbefore := hreached before _ hcalls
  exact ⟨hbefore, step_keepsLimit hbefore (hfits before call after hcalls)⟩

end

/-- A delete of two columns, of 32 bits each, with a limit of 1000 bytes. -/
def pairWithin1000 : CountedDeletes where
  memory := ⟨some 1000, true, true, false, 0, false, false⟩
  deletes := [.multipleColumn ⟨[.int32, .int32], [0, 1], [32, 32], 64, {}, ∅⟩]

lemma sevenSlot_fits : ∀ slot ∈ [(⟨false, [7, 0, 0, 0]⟩ : KeySlot)], ∀ width,
    (ColumnType.key .int32).viewWidth = some width → slot.view.length = width := by
  decide

/-- The number 7. -/
def sevenColumn : KeyColumn := ⟨.key .int32, [⟨false, [7, 0, 0, 0]⟩], sevenSlot_fits⟩

theorem pairWithin1000_enforced :
    Enforced 1000 pairWithin1000.memory ∧
      (pairWithin1000.step abslGrowth insertionSortBy (.add 0 [sevenColumn, sevenColumn] 1 5)).1 ≠ some .terminated ∧
      Enforced 1000 (pairWithin1000.step abslGrowth insertionSortBy (.add 0 [sevenColumn, sevenColumn] 1 5)).2.memory := by
  refine run_enforces_limit ⟨⟨rfl, rfl, rfl, by decide, rfl, rfl⟩, rfl⟩ (fun before call after hcalls => ?_) []
    (.add 0 [sevenColumn, sevenColumn] 1 5) [] rfl
  cases before with
  | cons first before => exact absurd (congrArg List.length hcalls) (by simp)
  | nil =>
    obtain ⟨rfl, -⟩ := List.cons.inj hcalls
    intro del hdel
    obtain rfl := Option.some.inj hdel
    intro _
    refine ⟨fun _ => ?_, fun _ _ _ => trivial⟩
    unfold SetFits
    decide

/-- A limit that no memory exceeds is not enforced after the first row of a delete of one column, and the first row of a
delete of two columns terminates the program when the limit is 20 bytes. -/
theorem exceptions_forbidden :
    ((CountedDeletes.run abslGrowth insertionSortBy ⟨⟨some 1000000, true, true, false, 0, false, false⟩, []⟩
      [.make [.key .int32] true 0, .add 0 [sevenColumn] 1 5]).memory.allowThrow = false) ∧
    ((CountedDeletes.run abslGrowth insertionSortBy ⟨⟨some 20, true, true, false, 0, false, false⟩, []⟩
      [.make [.key .int32, .key .int32] true 0]).step abslGrowth insertionSortBy
        (.add 0 [sevenColumn, sevenColumn] 1 5)).1 = some .terminated :=
  ⟨by rfl, by rfl⟩

end IcebergCxx.Proofs

import IcebergCxx.DeletionVectorApplier
import IcebergCxx.Proofs.DeletionVectorRanges
import IcebergCxx.Proofs.FilteringStream
import IcebergCxx.Proofs.PositionalDeleteApplier

/-!
# Deletion vectors are applied exactly

The batches of a filtering stream have a selected row, so the last position of a batch is not below
its first one. As long as a batch has at most `2 ^ 31` rows its positions relative to the first one
are 32-bit integers.
-/

namespace IcebergCxx.Proofs

open Lib DeletionVectorApplier

variable {roaring : RoaringLibrary} {dv : DeletionVector roaring}

/-! ### One batch -/

/-- A batch of at most `2 ^ 31` rows within the 63-bit positions. -/
structure BatchFits (batch : FilteredBatch) : Prop where
  rows : batch.numRows ≤ 2 ^ 31
  position : 0 ≤ batch.rowPosition
  last : batch.rowPosition + batch.numRows ≤ 2 ^ 63

/-- The selected rows are ascending, there are some, and they are rows of the batch. -/
structure SelectsRows (batch : FilteredBatch) : Prop where
  increasing : batch.selectionVector.Pairwise (· < ·)
  nonempty : batch.selectionVector ≠ []
  inRange : ∀ row ∈ batch.selectionVector, row < batch.numRows

/-- The batch without the rows whose positions are in the vector. -/
def withoutPositions (dv : DeletionVector roaring) (batch : FilteredBatch) : FilteredBatch :=
  { batch with
    selectionVector := batch.selectionVector.filter (fun row =>
      batch.rowPosition.toNat + row ∉ vectorPositions dv) }

lemma toNat_ofInt {x : Int} (h : 0 ≤ x) (h' : x < 2 ^ 64) : (UInt64.ofInt x).toNat = x.toNat := by
  rw [UInt64.ofInt, UInt64.toNat_ofNat', Int.emod_eq_of_lt h h']
  omega

lemma toNat_ofNat_sub {pos : Nat} {start : UInt64} (hle : start.toNat ≤ pos) (hpos : pos < 2 ^ 64) :
    (UInt64.ofNat pos - start).toNat = pos - start.toNat := by
  rw [UInt64.toNat_sub, UInt64.toNat_ofNat']
  omega

lemma castToInt32_of_lt {x : UInt64} (h : x.toNat < 2 ^ 31) : castToInt32 x = x.toNat := by
  apply Int.bmod_eq_of_le
  · norm_num
  · norm_num
    omega

lemma castToInt32_sub {pos : Nat} {start : UInt64} (hle : start.toNat ≤ pos) (hpos : pos < 2 ^ 64)
    (hsmall : pos - start.toNat < 2 ^ 31) : castToInt32 (UInt64.ofNat pos - start) = (pos : Int) - start.toNat := by
  have hdiff := toNat_ofNat_sub hle hpos
  rw [castToInt32_of_lt (hdiff ▸ hsmall), hdiff]
  omega

/-- The positions of the vector in a batch, counted from its first row. -/
lemma getRelativeElems_ok {start last : UInt64} (h : start ≤ last) (hrange : last.toNat - start.toNat < 2 ^ 31) :
    ∃ relative, getRelativeElems dv start last = .ok relative ∧ relative.Pairwise (· < ·) ∧
      ∀ row : Nat, start.toNat + row ≤ last.toNat →
        ((row : Int) ∈ relative ↔ start.toNat + row ∈ vectorPositions dv) := by
  have hle : start.toNat ≤ last.toNat := UInt64.le_iff_toNat_le.mp h
  have hlast := last.toNat_lt
  have hlength : (last - start).toNat ≤ 2 ^ 31 - 1 := by
    rw [UInt64.toNat_sub]
    omega
  have hsize : ensure ((last - start).toNat ≤ 2 ^ 31 - 1) "batch is too large" = .ok () := by
    rw [decide_eq_true hlength, ensure_true]
  obtain ⟨elems, helems, hsorted, hmem⟩ := @getElems_ok roaring dv _ _ h hrange
  have hcast : ∀ pos ∈ elems, castToInt32 (UInt64.ofNat pos - start) = (pos : Int) - start.toNat := by
    intro pos hpos
    obtain ⟨-, hl, hr⟩ := (hmem pos).mp hpos
    exact castToInt32_sub hl (hr.trans_lt hlast) (by omega)
  have hrelative : getRelativeElems dv start last = .ok (elems.map (fun pos : Nat => (pos : Int) - start.toNat)) := by
    rw [getRelativeElems, hsize, ok_bind, helems, ok_bind]
    exact congrArg Except.ok (List.map_congr_left hcast)
  refine ⟨_, hrelative, ?_, ?_⟩
  · rw [List.pairwise_map]
    exact hsorted.imp (fun hlt => by omega)
  · intro row hrow
    rw [List.mem_map]
    constructor
    · rintro ⟨pos, hpos, heq⟩
      have hpos' : pos = start.toNat + row := by omega
      rw [← hpos']
      exact ((hmem pos).mp hpos).1
    · intro hdeleted
      exact ⟨start.toNat + row, (hmem _).mpr ⟨hdeleted, by omega, hrow⟩, by push_cast; omega⟩

/-- A batch with a selected row loses exactly the rows of the vector. -/
lemma applyDeletionVector_eq {batch : FilteredBatch} (hfits : BatchFits batch) (hselects : SelectsRows batch) :
    applyDeletionVector batch dv = .ok (withoutPositions dv batch) := by
  obtain ⟨hrows, hposition, hend⟩ := hfits
  obtain ⟨row, hrow⟩ := List.exists_mem_of_ne_nil _ hselects.nonempty
  have hpos := hselects.inRange row hrow
  have hstart : (UInt64.ofInt batch.rowPosition).toNat = batch.rowPosition.toNat := toNat_ofInt hposition (by omega)
  have hlast : (UInt64.ofInt batch.rowPosition + UInt64.ofNat batch.numRows - 1).toNat =
      batch.rowPosition.toNat + batch.numRows - 1 := by
    rw [UInt64.toNat_sub, UInt64.toNat_add, hstart, UInt64.toNat_ofNat', UInt64.toNat_one]
    omega
  obtain ⟨relative, hrelative, hsorted, hmem⟩ := @getRelativeElems_ok roaring dv (UInt64.ofInt batch.rowPosition)
    (UInt64.ofInt batch.rowPosition + UInt64.ofNat batch.numRows - 1) (UInt64.le_iff_toNat_le.mpr (by omega)) (by omega)
  have hkept : deleteIfEqual batch.selectionVector relative =
      batch.selectionVector.filter (fun row => batch.rowPosition.toNat + row ∉ vectorPositions dv) := by
    rw [deleteIfEqual_eq hselects.increasing hsorted]
    apply List.filter_congr
    intro row hrow
    have hlt := hselects.inRange row hrow
    rw [decide_eq_decide, hmem row (by omega), hstart]
  rw [applyDeletionVector, hrelative, ok_bind, withoutPositions, ← hkept]
  cases relative with
  | nil =>
    have hsame : deleteIfEqual batch.selectionVector [] = batch.selectionVector := by
      rw [deleteIfEqual_eq hselects.increasing List.Pairwise.nil]
      simp
    rw [hsame]
    rfl
  | cons first rest => rfl

/-! ### Runs -/

/-- The row filter selects rows of the batch, in ascending order. -/
def AscendingFilter (rowFilter : ApplyRowFilter) : Prop :=
  ∀ batch rows, rowFilter batch = .ok rows → rows.Pairwise (· < ·) ∧ ∀ row ∈ rows, row < batch.numRows

/-- A returned batch belongs to a filter batch with a selected row. -/
lemma result_filterBatch {stream : FilteringStream} {n : Nat} {batch : FilteredBatch}
    (h : stream.result n = .batch batch) :
    ∃ batchFilter ∈ stream.filterStream, batchFilter.rowPosition = batch.rowPosition ∧
      batchFilter.numRows = batch.numRows ∧ stream.rowFilter batchFilter = .ok batch.selectionVector ∧
      batch.selectionVector ≠ [] := by
  obtain ⟨hfilter, -, -, hpending⟩ := after_spec stream n
  have hresult : (stream.after n).readNext.1 = .batch batch := h
  rcases (readNext_spec (stream.after n)).answers with
    ⟨-, -, hended, -⟩ | ⟨batchFilter, hnext, ⟨-, hnull⟩ | ⟨-, hanswered⟩⟩
  · rw [hresult] at hended
    cases hended
  · rw [hresult] at hnull
    cases hnull
  · rw [hresult] at hanswered
    obtain ⟨batchData, -, hcombines⟩ := hanswered
    have hmem : batchFilter ∈ pending stream := by
      apply List.mem_of_mem_drop (i := n)
      rw [← hpending, hnext]
      exact List.mem_cons_self
    obtain ⟨hstream, hends⟩ := List.mem_filter.mp hmem
    have hselected : stream.rowFilter batchFilter = .ok batch.selectionVector := hfilter ▸ hcombines.selected
    refine ⟨batchFilter, hstream, hcombines.filterPosition, hcombines.filterRows, hselected, ?_⟩
    intro hempty
    rw [endsCall, hselected, hempty] at hends
    cases hends

lemma result_selects {stream : FilteringStream} (hfilter : AscendingFilter stream.rowFilter) {n : Nat}
    {batch : FilteredBatch} (h : stream.result n = .batch batch) : SelectsRows batch := by
  obtain ⟨batchFilter, -, -, hrows, hselected, hnonempty⟩ := result_filterBatch h
  obtain ⟨hincreasing, hinRange⟩ := hfilter batchFilter batch.selectionVector hselected
  exact ⟨hincreasing, hnonempty, hrows ▸ hinRange⟩

/-- The applier only moves its input on. -/
lemma applier_readNext (applier : DeletionVectorApplier roaring) :
    applier.readNext.2 = { applier with input := applier.input.readNext.2 } := by
  unfold DeletionVectorApplier.readNext
  split
  · rename_i batch input hread
    rw [hread]
    split <;> rfl
  · rename_i result input _ hread
    rw [hread]

lemma applier_after (applier : DeletionVectorApplier roaring) (n : Nat) :
    applier.after n = { applier with input := applier.input.after n } := by
  induction n with
  | zero => rfl
  | succ n ih =>
    rw [DeletionVectorApplier.after, applier_readNext, ih]
    rfl

/-- The result with its batch, if it has one, changed. -/
def mapBatch (f : FilteredBatch → FilteredBatch) : ReadResult FilteredBatch → ReadResult FilteredBatch
  | .batch batch => .batch (f batch)
  | other => other

/-- Every batch out of the filtering stream loses exactly the rows whose positions are in the vector, and
nothing else is changed: no batch is too large. -/
theorem deletionVector_applied_exactly (roaring : RoaringLibrary) (dv : DeletionVector roaring)
    (stream : FilteringStream) (hfilter : AscendingFilter stream.rowFilter)
    (hfits : ∀ n batch, stream.result n = .batch batch → BatchFits batch) (n : Nat) :
    (DeletionVectorApplier.mk stream dv).result n = mapBatch (withoutPositions dv) (stream.result n) := by
  have hselects := fun batch (h : stream.result n = .batch batch) => result_selects hfilter h
  have hbatch := hfits n
  rw [DeletionVectorApplier.result, applier_after]
  unfold DeletionVectorApplier.readNext
  rw [FilteringStream.result] at hselects hbatch ⊢
  dsimp only
  cases hread : (stream.after n).readNext with
  | mk result input =>
    rw [hread] at hselects hbatch
    cases result with
    | batch batch =>
      dsimp only
      rw [applyDeletionVector_eq (hbatch batch rfl) (hselects batch rfl)]
      rfl
    | ended => rfl
    | thrown message => rfl
    | nullDereference => rfl

/-- Three rows from position 10 on. -/
def threeRows : ArrowBatchWithRowPosition where
  columns := []
  numRows := 3
  rowPosition := 10

/-- A stream of these rows, all of them selected. -/
def threeRowsStream : FilteringStream where
  filterStream := [threeRows]
  dataStream := [threeRows]
  rowFilter := passThroughFilter
  partitionLayerFile := ⟨0, 0, []⟩

/-- The vector of the position 11. -/
def vectorOfEleven : DeletionVector listRoaring where
  properties := ∅
  fields := []
  bitmap := [11]

lemma passThroughFilter_ascending : AscendingFilter passThroughFilter := by
  intro batch rows hrows
  obtain rfl := Except.ok.inj hrows
  exact ⟨List.pairwise_lt_range, fun row hrow => List.mem_range.mp hrow⟩

theorem threeRowsStream_without_eleven :
    ∃ batch, (DeletionVectorApplier.mk threeRowsStream vectorOfEleven).result 0 = .batch batch ∧
      batch.selectionVector = [0, 2] := by
  have hfits : ∀ n batch, threeRowsStream.result n = .batch batch → BatchFits batch := by
    intro n batch hresult
    obtain ⟨batchFilter, hmem, hposition, hrows, -⟩ := result_filterBatch hresult
    obtain rfl := List.mem_singleton.mp hmem
    exact ⟨by rw [← hrows]; decide, by rw [← hposition]; decide, by rw [← hrows, ← hposition]; decide⟩
  rw [deletionVector_applied_exactly listRoaring vectorOfEleven threeRowsStream passThroughFilter_ascending hfits 0]
  exact ⟨_, rfl, by decide⟩

end IcebergCxx.Proofs

import IcebergCxx.FilteringStream

/-!
# The filtering stream pairs its batches

Every call but the last ones takes one batch off those for which the row filter selects a row, and
answers it: with the data batch at the same position, or with an exception. The one thing that is
not checked is whether the data stream has a batch left.
-/

namespace IcebergCxx.Proofs

open Lib FilteringStream

/-- The row filter does not pass over the batch: it selects a row or throws. -/
def endsCall (rowFilter : ApplyRowFilter) (batch : ArrowBatchWithRowPosition) : Bool :=
  match rowFilter batch with
  | .ok [] => false
  | _ => true

/-- The filter batches that are still to be answered. -/
def pending (stream : FilteringStream) : List ArrowBatchWithRowPosition :=
  stream.filterStream.filter (endsCall stream.rowFilter)

/-- The rows to pass over before the next answer. -/
def rowsToSkip (stream : FilteringStream) : Int :=
  stream.rowsSkipped +
    ((stream.filterStream.takeWhile (fun batch => !endsCall stream.rowFilter batch)).map (fun batch => batch.numRows)).sum

/-- The batches have exactly this many rows, and the last one has some of them. -/
def UsedUp (rows : Int) (data : List ArrowBatchWithRowPosition) : Prop :=
  rows = (data.map (fun batch => batch.numRows)).sum ∧ ∀ last ∈ data.getLast?, 0 < last.numRows

/-- A selected row is next, and the rows to pass over are all that is left of the data stream. -/
def NoDataLeft (stream : FilteringStream) : Prop :=
  (∃ batch row rows, (pending stream).head? = some batch ∧ stream.rowFilter batch = .ok (row :: rows)) ∧
    UsedUp (rowsToSkip stream) stream.dataStream

/-- The returned batch combines a filter batch and a data batch of the same position and size, and
selects what the row filter selected. -/
structure Combines (stream : FilteringStream) (batchFilter batchData : ArrowBatchWithRowPosition)
    (batch : FilteredBatch) : Prop where
  filterPosition : batchFilter.rowPosition = batch.rowPosition
  dataPosition : batchData.rowPosition = batch.rowPosition
  filterRows : batchFilter.numRows = batch.numRows
  dataRows : batchData.numRows = batch.numRows
  selected : stream.rowFilter batchFilter = .ok batch.selectionVector
  columns : batch.columns = batchData.columns ++ batchFilter.columns
  file : batch.toPartitionLayerFile = stream.partitionLayerFile

/-- A filter batch is answered with a data batch of the stream, or with an exception. -/
def Answered (stream : FilteringStream) (batchFilter : ArrowBatchWithRowPosition) : ReadResult FilteredBatch → Prop
  | .batch batch => ∃ batchData ∈ stream.dataStream, Combines stream batchFilter batchData batch
  | .thrown _ => True
  | .ended => False
  | .nullDereference => False

/-- An answer out of what is left of a stream. -/
lemma Answered.mono {stream stream' : FilteringStream} {batchFilter : ArrowBatchWithRowPosition}
    {result : ReadResult FilteredBatch} (h : Answered stream' batchFilter result)
    (hfilter : stream'.rowFilter = stream.rowFilter) (hfile : stream'.partitionLayerFile = stream.partitionLayerFile)
    (hdata : stream'.dataStream <:+ stream.dataStream) : Answered stream batchFilter result := by
  cases result with
  | batch batch =>
    obtain ⟨batchData, hmem, hcombines⟩ := h
    exact ⟨batchData, hdata.subset hmem, { hcombines with
      selected := hfilter ▸ hcombines.selected
      file := hfile ▸ hcombines.file }⟩
  | ended => exact h
  | thrown message => exact h
  | nullDereference => exact h

lemma concatenate_ok {a b result : ArrowBatchWithRowPosition} (h : concatenate a b = .ok result) :
    a.rowPosition = b.rowPosition ∧ a.numRows = b.numRows ∧
      result = ⟨a.columns ++ b.columns, a.numRows, a.rowPosition⟩ := by
  unfold concatenate at h
  obtain ⟨_, hposition, h⟩ := bind_ok h
  obtain ⟨_, hrows, h⟩ := bind_ok h
  exact ⟨of_decide_eq_true (ensure_ok hposition), of_decide_eq_true (ensure_ok hrows), (Except.ok.inj h).symm⟩

/-! ### Rows that are passed over -/

lemma skipRows_eq_iff (rows : Int) (data : List ArrowBatchWithRowPosition) :
    skipRows rows data = (0, []) ↔ UsedUp rows data := by
  induction data generalizing rows with
  | nil => simp [skipRows, UsedUp]
  | cons batch rest ih =>
    have hsum : (0 : Int) ≤ ((rest.map (fun batch => batch.numRows)).sum : Nat) := Int.natCast_nonneg _
    rw [skipRows]
    split_ifs with hpos
    · rw [ih, UsedUp, UsedUp, List.map_cons, List.sum_cons]
      push_cast
      constructor
      · rintro ⟨hrows, hlast⟩
        refine ⟨by omega, ?_⟩
        intro last hmem
        cases rest with
        | nil =>
          simp only [List.getLast?_singleton, Option.mem_def, Option.some.injEq] at hmem
          subst hmem
          simp at hrows
          omega
        | cons next rest =>
          rw [List.getLast?_cons_cons] at hmem
          exact hlast last hmem
      · rintro ⟨hrows, hlast⟩
        refine ⟨by omega, ?_⟩
        intro last hmem
        cases rest with
        | nil => simp at hmem
        | cons next rest => exact hlast last (by rw [List.getLast?_cons_cons]; exact hmem)
    · constructor
      · intro h
        cases h
      · rintro ⟨hrows, hlast⟩
        have hmem := List.getLast_mem (List.cons_ne_nil batch rest)
        have hle : ((batch :: rest).getLast (List.cons_ne_nil batch rest)).numRows ≤
            ((batch :: rest).map (fun batch => batch.numRows)).sum := List.le_sum_of_mem (List.mem_map_of_mem hmem)
        have hlastRows := hlast _ (List.getLast?_eq_some_getLast (List.cons_ne_nil batch rest))
        omega

lemma skipRows_suffix (rows : Int) (data : List ArrowBatchWithRowPosition) : (skipRows rows data).2 <:+ data := by
  induction data generalizing rows with
  | nil => exact List.suffix_refl _
  | cons batch rest ih =>
    rw [skipRows]
    split_ifs
    · exact (ih _).trans (List.suffix_cons batch rest)
    · exact List.suffix_refl _

/-! ### One call -/

lemma readFrom_eq (stream : FilteringStream) (batches : List ArrowBatchWithRowPosition) :
    stream.readFrom batches = readNext { stream with filterStream := batches } := by
  induction batches generalizing stream with
  | nil => rfl
  | cons batch rest ih =>
    cases h : stream.rowFilter batch with
    | error message => simp only [readNext, readFrom, h]
    | ok rows =>
      cases rows with
      | nil =>
        simp only [readNext, readFrom, h]
        rw [ih, ih]
      | cons row rows =>
        simp only [readNext, readFrom, h]
        rfl

lemma pairWith_answered (stream : FilteringStream) {batchFilter : ArrowBatchWithRowPosition} {row : Nat}
    {rows : List Nat} (hselected : stream.rowFilter batchFilter = .ok (row :: rows)) :
    ((pairWith stream batchFilter (row :: rows)).1 = .nullDereference ∧ stream.rowsSkipped = 0 ∧
        stream.dataStream = []) ∨
      (¬(stream.rowsSkipped = 0 ∧ stream.dataStream = []) ∧
        Answered stream batchFilter (pairWith stream batchFilter (row :: rows)).1) := by
  unfold pairWith
  split_ifs with hpos hzero
  · exact .inr ⟨fun h => by omega, trivial⟩
  · exact .inr ⟨fun h => hzero h.1, trivial⟩
  · rw [not_not] at hzero
    cases hdata : stream.dataStream with
    | nil => exact .inl ⟨rfl, hzero, rfl⟩
    | cons batchData rest =>
      right
      refine ⟨fun h => (List.cons_ne_nil _ _) h.2, ?_⟩
      dsimp only
      cases hresult : concatenate batchData batchFilter with
      | error message => trivial
      | ok result =>
        obtain ⟨hposition, hrows, rfl⟩ := concatenate_ok hresult
        refine ⟨batchData, by rw [hdata]; exact List.mem_cons_self, ?_⟩
        exact ⟨hposition.symm, rfl, hrows.symm, rfl, hselected, rfl, rfl⟩

/-- What one call does. -/
structure CallSpec (stream : FilteringStream) (result : ReadResult FilteredBatch) (stream' : FilteringStream) :
    Prop where
  filter : stream'.rowFilter = stream.rowFilter
  file : stream'.partitionLayerFile = stream.partitionLayerFile
  data : stream'.dataStream <:+ stream.dataStream
  answers : (pending stream = [] ∧ pending stream' = [] ∧ result = .ended ∧ ¬NoDataLeft stream) ∨
    ∃ batch, pending stream = batch :: pending stream' ∧
      ((NoDataLeft stream ∧ result = .nullDereference) ∨ (¬NoDataLeft stream ∧ Answered stream batch result))

lemma pairWith_frame (stream : FilteringStream) (batch : ArrowBatchWithRowPosition) (rows : List Nat) :
    (pairWith stream batch rows).2.rowFilter = stream.rowFilter ∧
      (pairWith stream batch rows).2.partitionLayerFile = stream.partitionLayerFile ∧
      (pairWith stream batch rows).2.filterStream = stream.filterStream ∧
      (pairWith stream batch rows).2.dataStream <:+ stream.dataStream := by
  unfold pairWith
  split_ifs
  · exact ⟨rfl, rfl, rfl, List.suffix_refl _⟩
  · exact ⟨rfl, rfl, rfl, List.suffix_refl _⟩
  · cases hdata : stream.dataStream with
    | nil => exact ⟨rfl, rfl, rfl, by simp [hdata]⟩
    | cons batchData rest =>
      dsimp only
      cases concatenate batchData batch with
      | error message => exact ⟨rfl, rfl, rfl, List.suffix_cons _ _⟩
      | ok result => exact ⟨rfl, rfl, rfl, List.suffix_cons _ _⟩

/-- A call that reaches a batch with a selected row. -/
lemma callSpec_selected {stream : FilteringStream} {batch : ArrowBatchWithRowPosition}
    {rest : List ArrowBatchWithRowPosition} {row : Nat} {rows : List Nat}
    (hstream : stream.filterStream = batch :: rest) (hselected : stream.rowFilter batch = .ok (row :: rows)) :
    CallSpec stream stream.readNext.1 stream.readNext.2 := by
  have hends : endsCall stream.rowFilter batch = true := by simp only [endsCall, hselected]
  have hread : stream.readNext = pairWith { stream.skipped with filterStream := rest } batch (row :: rows) := by
    simp only [readNext, hstream, readFrom, hselected]
  have hskip : rowsToSkip stream = stream.rowsSkipped := by
    rw [rowsToSkip, hstream, List.takeWhile_cons_of_neg (by simp [hends])]
    simp
  have hpending : pending stream = batch :: rest.filter (endsCall stream.rowFilter) := by
    rw [pending, hstream, List.filter_cons_of_pos hends]
  have hnone : NoDataLeft stream ↔ (stream.skipped.rowsSkipped = 0 ∧ stream.skipped.dataStream = []) := by
    rw [NoDataLeft, hskip, ← skipRows_eq_iff, Prod.ext_iff]
    exact and_iff_right ⟨batch, row, rows, by rw [hpending]; rfl, hselected⟩
  rw [hread]
  obtain ⟨hfilter, hfile, hrest, hdata⟩ := pairWith_frame { stream.skipped with filterStream := rest } batch (row :: rows)
  have hsuffix : stream.skipped.dataStream <:+ stream.dataStream := skipRows_suffix _ _
  refine ⟨hfilter, hfile, hdata.trans hsuffix, .inr ⟨batch, ?_, ?_⟩⟩
  · rw [hpending, pending, hfilter, hrest]
    rfl
  · rw [hnone]
    rcases pairWith_answered { stream.skipped with filterStream := rest } hselected with
      ⟨hnull, hempty⟩ | ⟨hleft, hanswered⟩
    · exact .inl ⟨hempty, hnull⟩
    · right
      exact ⟨hleft, hanswered.mono rfl rfl hsuffix⟩

/-- A batch without a selected row is only counted. -/
lemma noDataLeft_cons {stream : FilteringStream} {batch : ArrowBatchWithRowPosition}
    {rest : List ArrowBatchWithRowPosition} (hstream : stream.filterStream = batch :: rest)
    (hempty : stream.rowFilter batch = .ok []) :
    pending stream = pending { stream with filterStream := rest, rowsSkipped := stream.rowsSkipped + batch.numRows } ∧
      (NoDataLeft stream ↔
        NoDataLeft { stream with filterStream := rest, rowsSkipped := stream.rowsSkipped + batch.numRows }) := by
  have hends : endsCall stream.rowFilter batch = false := by simp only [endsCall, hempty]
  have hpending : pending stream =
      pending { stream with filterStream := rest, rowsSkipped := stream.rowsSkipped + batch.numRows } := by
    rw [pending, hstream, List.filter_cons_of_neg (by simp [hends])]
    rfl
  have hskip : rowsToSkip stream =
      rowsToSkip { stream with filterStream := rest, rowsSkipped := stream.rowsSkipped + batch.numRows } := by
    rw [rowsToSkip, rowsToSkip, hstream, List.takeWhile_cons_of_pos (by simp [hends]), List.map_cons, List.sum_cons]
    push_cast
    ring
  refine ⟨hpending, ?_⟩
  rw [NoDataLeft, NoDataLeft, hpending, hskip]

lemma readNext_spec (stream : FilteringStream) : CallSpec stream stream.readNext.1 stream.readNext.2 := by
  obtain ⟨batches, hstream⟩ : ∃ batches, stream.filterStream = batches := ⟨_, rfl⟩
  induction batches generalizing stream with
  | nil =>
    have hread : stream.readNext = (.ended, { stream with filterStream := [] }) := by
      simp only [readNext, hstream, readFrom]
    have hpending : pending stream = [] := by rw [pending, hstream]; rfl
    rw [hread]
    refine ⟨rfl, rfl, List.suffix_refl _, .inl ⟨hpending, rfl, rfl, ?_⟩⟩
    rintro ⟨⟨batch, row, rows, hhead, -⟩, -⟩
    rw [hpending] at hhead
    cases hhead
  | cons batch rest ih =>
    cases hfilter : stream.rowFilter batch with
    | error message =>
      have hread : stream.readNext = (.thrown message, { stream with filterStream := rest }) := by
        simp only [readNext, hstream, readFrom, hfilter]
      have hends : endsCall stream.rowFilter batch = true := by simp only [endsCall, hfilter]
      have hpending : pending stream = batch :: pending { stream with filterStream := rest } := by
        rw [pending, hstream, List.filter_cons_of_pos hends]
        rfl
      rw [hread]
      refine ⟨rfl, rfl, List.suffix_refl _, .inr ⟨batch, hpending, .inr ⟨?_, trivial⟩⟩⟩
      rintro ⟨⟨batch', row, rows, hhead, hselected⟩, -⟩
      rw [hpending, List.head?_cons, Option.some.injEq] at hhead
      subst hhead
      rw [hfilter] at hselected
      cases hselected
    | ok rows =>
      cases rows with
      | nil =>
        have hread : stream.readNext =
            readNext { stream with filterStream := rest, rowsSkipped := stream.rowsSkipped + batch.numRows } := by
          simp only [readNext, hstream, readFrom, hfilter]
          rw [readFrom_eq, readFrom_eq]
        obtain ⟨hpending, hnone⟩ := noDataLeft_cons hstream hfilter
        have hrest := ih { stream with filterStream := rest, rowsSkipped := stream.rowsSkipped + batch.numRows } rfl
        rw [hread]
        refine ⟨hrest.filter, hrest.file, hrest.data, ?_⟩
        rw [hpending, hnone]
        rcases hrest.answers with hended | ⟨next, hnext, hnull | ⟨hleft, hanswered⟩⟩
        · exact .inl hended
        · exact .inr ⟨next, hnext, .inl hnull⟩
        · exact .inr ⟨next, hnext, .inr ⟨hleft, hanswered.mono rfl rfl (List.suffix_refl _)⟩⟩
      | cons row rows => exact callSpec_selected hstream hfilter

/-! ### Runs -/

/-- What a number of calls leaves. -/
lemma after_spec (stream : FilteringStream) (n : Nat) :
    (stream.after n).rowFilter = stream.rowFilter ∧
      (stream.after n).partitionLayerFile = stream.partitionLayerFile ∧
      (stream.after n).dataStream <:+ stream.dataStream ∧ pending (stream.after n) = (pending stream).drop n := by
  induction n with
  | zero => exact ⟨rfl, rfl, List.suffix_refl _, rfl⟩
  | succ n ih =>
    obtain ⟨hfilter, hfile, hdata, hpending⟩ := ih
    have hcall := readNext_spec (stream.after n)
    refine ⟨hcall.filter.trans hfilter, hcall.file.trans hfile, hcall.data.trans hdata, ?_⟩
    have hdrop : (pending stream).drop (n + 1) = (pending (stream.after n)).drop 1 := by
      rw [hpending, List.drop_drop]
    rw [hdrop]
    rcases hcall.answers with ⟨hempty, hempty', -⟩ | ⟨batch, hbatch, -⟩
    · rw [hempty]
      exact hempty'
    · rw [hbatch]
      rfl

/-- A call answers the filter batch whose turn it is, and ends the stream when there is none. -/
def CallAnswers (stream : FilteringStream) (n : Nat) : Prop :=
  match (pending stream)[n]? with
  | none => stream.result n = .ended
  | some batchFilter => Answered stream batchFilter (stream.result n)

lemma callAnswers_iff (stream : FilteringStream) (n : Nat) : CallAnswers stream n ↔ ¬NoDataLeft (stream.after n) := by
  obtain ⟨hfilter, hfile, hdata, hpending⟩ := after_spec stream n
  have hhead : (pending stream)[n]? = (pending (stream.after n)).head? := by
    rw [hpending, List.head?_drop]
  unfold CallAnswers
  rw [hhead]
  rcases (readNext_spec (stream.after n)).answers with
    ⟨hempty, -, hended, hleft⟩ | ⟨batch, hbatch, ⟨hnone, hnull⟩ | ⟨hleft, hanswered⟩⟩
  · rw [hempty]
    exact ⟨fun _ => hleft, fun _ => hended⟩
  · rw [hbatch, List.head?_cons]
    dsimp only
    rw [result, hnull]
    exact ⟨False.elim, fun h => h hnone⟩
  · rw [hbatch, List.head?_cons]
    exact ⟨fun _ => hleft, fun _ => hanswered.mono hfilter hfile hdata⟩

/-- For any streams of batches and any row filter, all calls up to some number pair their batches or
throw exactly when before none of them the data stream ends where a selected row begins. -/
theorem filteringStream_pairs_iff (stream : FilteringStream) (calls : Nat) :
    (∀ n < calls, CallAnswers stream n) ↔ ∀ n < calls, ¬NoDataLeft (stream.after n) :=
  forall₂_congr (fun n _ => callAnswers_iff stream n)

/-- A batch of one row at the start of a file. -/
def firstRow : ArrowBatchWithRowPosition where
  columns := []
  numRows := 1
  rowPosition := 0

/-- A filter batch with a selected row, and no data batch. -/
def streamWithoutData : FilteringStream where
  filterStream := [firstRow]
  dataStream := []
  rowFilter _ := .ok [0]
  partitionLayerFile := ⟨0, 0, []⟩

theorem streamWithoutData_dereferences_null :
    streamWithoutData.result 0 = .nullDereference ∧ ¬CallAnswers streamWithoutData 0 := by
  refine ⟨rfl, ?_⟩
  rw [callAnswers_iff, not_not]
  exact ⟨⟨firstRow, 0, [], rfl, rfl⟩, rfl, by simp [streamWithoutData, after]⟩

end IcebergCxx.Proofs

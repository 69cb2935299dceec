import IcebergCxx.EqualityDeleteRetry
import IcebergCxx.Proofs.EqualityDeleteColumns

/-!
# Equality deletes after failures

`SetDeletes` records the partition before it loads the deletes. A batch that follows a failed load
in the same partition is filtered with the deletes that were loaded before the failure; every other
batch has all deletes of its partition applied.
-/

namespace IcebergCxx.Proofs

open Lib EqualityDeleteApplier EqualityDeleteHandler

/-! ### Loading -/

/-- A file that was read without a failure was added in full. -/
lemma parseEqualityDeleteFile_ok {calls : List AddCall} {fault : Option LoadFault} {del del' : EqualityDelete}
    (h : parseEqualityDeleteFile fault del calls = (none, del')) : del.addAll calls = .ok del' := by
  induction calls generalizing fault del with
  | nil =>
    unfold parseEqualityDeleteFile at h
    split at h
    · cases h
    · obtain rfl : del = del' := by simpa using h
      rfl
  | cons call calls ih =>
    unfold parseEqualityDeleteFile at h
    split at h
    · cases h
    · cases hadd : del.add call.arrays call.rowsCount call.deleteLayer with
      | error message => simp [hadd] at h
      | ok del₁ =>
        rw [hadd] at h
        unfold EqualityDelete.addAll
        rw [List.foldlM_cons, hadd, ok_bind]
        exact ih h

lemma parseEqualityDeleteFile_none {calls : List AddCall} {del del' : EqualityDelete} (h : del.addAll calls = .ok del') :
    parseEqualityDeleteFile none del calls = (none, del') := by
  induction calls generalizing del with
  | nil =>
    obtain rfl : del = del' := Except.ok.inj h
    rfl
  | cons call calls ih =>
    unfold EqualityDelete.addAll at h
    rw [List.foldlM_cons] at h
    obtain ⟨del₁, h1, h2⟩ := bind_ok h
    unfold parseEqualityDeleteFile
    simp only [Option.map_none, h1]
    exact ih h2

section
variable {ctx : EqualityDeleteContext} {builder : FileReaderBuilder}

/-- `AppendDelete` in two parts. -/
lemma appendDelete_eq (handler : EqualityDeleteHandler) (url : Bytes) (fieldIdsVec : List Int) (deleteLayer : Int) :
    handler.appendDelete ctx url fieldIdsVec deleteLayer = (do
      let opened ← handler.openDelete ctx url fieldIdsVec
      let del ← opened.2.2.addAll (addCalls opened.2.1 deleteLayer)
      let materializedDeletes := handler.materializedDeletes.insert opened.1 del
      return { handler with
        materializedDeletes
        currentRows := (materializedDeletes.values.map EqualityDelete.size).sum }) := by
  unfold appendDelete openDelete addCalls
  simp only [bind_assoc, pure_bind]
  all_goals rfl

lemma tryAppendDelete_ok {fault : Option LoadFault} {handler handler' : EqualityDeleteHandler} {url : Bytes}
    {fieldIdsVec : List Int} {deleteLayer : Int}
    (h : handler.tryAppendDelete ctx fault url fieldIdsVec deleteLayer = (none, handler')) :
    handler.appendDelete ctx url fieldIdsVec deleteLayer = .ok handler' := by
  unfold tryAppendDelete at h
  rw [appendDelete_eq]
  split at h
  · cases h
  · cases hopen : handler.openDelete ctx url fieldIdsVec with
    | error message => simp [hopen] at h
    | ok opened =>
      rw [hopen] at h
      rw [ok_bind]
      simp only at h
      split at h
      · cases h
      · rename_i del hparse
        rw [parseEqualityDeleteFile_ok hparse, ok_bind]
        obtain rfl := (Prod.mk.inj h).2
        rfl

lemma tryAppendDelete_none {handler handler' : EqualityDeleteHandler} {url : Bytes} {fieldIdsVec : List Int}
    {deleteLayer : Int} (h : handler.appendDelete ctx url fieldIdsVec deleteLayer = .ok handler') :
    handler.tryAppendDelete ctx none url fieldIdsVec deleteLayer = (none, handler') := by
  rw [appendDelete_eq] at h
  obtain ⟨opened, hopen, h⟩ := bind_ok h
  obtain ⟨del, hdel, h⟩ := bind_ok h
  obtain rfl := Except.ok.inj h
  unfold tryAppendDelete
  simp only [hopen, parseEqualityDeleteFile_none hdel]

/-- `AppendDelete` for one delete after the other. -/
def appendAll (ctx : EqualityDeleteContext) (handler : EqualityDeleteHandler) (dels : List (Int × EqualityDeleteInfo)) :
    Except String EqualityDeleteHandler :=
  dels.foldlM (fun handler del => handler.appendDelete ctx del.2.path del.2.fieldIds del.1) handler

lemma setDeletes_eq (partition : Int) :
    setDeletes ctx builder partition = appendAll ctx {} (builder.equalityDeletes.deletesOf partition) := rfl

lemma trySetDeletes_ok {faults : Nat → Option LoadFault} {n : Nat} {dels : List (Int × EqualityDeleteInfo)}
    {handler handler' : EqualityDeleteHandler} (h : trySetDeletes ctx faults n dels handler = (none, handler')) :
    appendAll ctx handler dels = .ok handler' := by
  induction dels generalizing n handler with
  | nil =>
    obtain rfl : handler = handler' := (Prod.mk.inj h).2
    rfl
  | cons del dels ih =>
    unfold trySetDeletes at h
    split at h
    · cases h
    · rename_i handler₁ happend
      unfold appendAll
      rw [List.foldlM_cons, tryAppendDelete_ok happend, ok_bind]
      exact ih h

lemma trySetDeletes_none {n : Nat} {dels : List (Int × EqualityDeleteInfo)} {handler handler' : EqualityDeleteHandler}
    (h : appendAll ctx handler dels = .ok handler') :
    trySetDeletes ctx (fun _ => none) n dels handler = (none, handler') := by
  induction dels generalizing n handler with
  | nil =>
    obtain rfl : handler = handler' := Except.ok.inj h
    rfl
  | cons del dels ih =>
    unfold appendAll at h
    rw [List.foldlM_cons] at h
    obtain ⟨handler₁, h1, h2⟩ := bind_ok h
    unfold trySetDeletes
    rw [tryAppendDelete_none h1]
    exact ih h2

/-! ### Calls of `ReadNext` -/

/-- All deletes of the batch's partition were loaded, and the batch was filtered with them. -/
def AllApplied (ctx : EqualityDeleteContext) (builder : FileReaderBuilder) (batch out : IcebergBatch) : Prop :=
  ∃ handler applier, setDeletes ctx builder batch.partition = .ok handler ∧
    applyDeletes builder ⟨handler, some batch.partition⟩ batch = .ok (applier, out)

/-- The applier has all deletes of its partition. -/
def HoldsAll (ctx : EqualityDeleteContext) (builder : FileReaderBuilder) (applier : EqualityDeleteApplier) : Prop :=
  ∀ partition, applier.currentState = some partition → ∃ handler, setDeletes ctx builder partition = .ok handler ∧
    applier.equalityDeleteHandler.materializedDeletes = handler.materializedDeletes

lemma makeFieldIdToArray_materialized {mapper : FieldIdMapper} {handler handler' : EqualityDeleteHandler}
    (h : handler.materializedDeletes = handler'.materializedDeletes) (batch : IcebergBatch) :
    makeFieldIdToArray mapper handler batch = makeFieldIdToArray mapper handler' batch := by
  unfold makeFieldIdToArray getEqualityDeleteFieldIds
  rw [h]

/-- Only the materialized deletes of a handler matter to a batch. -/
lemma applyDeletes_materialized {applier : EqualityDeleteApplier} {handler : EqualityDeleteHandler} {state : Option Int}
    (h : applier.equalityDeleteHandler.materializedDeletes = handler.materializedDeletes) (batch : IcebergBatch) :
    (applier.applyDeletes builder batch).map Prod.snd =
      (applyDeletes builder ⟨handler, state⟩ batch).map Prod.snd := by
  have harrays := @makeFieldIdToArray_materialized builder.mapper
    (applier.equalityDeleteHandler.prepareDeletesForFile batch.layer).2 (handler.prepareDeletesForFile batch.layer).2 h batch
  unfold applyDeletes
  simp only [harrays]
  unfold prepareDeletesForFile
  simp only [h]
  split_ifs
  · cases makeFieldIdToArray builder.mapper _ batch <;> rfl
  · rfl

/-- `ApplyDeletes` with all deletes: the batch is right, and the deletes are still all there. -/
lemma tryApplyDeletes_spec {applier : EqualityDeleteApplier} {batch : IcebergBatch} (hinv : HoldsAll ctx builder applier)
    (hstate : applier.currentState = some batch.partition) :
    (∀ out, (applier.tryApplyDeletes builder batch).1 = .ok out ↔ AllApplied ctx builder batch out) ∧
      HoldsAll ctx builder (applier.tryApplyDeletes builder batch).2 := by
  obtain ⟨handler, hset, hdeletes⟩ := hinv batch.partition hstate
  have hsame := @applyDeletes_materialized builder applier handler (some batch.partition) hdeletes batch
  have hresult : (applier.tryApplyDeletes builder batch).1 = (applier.applyDeletes builder batch).map Prod.snd := by
    unfold tryApplyDeletes
    cases applier.applyDeletes builder batch <;> rfl
  have happlier : (applier.tryApplyDeletes builder batch).2 = { applier with
      equalityDeleteHandler := (applier.equalityDeleteHandler.prepareDeletesForFile batch.layer).2 } := by
    unfold tryApplyDeletes
    cases happly : applier.applyDeletes builder batch with
    | error message => rfl
    | ok pair =>
      unfold applyDeletes at happly
      dsimp only at happly ⊢
      split_ifs at happly
      · obtain ⟨arrays, -, happly⟩ := bind_ok happly
        rw [← Except.ok.inj happly]
      · rw [← Except.ok.inj happly]
  constructor
  · intro out
    rw [hresult, hsame]
    unfold AllApplied
    cases happly : applyDeletes builder ⟨handler, some batch.partition⟩ batch with
    | error message =>
      simp only [Except.map, reduceCtorEq, false_iff, not_exists, not_and]
      intro handler' applier' hset'
      obtain rfl := Except.ok.inj (hset.symm.trans hset')
      rw [happly]
      simp
    | ok pair =>
      simp only [Except.map, Except.ok.injEq]
      constructor
      · rintro rfl
        exact ⟨handler, pair.1, hset, happly⟩
      · rintro ⟨handler', applier', hset', happly'⟩
        obtain rfl := Except.ok.inj (hset.symm.trans hset')
        rw [Except.ok.inj (happly.symm.trans happly')]
  · rw [happlier]
    exact hinv

/-- What a call returns: a batch with all deletes applied, and at any rate when nothing fails. -/
def AppliesAll (ctx : EqualityDeleteContext) (builder : FileReaderBuilder) (attempt : BatchAttempt)
    (result : Except String IcebergBatch) : Prop :=
  (∀ out, result = .ok out → AllApplied ctx builder attempt.batch out) ∧
    (attempt.faults = (fun _ => none) → ∀ out, AllApplied ctx builder attempt.batch out → result = .ok out)

lemma tryReadNext_reused {applier : EqualityDeleteApplier} {attempt : BatchAttempt} (hinv : HoldsAll ctx builder applier)
    (hstate : applier.currentState = some attempt.batch.partition) :
    AppliesAll ctx builder attempt (applier.tryReadNext ctx builder attempt).1 ∧
      HoldsAll ctx builder (applier.tryReadNext ctx builder attempt).2 := by
  unfold tryReadNext
  rw [if_pos hstate]
  obtain ⟨h1, h2⟩ := tryApplyDeletes_spec hinv hstate
  exact ⟨⟨fun out => (h1 out).mp, fun _ out => (h1 out).mpr⟩, h2⟩

/-- Loading the deletes of the batch's partition fails in this call. -/
def LoadFails (ctx : EqualityDeleteContext) (builder : FileReaderBuilder) (applier : EqualityDeleteApplier)
    (attempt : BatchAttempt) : Prop :=
  applier.currentState ≠ some attempt.batch.partition ∧
    (trySetDeletes ctx attempt.faults 0 (builder.equalityDeletes.deletesOf attempt.batch.partition) {}).1 ≠ none

lemma tryReadNext_loading {applier : EqualityDeleteApplier} {attempt : BatchAttempt}
    (hstate : applier.currentState ≠ some attempt.batch.partition) :
    AppliesAll ctx builder attempt (applier.tryReadNext ctx builder attempt).1 ∧
      (HoldsAll ctx builder (applier.tryReadNext ctx builder attempt).2 ∨ LoadFails ctx builder applier attempt) := by
  unfold tryReadNext LoadFails
  rw [if_neg hstate]
  cases hload : trySetDeletes ctx attempt.faults 0 (builder.equalityDeletes.deletesOf attempt.batch.partition) {} with
  | mk failure handler =>
    cases failure with
    | some message =>
      refine ⟨⟨fun out h => (by cases h), fun hfaults out hall => ?_⟩, .inr ⟨hstate, by simp⟩⟩
      obtain ⟨handler', -, hset, -⟩ := hall
      rw [setDeletes_eq] at hset
      rw [hfaults, trySetDeletes_none hset] at hload
      cases hload
    | none =>
      have hholds : HoldsAll ctx builder ⟨handler, some attempt.batch.partition⟩ := by
        intro partition hpartition
        obtain rfl := Option.some_inj.mp hpartition
        exact ⟨handler, trySetDeletes_ok hload, rfl⟩
      obtain ⟨h1, h2⟩ := tryApplyDeletes_spec hholds rfl
      exact ⟨⟨fun out => (h1 out).mp, fun _ out => (h1 out).mpr⟩, .inl h2⟩

/-- After a call in which loading the deletes of a partition fails, the next batch is of another
partition. -/
def LeavesPartition (ctx : EqualityDeleteContext) (builder : FileReaderBuilder) (applier : EqualityDeleteApplier) :
    List BatchAttempt → Prop
  | [] => True
  | attempt :: attempts =>
    (LoadFails ctx builder applier attempt →
      ∀ next ∈ attempts.head?, next.batch.partition ≠ attempt.batch.partition) ∧
    LeavesPartition ctx builder (applier.tryReadNext ctx builder attempt).2 attempts

lemma currentState_of_loadFails {applier : EqualityDeleteApplier} {attempt : BatchAttempt}
    (h : LoadFails ctx builder applier attempt) :
    (applier.tryReadNext ctx builder attempt).2.currentState = some attempt.batch.partition := by
  obtain ⟨hstate, hfail⟩ := h
  unfold tryReadNext
  rw [if_neg hstate]
  cases hload : trySetDeletes ctx attempt.faults 0 (builder.equalityDeletes.deletesOf attempt.batch.partition) {} with
  | mk failure handler =>
    rw [hload] at hfail
    cases failure with
    | some message => rfl
    | none => exact absurd rfl hfail

/-- What holds between two calls: the deletes are all there, or the next batch loads its own. -/
lemma tryReadAll_spec {attempts : List BatchAttempt} {applier : EqualityDeleteApplier}
    (h : HoldsAll ctx builder applier ∨ ∀ next ∈ attempts.head?, applier.currentState ≠ some next.batch.partition)
    (hleaves : LeavesPartition ctx builder applier attempts) :
    List.Forall₂ (AppliesAll ctx builder) attempts (applier.tryReadAll ctx builder attempts) := by
  induction attempts generalizing applier with
  | nil => exact .nil
  | cons attempt attempts ih =>
    obtain ⟨hfirst, hleaves⟩ := hleaves
    unfold tryReadAll
    by_cases hstate : applier.currentState = some attempt.batch.partition
    · have hinv : HoldsAll ctx builder applier := h.resolve_right (fun hnext => hnext attempt rfl hstate)
      obtain ⟨h1, h2⟩ := tryReadNext_reused hinv hstate
      exact .cons h1 (ih (.inl h2) hleaves)
    · obtain ⟨h1, h2⟩ := @tryReadNext_loading ctx builder applier attempt hstate
      refine .cons h1 (ih ?_ hleaves)
      rcases h2 with h2 | h2
      · exact .inl h2
      · right
        intro next hnext hsame
        rw [currentState_of_loadFails h2, Option.some_inj] at hsame
        exact hfirst h2 next hnext hsame.symm

end

/-- Over every sequence of batches and failures in which no batch follows a failed load of its
partition, every returned batch has all equality deletes of its partition applied, and a call
without failures returns the batch if it can be filtered at all. -/
theorem tryReadAll_appliesAll (ctx : EqualityDeleteContext) (builder : FileReaderBuilder) (attempts : List BatchAttempt)
    (hleaves : LeavesPartition ctx builder {} attempts) :
    List.Forall₂ (AppliesAll ctx builder) attempts (tryReadAll ctx builder {} attempts) := by
  refine tryReadAll_spec (.inl ?_) hleaves
  intro partition h
  cases h

/-- A batch of one row, which the delete of the partition deletes. -/
def deletedBatch (partition : Int) : IcebergBatch where
  partition := partition
  layer := 1
  path := bytes "data.parquet"
  rowPosition := 0
  columns := [(bytes "b", ⟨.int32, [⟨false, [5, 0, 0, 0]⟩], fiveSlot_fits⟩)]
  selectionVector := [0]

/-- A failed load, a batch of another partition, and the first one again. -/
def failedThenOther : List BatchAttempt :=
  [{ batch := deletedBatch 0, faults := fun _ => some (.opening "cannot open") }, { batch := deletedBatch 1 },
    { batch := deletedBatch 0 }]

theorem failedThenOther_appliesAll :
    LeavesPartition deleteOnSecondContext projectFirst {} failedThenOther ∧
      List.Forall₂ (AppliesAll deleteOnSecondContext projectFirst) failedThenOther
        (tryReadAll deleteOnSecondContext projectFirst {} failedThenOther) := by
  have hleaves : LeavesPartition deleteOnSecondContext projectFirst {} failedThenOther := by
    refine ⟨fun _ next hnext => ?_, fun _ next hnext => ?_, fun _ next hnext => (by cases hnext), trivial⟩
    · obtain rfl := Option.some_inj.mp hnext
      decide
    · obtain rfl := Option.some_inj.mp hnext
      decide
  exact ⟨hleaves, tryReadAll_appliesAll _ _ failedThenOther hleaves⟩

/-- The batch that is read again after a failed load keeps the deleted row. -/
theorem retriedBatch_keeps_deleted :
    ¬∀ (ctx : EqualityDeleteContext) (builder : FileReaderBuilder) (attempts : List BatchAttempt),
      List.Forall₂ (fun attempt result => ∀ out, result = .ok out → AllApplied ctx builder attempt.batch out)
        attempts (tryReadAll ctx builder {} attempts) := by
  intro h
  have hall := h deleteOnSecondContext projectFirst
    [{ batch := deletedBatch 0, faults := fun _ => some (.opening "cannot open") }, { batch := deletedBatch 0 }]
  simp only [tryReadAll, List.forall₂_cons] at hall
  obtain ⟨-, hsecond, -⟩ := hall
  obtain ⟨handler, applier, hset, happly⟩ := hsecond _ rfl
  have hdeleted : ((do
      let handler ← setDeletes deleteOnSecondContext projectFirst 0
      let result ← applyDeletes projectFirst ⟨handler, some 0⟩ (deletedBatch 0)
      return result.2.selectionVector : Except String (List Nat))) = .ok [] := by decide +kernel
  have hpartition : (deletedBatch 0).partition = 0 := rfl
  rw [hpartition] at hset happly
  rw [hset, ok_bind, happly, ok_bind] at hdeleted
  have hrow : [0] = ([] : List Nat) := Except.ok.inj hdeleted
  cases hrow

end IcebergCxx.Proofs

import IcebergCxx.PositionalDeleteApplier
import IcebergCxx.Proofs.PositionalDelete
import IcebergCxx.Proofs.SelectionVector

/-!
# Positional deletes after failures

A failed query loses the reader it was reading from. The applier makes a new stream unless the next
batch continues the last successful one, so deletes are lost only when a stream is used again after
a query on it has failed.
-/

namespace IcebergCxx.Proofs

open Lib PositionalDeleteStream PositionalDeleteApplier

/-! ### Selected rows -/

/-- On ascending rows `DeleteIfEqual` keeps the rows that are not deleted. -/
lemma deleteIfEqual_eq {rows : List Nat} {deleted : List Int} (hrows : rows.Pairwise (· < ·))
    (hdeleted : deleted.Pairwise (· < ·)) :
    deleteIfEqual rows deleted = rows.filter (fun row : Nat => (row : Int) ∉ deleted) := by
  have hcast : rows.Pairwise (fun i j : Nat => (i : Int) < (j : Int)) := hrows.imp Int.ofNat_lt.mpr
  rw [← deleteIfEqual_indices, deleteIfEqual_eq_filter hcast (hdeleted.imp le_of_lt)]

/-! ### Delete files of a partition -/

/-- The partition has the delete file in the layer. -/
def HasDeleteFile (deletes : PositionalDeletes) (partition layer : Int) (url : Bytes) : Prop :=
  ∃ layers infos, deletes.deleteEntries.find? partition = some layers ∧ layers.find? layer = some infos ∧
    ∃ info ∈ infos, info.path = url

/-- Some delete file of the partition with a layer from the batch's on holds the row. -/
def IsDeleted (deletes : PositionalDeletes) (cb : Bytes → DeleteFile) (batch : RowBatch) (pos : Int) : Prop :=
  ∃ layer url, batch.layer ≤ layer ∧ HasDeleteFile deletes batch.partition layer url ∧
    (some batch.path, some pos) ∈ cellsOf (cb url).rowGroups

lemma mem_filesOf {urls : OrdMap Int (List Bytes)} {layer : Int} {url : Bytes} :
    (layer, url) ∈ filesOf urls ↔ url ∈ (urls.find? layer).getD [] := by
  unfold filesOf
  simp only [List.mem_flatMap, List.mem_map, Prod.mk.injEq]
  constructor
  · rintro ⟨⟨l, paths⟩, hentry, url', hurl', rfl, rfl⟩
    rw [(urls.mem_entries l paths).mp hentry]
    exact hurl'
  · intro h
    cases hfind : urls.find? layer with
    | none => simp [hfind] at h
    | some paths =>
      rw [hfind] at h
      exact ⟨(layer, paths), (urls.mem_entries layer paths).mpr hfind, url, h, rfl, rfl⟩

lemma mem_addDeleteUrls {urls : OrdMap Int (List Bytes)} {entry : Int × List PositionalDeleteInfo} {layer : Int}
    {url : Bytes} :
    url ∈ ((addDeleteUrls urls entry).find? layer).getD [] ↔
      url ∈ (urls.find? layer).getD [] ∨ (layer = entry.1 ∧ ∃ info ∈ entry.2, info.path = url) := by
  obtain ⟨l, infos⟩ := entry
  unfold addDeleteUrls
  dsimp only
  induction infos generalizing urls with
  | nil => simp
  | cons info infos ih =>
    rw [List.foldl_cons, ih, OrdMap.find?_alter]
    split_ifs with hl
    · subst hl
      simp [or_assoc, eq_comm]
    · simp [hl]

lemma mem_foldl_addDeleteUrls {entries : List (Int × List PositionalDeleteInfo)} {urls : OrdMap Int (List Bytes)}
    {layer : Int} {url : Bytes} :
    url ∈ ((entries.foldl addDeleteUrls urls).find? layer).getD [] ↔
      url ∈ (urls.find? layer).getD [] ∨ ∃ entry ∈ entries, layer = entry.1 ∧ ∃ info ∈ entry.2, info.path = url := by
  induction entries generalizing urls with
  | nil => simp
  | cons entry entries ih =>
    rw [List.foldl_cons, ih, mem_addDeleteUrls]
    simp [or_assoc]

lemma mem_getDeleteUrls {deletes : PositionalDeletes} {partition layer : Int} {url : Bytes} :
    (layer, url) ∈ filesOf (deletes.getDeleteUrls partition) ↔ HasDeleteFile deletes partition layer url := by
  rw [mem_filesOf, PositionalDeletes.getDeleteUrls, mem_foldl_addDeleteUrls, OrdMap.find?_empty, Option.getD_none,
    or_iff_right List.not_mem_nil]
  unfold HasDeleteFile
  constructor
  · rintro ⟨⟨l, infos⟩, hentry, rfl, hinfo⟩
    cases hlayers : deletes.deleteEntries.find? partition with
    | none =>
      rw [hlayers] at hentry
      cases hentry
    | some layers =>
      rw [hlayers, Option.getD_some, OrdMap.mem_entries] at hentry
      exact ⟨layers, infos, rfl, hentry, hinfo⟩
  · rintro ⟨layers, infos, hlayers, hinfos, hinfo⟩
    refine ⟨(layer, infos), ?_, rfl, hinfo⟩
    rw [hlayers, Option.getD_some, OrdMap.mem_entries]
    exact hinfos

/-! ### Queries that can fail -/

section
variable {Q : MinQueue Reader.getPosition} {F : Int → DeleteCell → Prop} {query : Query} {dataLayer : Int}

/-- A round that does not fail is a round of the loop without failures. -/
lemma tryGetDeletedStep_ok {fault : Option String} {s : LoopState} {t : LoopState ⊕ LoopState}
    (h : tryGetDeletedStep Q fault query dataLayer s = .ok t) : getDeletedStep Q query dataLayer s = .ok t := by
  unfold tryGetDeletedStep at h
  cases hpop : Q.pop s.2 with
  | none =>
    rw [hpop] at h
    unfold getDeletedStep
    rw [hpop]
    rw [Except.ok.inj h]
  | some popped =>
    rw [hpop] at h
    cases hstep : getDeletedStep Q query dataLayer s with
    | error message => simp [hstep] at h
    | ok u =>
      cases u with
      | inr t' => simpa [hstep] using h
      | inl t' => cases fault <;> simp_all

/-- Without a fault the round is that of the loop without failures. -/
lemma tryGetDeletedStep_none {s : LoopState} {t : LoopState ⊕ LoopState}
    (h : getDeletedStep Q query dataLayer s = .ok t) : tryGetDeletedStep Q none query dataLayer s = .ok t := by
  unfold tryGetDeletedStep
  cases hpop : Q.pop s.2 with
  | none =>
    unfold getDeletedStep at h
    rw [hpop] at h
    rw [Except.ok.inj h]
  | some popped =>
    dsimp only
    rw [h]
    cases t <;> rfl

lemma tryGetDeletedLoop_ok {faults : Nat → Option String} (hquery : query.begin ≤ query.finish) {n round : Nat}
    {s t : LoopState} (hs : LoopInv F query dataLayer s) (h : tryGetDeletedLoop Q faults query dataLayer n round s = .ok t) :
    LoopEnd F query dataLayer t := by
  induction n generalizing round s with
  | zero => cases h
  | succ n ih =>
    unfold tryGetDeletedLoop at h
    cases hstep : tryGetDeletedStep Q (faults round) query dataLayer s with
    | error thrown => simp [hstep] at h
    | ok u =>
      have hround := tryGetDeletedStep_ok hstep
      rcases getDeletedStep_spec (Q := Q) hquery s hs with ⟨s', h1, h2, -⟩ | ⟨t', h1, h2⟩
      · obtain rfl : Sum.inl s' = u := Except.ok.inj (h1.symm.trans hround)
        rw [hstep] at h
        exact ih h2 h
      · obtain rfl : Sum.inr t' = u := Except.ok.inj (h1.symm.trans hround)
        rw [hstep] at h
        obtain rfl : t' = t := Except.ok.inj h
        exact h2

/-- Without faults the loop ends. -/
lemma tryGetDeletedLoop_total (hquery : query.begin ≤ query.finish) {n round : Nat} {s : LoopState}
    (hs : LoopInv F query dataLayer s) (hn : loopWork s < n) :
    ∃ t, tryGetDeletedLoop Q (fun _ => none) query dataLayer n round s = .ok t := by
  induction n generalizing round s with
  | zero => omega
  | succ n ih =>
    unfold tryGetDeletedLoop
    rcases getDeletedStep_spec (Q := Q) hquery s hs with ⟨s', h1, h2, h3⟩ | ⟨t', h1, h2⟩
    · rw [tryGetDeletedStep_none h1]
      exact ih h2 (by omega)
    · rw [tryGetDeletedStep_none h1]
      exact ⟨t', rfl⟩

lemma tryGetDeleted_ok {faults : Nat → Option String} {stream stream' : PositionalDeleteStream} {rows : List Int}
    (hinv : StreamInv F stream) (hquery : query.begin ≤ query.finish)
    (h : tryGetDeleted Q faults stream query dataLayer = .ok (rows, stream')) :
    StreamInv F stream' ∧ stream'.lastQuery = some query ∧ IsAnswer F (query, dataLayer) rows := by
  unfold tryGetDeleted at h
  split_ifs at h with horder
  cases hloop : tryGetDeletedLoop Q faults query dataLayer (loopWork ([], stream.queue) + 1) 0 ([], stream.queue) with
  | error thrown => simp [hloop] at h
  | ok t =>
    have hend := tryGetDeletedLoop_ok hquery (hinv.loopInv dataLayer hquery horder) hloop
    simp only [hloop, Except.ok.injEq, Prod.mk.injEq] at h
    obtain ⟨rfl, rfl⟩ := h
    exact ⟨⟨hend.ok, hend.kept⟩, rfl, hend.increasing, hend.exact⟩

lemma tryGetDeleted_total {stream : PositionalDeleteStream} (hinv : StreamInv F stream)
    (hquery : query.begin ≤ query.finish) (horder : inOrder stream.lastQuery query = true) :
    ∃ rows stream', tryGetDeleted Q (fun _ => none) stream query dataLayer = .ok (rows, stream') := by
  obtain ⟨t, ht⟩ : ∃ t, tryGetDeletedLoop Q (fun _ => none) query dataLayer (loopWork ([], stream.queue) + 1) 0
      ([], stream.queue) = .ok t :=
    tryGetDeletedLoop_total hquery (hinv.loopInv dataLayer hquery horder) (Nat.lt_succ_self _)
  refine ⟨t.1, ⟨t.2, some query⟩, ?_⟩
  unfold tryGetDeleted
  rw [if_pos horder, ht]

lemma foldlM_tryOpenFile_ok {openFaults : Bytes → Option String} {cb : Bytes → DeleteFile} {files : List (Int × Bytes)}
    {queue queue' : List Reader} (h : files.foldlM (tryOpenFile Q openFaults cb) queue = .ok queue') :
    files.foldlM (openFile Q cb) queue = .ok queue' := by
  induction files generalizing queue with
  | nil => exact h
  | cons file files ih =>
    rw [List.foldlM_cons] at h ⊢
    obtain ⟨queue₁, h1, h2⟩ := bind_ok h
    unfold tryOpenFile at h1
    split at h1
    · cases h1
    · rw [h1, ok_bind]
      exact ih h2

lemma tryMake_none (urls : OrdMap Int (List Bytes)) (cb : Bytes → DeleteFile) :
    tryMake Q (fun _ => none) urls cb = make Q urls cb := rfl

/-- A stream that could be made holds all records of its files. -/
lemma tryMake_ok {openFaults : Bytes → Option String} {urls : OrdMap Int (List Bytes)} {cb : Bytes → DeleteFile}
    (hwf : ∀ f ∈ filesOf urls, WellFormedDeleteFile (cb f.2)) (hbounds : ∀ f ∈ filesOf urls, EmptyGroupsInBounds (cb f.2))
    {stream : PositionalDeleteStream} (h : tryMake Q openFaults urls cb = .ok stream) :
    StreamInv (FilesHold ((filesOf urls).map (fun f => (f.1, cb f.2)))) stream ∧ stream.lastQuery = none := by
  obtain ⟨queue, hopen, hstream⟩ := bind_ok h
  obtain rfl := Except.ok.inj hstream
  obtain ⟨queue', hopen', hok, hpend⟩ :=
    openFiles_spec (Q := Q) hwf hbounds (fun r hr => absurd hr List.not_mem_nil)
  obtain rfl : queue' = queue := Except.ok.inj (hopen'.symm.trans (foldlM_tryOpenFile_ok hopen))
  refine ⟨⟨hok, fun layer c _ => ?_⟩, rfl⟩
  rw [hpend]
  simp [Pending]

end

/-! ### Calls of `ReadNext` -/

/-- The delete files of all partitions are well formed, and none has an empty row group whose
statistics start behind a later record. -/
structure SoundDeleteFiles (deletes : PositionalDeletes) (cb : Bytes → DeleteFile) : Prop where
  wellFormed : ∀ partition layer url, HasDeleteFile deletes partition layer url → WellFormedDeleteFile (cb url)
  inBounds : ∀ partition layer url, HasDeleteFile deletes partition layer url → EmptyGroupsInBounds (cb url)

/-- The records of the delete files of a partition. -/
def PartitionHolds (deletes : PositionalDeletes) (cb : Bytes → DeleteFile) (partition : Int) : Int → DeleteCell → Prop :=
  FilesHold ((filesOf (deletes.getDeleteUrls partition)).map (fun f => (f.1, cb f.2)))

lemma partitionHolds_iff {deletes : PositionalDeletes} {cb : Bytes → DeleteFile} {partition layer : Int} {c : DeleteCell} :
    PartitionHolds deletes cb partition layer c ↔
      ∃ url, HasDeleteFile deletes partition layer url ∧ c ∈ cellsOf (cb url).rowGroups := by
  simp only [← mem_getDeleteUrls]
  constructor
  · rintro ⟨file, hfile, rfl, hc⟩
    obtain ⟨⟨l, url⟩, hmem, rfl⟩ := List.mem_map.mp hfile
    exact ⟨url, hmem, hc⟩
  · rintro ⟨url, hmem, hc⟩
    exact ⟨(layer, cb url), List.mem_map.mpr ⟨(layer, url), hmem, rfl⟩, rfl, hc⟩

section
open Classical

/-- The batch without the deleted rows. -/
noncomputable def withoutDeleted (deletes : PositionalDeletes) (cb : Bytes → DeleteFile) (batch : RowBatch) : RowBatch :=
  batch.select (batch.selectionVector.filter (fun row => ¬IsDeleted deletes cb batch (batch.rowPosition + row)))
    List.filter_sublist

lemma mem_withoutDeleted {deletes : PositionalDeletes} {cb : Bytes → DeleteFile} {batch : RowBatch} {row : Nat} :
    row ∈ (withoutDeleted deletes cb batch).selectionVector ↔
      row ∈ batch.selectionVector ∧ ¬IsDeleted deletes cb batch (batch.rowPosition + row) := by
  simp [withoutDeleted, RowBatch.select]

end

/-- A state the next batch may continue: the stream has all records from the recorded position on. -/
def Continues (deletes : PositionalDeletes) (cb : Bytes → DeleteFile) (applier : PositionalDeleteApplier) : Prop :=
  ∀ state, applier.currentState = some state → ∃ stream, applier.positionalDelete = some stream ∧
    StreamInv (PartitionHolds deletes cb state.partition) stream ∧
    ∃ last, stream.lastQuery = some last ∧ last.url = state.path ∧ last.finish = state.rowPosition

/-- What a call returns: the batch without the deleted rows, and at any rate when nothing fails. -/
def Serves (deletes : PositionalDeletes) (cb : Bytes → DeleteFile) (attempt : ReadAttempt)
    (result : Except String RowBatch) : Prop :=
  (∀ batch, result = .ok batch → batch = withoutDeleted deletes cb attempt.batch) ∧
    (attempt.openFaults = (fun _ => none) → attempt.readFaults = (fun _ => none) → ∃ batch, result = .ok batch)

section
variable {Q : MinQueue Reader.getPosition} {deletes : PositionalDeletes} {cb : Bytes → DeleteFile}

/-- An exact answer removes the deleted rows. -/
lemma select_eq_withoutDeleted {batch : RowBatch} {rows : List Int}
    (h : IsAnswer (PartitionHolds deletes cb batch.partition) (queryOf batch, batch.layer) rows) :
    batch.select (deleteIfEqual batch.selectionVector (rows.map (fun row => row - batch.rowPosition)))
      (deleteIfEqual_sublist _ _) = withoutDeleted deletes cb batch := by
  have hsorted : (rows.map (fun row => row - batch.rowPosition)).Pairwise (· < ·) := by
    rw [List.pairwise_map]
    exact h.1.imp (fun hlt => by omega)
  have hmem : ∀ row ∈ batch.selectionVector,
      ((row : Int) ∈ rows.map (fun row => row - batch.rowPosition) ↔
        IsDeleted deletes cb batch (batch.rowPosition + row)) := by
    intro row hrow
    have hrange := batch.inRange row hrow
    have hrows : (row : Int) ∈ rows.map (fun row => row - batch.rowPosition) ↔ batch.rowPosition + row ∈ rows := by
      rw [List.mem_map]
      constructor
      · rintro ⟨r, hr, heq⟩
        rwa [show batch.rowPosition + (row : Int) = r by omega]
      · intro hr
        exact ⟨_, hr, by omega⟩
    rw [hrows, h.2]
    unfold IsDeleted Deletes queryOf
    simp only [partitionHolds_iff]
    constructor
    · rintro ⟨-, -, layer, hlayer, url, hfile, hc⟩
      exact ⟨layer, url, hlayer, hfile, hc⟩
    · rintro ⟨layer, url, hlayer, hfile, hc⟩
      exact ⟨by omega, by omega, layer, hlayer, url, hfile, hc⟩
  have hvector : deleteIfEqual batch.selectionVector (rows.map (fun row => row - batch.rowPosition)) =
      (withoutDeleted deletes cb batch).selectionVector := by
    rw [deleteIfEqual_eq batch.increasing hsorted]
    apply List.filter_congr
    intro row hrow
    exact decide_eq_decide.mpr (not_congr (hmem row hrow))
  unfold withoutDeleted RowBatch.select at hvector ⊢
  simp only at hvector
  simp only [hvector]

/-- A query on a sound stream: the batch is right and can be continued, or the position stays. -/
lemma applyDeletes_spec {readFaults : Nat → Option String} {applier : PositionalDeleteApplier}
    {stream : PositionalDeleteStream} {batch : RowBatch}
    (hinv : StreamInv (PartitionHolds deletes cb batch.partition) stream)
    (horder : inOrder stream.lastQuery (queryOf batch) = true) :
    (∀ b, (applyDeletes Q readFaults applier stream batch).1 = .ok b →
      b = withoutDeleted deletes cb batch ∧ Continues deletes cb (applyDeletes Q readFaults applier stream batch).2) ∧
    (∀ e, (applyDeletes Q readFaults applier stream batch).1 = .error e →
      (applyDeletes Q readFaults applier stream batch).2.currentState = applier.currentState) ∧
    (readFaults = (fun _ => none) → ∃ b, (applyDeletes Q readFaults applier stream batch).1 = .ok b) := by
  have hquery : (queryOf batch).begin ≤ (queryOf batch).finish := by
    simp [queryOf]
  unfold applyDeletes
  cases hget : tryGetDeleted Q readFaults stream (queryOf batch) batch.layer with
  | error thrown =>
    refine ⟨fun b h => (by cases h), fun e _ => rfl, ?_⟩
    rintro rfl
    obtain ⟨rows, stream', htotal⟩ := @tryGetDeleted_total Q _ _ batch.layer _ hinv hquery horder
    rw [htotal] at hget
    cases hget
  | ok answer =>
    obtain ⟨rows, stream'⟩ := answer
    obtain ⟨h1, h2, h3⟩ := tryGetDeleted_ok hinv hquery hget
    refine ⟨fun b h => ?_, fun e h => (by cases h), fun _ => ⟨_, rfl⟩⟩
    obtain rfl := Except.ok.inj h
    refine ⟨select_eq_withoutDeleted h3, ?_⟩
    intro state hstate
    obtain rfl := Option.some_inj.mp hstate
    exact ⟨stream', rfl, h1, _, h2, rfl, rfl⟩

/-- A stream that continues accepts the query of a batch behind the recorded position. -/
lemma inOrder_of_canReuseState {applier : PositionalDeleteApplier} {batch : RowBatch}
    {state : PartitionLayerFilePosition} (hstate : applier.currentState = some state)
    (hreuse : applier.canReuseState batch = true) {last : Query} (hurl : last.url = state.path)
    (hfinish : last.finish = state.rowPosition) :
    state.partition = batch.partition ∧ inOrder (some last) (queryOf batch) = true := by
  unfold canReuseState at hreuse
  rw [hstate] at hreuse
  simp only [decide_eq_true_eq] at hreuse
  refine ⟨hreuse.1, ?_⟩
  unfold inOrder queryOf
  simp only [hurl, hfinish, decide_eq_true_eq]
  exact hreuse.2.imp id (fun h => ⟨h.1.symm, h.2⟩)

/-- A call on a stream that continues. -/
lemma readNext_reused {applier : PositionalDeleteApplier} {attempt : ReadAttempt} (h : Continues deletes cb applier)
    (hreuse : applier.canReuseState attempt.batch = true) :
    Serves deletes cb attempt (applier.readNext Q deletes cb attempt).1 ∧
      (Continues deletes cb (applier.readNext Q deletes cb attempt).2 ∨
        ∃ e, (applier.readNext Q deletes cb attempt).1 = .error e) := by
  obtain ⟨state, hstate⟩ : ∃ state, applier.currentState = some state := by
    unfold canReuseState at hreuse
    cases hstate : applier.currentState with
    | none => simp [hstate] at hreuse
    | some state => exact ⟨state, rfl⟩
  obtain ⟨stream, hstream, hinv, last, hlast, hurl, hfinish⟩ := h state hstate
  obtain ⟨hpartition, horder⟩ := inOrder_of_canReuseState hstate hreuse hurl hfinish
  rw [hpartition] at hinv
  rw [← hlast] at horder
  unfold readNext
  rw [if_pos hreuse, hstream]
  obtain ⟨h1, -, h3⟩ := @applyDeletes_spec Q deletes cb attempt.readFaults applier stream attempt.batch hinv horder
  refine ⟨⟨fun b hb => (h1 b hb).1, fun _ hnone => h3 hnone⟩, ?_⟩
  cases hresult : (applyDeletes Q attempt.readFaults applier stream attempt.batch).1 with
  | error e => exact .inr ⟨e, rfl⟩
  | ok b => exact .inl (h1 b hresult).2

lemma continues_of_none {applier : PositionalDeleteApplier} (h : applier.currentState = none) :
    Continues deletes cb applier := by
  intro state hstate
  rw [h] at hstate
  cases hstate

/-- A partition without delete files has no deleted rows. -/
lemma withoutDeleted_of_notContains {batch : RowBatch} (h : ¬deletes.deleteEntries.contains batch.partition = true) :
    withoutDeleted deletes cb batch = batch := by
  have hnone : ∀ pos, ¬IsDeleted deletes cb batch pos := by
    rintro pos ⟨layer, url, -, ⟨layers, infos, hlayers, -⟩, -⟩
    simp [OrdMap.contains, hlayers] at h
  unfold withoutDeleted RowBatch.select
  simp [hnone]

/-- A call that makes a new stream, whatever the applier was left with. -/
lemma readNext_afresh (hfiles : SoundDeleteFiles deletes cb) {applier : PositionalDeleteApplier} {attempt : ReadAttempt}
    (hreuse : applier.canReuseState attempt.batch = false) :
    Serves deletes cb attempt (applier.readNext Q deletes cb attempt).1 ∧
      Continues deletes cb (applier.readNext Q deletes cb attempt).2 := by
  have hwf : ∀ f ∈ filesOf (deletes.getDeleteUrls attempt.batch.partition), WellFormedDeleteFile (cb f.2) :=
    fun f hf => hfiles.wellFormed _ f.1 f.2 (mem_getDeleteUrls.mp hf)
  have hbounds : ∀ f ∈ filesOf (deletes.getDeleteUrls attempt.batch.partition), EmptyGroupsInBounds (cb f.2) :=
    fun f hf => hfiles.inBounds _ f.1 f.2 (mem_getDeleteUrls.mp hf)
  unfold readNext
  rw [hreuse]
  simp only [Bool.false_eq_true, if_false]
  split_ifs with hcontains
  · cases hmake : tryMake Q attempt.openFaults (deletes.getDeleteUrls attempt.batch.partition) cb with
    | error message =>
      refine ⟨⟨fun b h => (by cases h), fun hopen _ => ?_⟩, continues_of_none rfl⟩
      obtain ⟨queue, hqueue, -⟩ := openFiles_spec (Q := Q) hwf hbounds (fun r hr => absurd hr List.not_mem_nil)
      rw [hopen, tryMake_none, make, hqueue] at hmake
      cases hmake
    | ok stream =>
      obtain ⟨hinv, hlast⟩ := tryMake_ok hwf hbounds hmake
      have horder : inOrder stream.lastQuery (queryOf attempt.batch) = true := by
        rw [hlast]
        rfl
      obtain ⟨h1, h2, h3⟩ := @applyDeletes_spec Q deletes cb attempt.readFaults { positionalDelete := some stream }
        stream attempt.batch hinv horder
      refine ⟨⟨fun b hb => (h1 b hb).1, fun _ hnone => h3 hnone⟩, ?_⟩
      cases hresult : (applyDeletes Q attempt.readFaults { positionalDelete := some stream } stream attempt.batch).1 with
      | error e => exact continues_of_none (h2 e hresult)
      | ok b => exact (h1 b hresult).2
  · refine ⟨⟨fun b hb => ?_, fun _ _ => ⟨_, rfl⟩⟩, continues_of_none rfl⟩
    rw [withoutDeleted_of_notContains hcontains]
    exact (Except.ok.inj hb).symm

/-- After a call that failed on the stream of the batch before, the next batch does not go on from
the recorded position. -/
def RetriesAfresh (Q : MinQueue Reader.getPosition) (deletes : PositionalDeletes) (cb : Bytes → DeleteFile)
    (applier : PositionalDeleteApplier) : List ReadAttempt → Prop
  | [] => True
  | attempt :: attempts =>
    (applier.canReuseState attempt.batch = true → (∃ e, (applier.readNext Q deletes cb attempt).1 = .error e) →
      ∀ next ∈ attempts.head?, (applier.readNext Q deletes cb attempt).2.canReuseState next.batch = false) ∧
    RetriesAfresh Q deletes cb (applier.readNext Q deletes cb attempt).2 attempts

/-- What holds between two calls: the stream is sound, or the next batch does not use it. -/
lemma readAll_spec (hfiles : SoundDeleteFiles deletes cb) {attempts : List ReadAttempt} {applier : PositionalDeleteApplier}
    (h : Continues deletes cb applier ∨ ∀ next ∈ attempts.head?, applier.canReuseState next.batch = false)
    (hretry : RetriesAfresh Q deletes cb applier attempts) :
    List.Forall₂ (Serves deletes cb) attempts (applier.readAll Q deletes cb attempts) := by
  induction attempts generalizing applier with
  | nil => exact .nil
  | cons attempt attempts ih =>
    obtain ⟨hfirst, hretry⟩ := hretry
    unfold readAll
    cases hreuse : applier.canReuseState attempt.batch with
    | false =>
      obtain ⟨h1, h2⟩ := @readNext_afresh Q deletes cb hfiles applier attempt hreuse
      exact .cons h1 (ih (.inl h2) hretry)
    | true =>
      have hcontinues : Continues deletes cb applier := by
        rcases h with h | h
        · exact h
        · have := h attempt rfl
          rw [hreuse] at this
          cases this
      obtain ⟨h1, h2⟩ := @readNext_reused Q deletes cb applier attempt hcontinues hreuse
      refine .cons h1 (ih ?_ hretry)
      rcases h2 with h2 | h2
      · exact .inl h2
      · exact .inr (hfirst hreuse h2)

end

section
variable {Q : MinQueue Reader.getPosition} {deletes : PositionalDeletes} {cb : Bytes → DeleteFile}

/-- A call of `ReadNext` in which no file fails. -/
def faultless (batch : RowBatch) : ReadAttempt where
  batch := batch

lemma Serves.eq_ok {batch : RowBatch} {result : Except String RowBatch}
    (h : Serves deletes cb (faultless batch) result) : result = .ok (withoutDeleted deletes cb batch) := by
  obtain ⟨returned, hresult⟩ := h.2 rfl rfl
  rw [hresult, h.1 returned hresult]
  rfl

/-- Without failures a call returns the batch without its deleted rows, and can be continued. -/
lemma readNext_faultless (hfiles : SoundDeleteFiles deletes cb) {applier : PositionalDeleteApplier}
    (h : Continues deletes cb applier) (batch : RowBatch) :
    (applier.readNext Q deletes cb (faultless batch)).1 = .ok (withoutDeleted deletes cb batch) ∧
      Continues deletes cb (applier.readNext Q deletes cb (faultless batch)).2 := by
  cases hreuse : applier.canReuseState batch with
  | false =>
    obtain ⟨hserves, hcontinues⟩ := @readNext_afresh Q deletes cb hfiles applier (faultless batch) hreuse
    exact ⟨hserves.eq_ok, hcontinues⟩
  | true =>
    obtain ⟨hserves, hcontinues⟩ := @readNext_reused Q deletes cb applier (faultless batch) h hreuse
    refine ⟨hserves.eq_ok, ?_⟩
    rcases hcontinues with hcontinues | ⟨e, he⟩
    · exact hcontinues
    · rw [hserves.eq_ok] at he
      cases he

lemma readAll_faultless (hfiles : SoundDeleteFiles deletes cb) {applier : PositionalDeleteApplier}
    (h : Continues deletes cb applier) (batches : List RowBatch) :
    readAll Q deletes cb applier (batches.map faultless) =
      batches.map (fun batch => .ok (withoutDeleted deletes cb batch)) := by
  induction batches generalizing applier with
  | nil => rfl
  | cons batch batches ih =>
    obtain ⟨hresult, hcontinues⟩ := @readNext_faultless Q deletes cb hfiles applier h batch
    rw [List.map_cons, readAll, hresult, ih hcontinues, List.map_cons]

end

/-- Over every sequence of batches, in any order, every call returns its batch without exactly the
deleted rows; in particular no query comes out of order. -/
theorem readAll_exact (Q : MinQueue Reader.getPosition) (deletes : PositionalDeletes) (cb : Bytes → DeleteFile)
    (hfiles : SoundDeleteFiles deletes cb) (batches : List RowBatch) :
    readAll Q deletes cb {} (batches.map faultless) =
      batches.map (fun batch => .ok (withoutDeleted deletes cb batch)) :=
  readAll_faultless hfiles (continues_of_none rfl) batches

/-- Over every sequence of batches and failures in which no stream is used again after a query on it
has failed, every returned batch has all its deleted rows removed, and every call without failures
returns its batch. -/
theorem readAll_serves (Q : MinQueue Reader.getPosition) (deletes : PositionalDeletes) (cb : Bytes → DeleteFile)
    (hfiles : SoundDeleteFiles deletes cb) (attempts : List ReadAttempt)
    (hretry : RetriesAfresh Q deletes cb {} attempts) :
    List.Forall₂ (Serves deletes cb) attempts (readAll Q deletes cb {} attempts) :=
  readAll_spec hfiles (.inl (continues_of_none rfl)) hretry

/-- A delete file with three rows of one data file. -/
def threeDeletes : DeleteFile where
  rowGroups := [{ rows := [(some (bytes "a"), some 0), (some (bytes "a"), some 1), (some (bytes "a"), some 2)] }]

/-- One partition with one delete file in layer 0. -/
def oneDeleteFile : PositionalDeletes where
  deleteEntries := OrdMap.insert ∅ 0 (OrdMap.insert ∅ 0 [⟨bytes "d"⟩])

/-- A batch of one row at a position of the data file. -/
def oneRowBatch (position : Int) : RowBatch where
  partition := 0
  layer := 0
  path := bytes "a"
  rowPosition := position
  columns := []
  selectionVector := [0]
  numRows := 1
  increasing := List.pairwise_singleton _ _
  inRange := by decide

lemma threeDeletes_sound (deletes : PositionalDeletes) : SoundDeleteFiles deletes (fun _ => threeDeletes) where
  wellFormed := by
    intro partition layer url _
    refine ⟨.inl rfl, ?_, by decide, ?_⟩
    · simp [cellsOf, threeDeletes, IsRecord, bytes]
    · simp [threeDeletes, ValidStatistics]
  inBounds := by
    intro partition layer url _ before group after hsplit hrows
    have hgroups : ∀ g ∈ threeDeletes.rowGroups, g.rows ≠ [] := by decide
    exact absurd hrows (hgroups group (by rw [hsplit]; exact List.mem_append_right _ List.mem_cons_self))

/-- Three batches of one data file, the last before the others: its stream is made anew. -/
theorem readAll_exact_backwards :
    readAll (firstMin Reader.getPosition) oneDeleteFile (fun _ => threeDeletes) {}
        ([oneRowBatch 1, oneRowBatch 2, oneRowBatch 0].map faultless) =
      [oneRowBatch 1, oneRowBatch 2, oneRowBatch 0].map
        (fun batch => .ok (withoutDeleted oneDeleteFile (fun _ => threeDeletes) batch)) :=
  readAll_exact _ _ _ (threeDeletes_sound _) _

lemma strayDeleteFile_wellFormed : WellFormedDeleteFile strayDeleteFile := by
  refine ⟨.inl rfl, ?_, by decide, ?_⟩
  · simp [cellsOf, strayDeleteFile, IsRecord, bytes]
  · simp [strayDeleteFile, ValidStatistics]

/-- The row at position 1 is still selected, which the delete file deletes. -/
theorem strayDeleteFile_row_kept :
    ¬∀ (Q : MinQueue Reader.getPosition) (deletes : PositionalDeletes) (cb : Bytes → DeleteFile),
      (∀ partition layer url, HasDeleteFile deletes partition layer url → WellFormedDeleteFile (cb url)) →
      ∀ batches : List RowBatch, readAll Q deletes cb {} (batches.map faultless) =
        batches.map (fun batch => .ok (withoutDeleted deletes cb batch)) := by
  intro h
  have hall := h (firstMin Reader.getPosition) oneDeleteFile (fun _ => strayDeleteFile)
    (fun _ _ _ _ => strayDeleteFile_wellFormed) [oneRowBatch 1]
  have hkept : readAll (firstMin Reader.getPosition) oneDeleteFile (fun _ => strayDeleteFile) {}
      ([oneRowBatch 1].map faultless) = [.ok (oneRowBatch 1)] := rfl
  rw [hkept, List.map_singleton, List.singleton_inj, Except.ok.injEq] at hall
  have hdeleted : IsDeleted oneDeleteFile (fun _ => strayDeleteFile) (oneRowBatch 1) 1 :=
    ⟨0, bytes "d", le_rfl, ⟨_, _, rfl, rfl, _, List.mem_singleton_self _, rfl⟩, by decide⟩
  have hmem : 0 ∈ (withoutDeleted oneDeleteFile (fun _ => strayDeleteFile) (oneRowBatch 1)).selectionVector := by
    rw [← hall]
    exact List.mem_singleton_self 0
  exact (mem_withoutDeleted.mp hmem).2 hdeleted

/-- A failure on a new stream, then the other batches. -/
def failedFirst : List ReadAttempt :=
  [{ batch := oneRowBatch 0, readFaults := fun _ => some "read error" }, { batch := oneRowBatch 1 },
    { batch := oneRowBatch 2 }]

theorem failedFirst_served :
    RetriesAfresh (firstMin Reader.getPosition) oneDeleteFile (fun _ => threeDeletes) {} failedFirst ∧
      List.Forall₂ (Serves oneDeleteFile (fun _ => threeDeletes)) failedFirst
        (readAll (firstMin Reader.getPosition) oneDeleteFile (fun _ => threeDeletes) {} failedFirst) := by
  have hretry : RetriesAfresh (firstMin Reader.getPosition) oneDeleteFile (fun _ => threeDeletes) {} failedFirst := by
    refine ⟨fun h => absurd h (by decide), fun h => absurd h (by decide), ?_, trivial⟩
    intro _ _ next hnext
    cases hnext
  exact ⟨hretry, readAll_serves _ _ _ (threeDeletes_sound _) failedFirst hretry⟩

/-- A failure on the stream of the batch before, and a batch that goes on from it. -/
def failedSecond : List ReadAttempt :=
  [{ batch := oneRowBatch 0 }, { batch := oneRowBatch 1, readFaults := fun _ => some "read error" },
    { batch := oneRowBatch 2 }]

/-- The third batch keeps its row, which the delete file deletes. -/
theorem failedSecond_keeps_deleted :
    ¬∀ (Q : MinQueue Reader.getPosition) (deletes : PositionalDeletes) (cb : Bytes → DeleteFile),
      SoundDeleteFiles deletes cb → ∀ attempts : List ReadAttempt,
        List.Forall₂ (fun attempt result => ∀ batch : RowBatch, result = .ok batch →
            ∀ row ∈ batch.selectionVector, ¬IsDeleted deletes cb attempt.batch (attempt.batch.rowPosition + row))
          attempts (readAll Q deletes cb {} attempts) := by
  intro h
  have hall := h (firstMin Reader.getPosition) oneDeleteFile (fun _ => threeDeletes) (threeDeletes_sound _) failedSecond
  simp only [failedSecond, readAll, List.forall₂_cons] at hall
  obtain ⟨-, -, hthird, -⟩ := hall
  apply hthird _ rfl 0 (by decide)
  exact ⟨0, bytes "d", le_rfl, ⟨_, _, rfl, rfl, _, List.mem_singleton_self _, rfl⟩, by decide⟩

end IcebergCxx.Proofs

import IcebergCxx.MetadataChecker

/-!
# What the checkers of table metadata accept

A checker puts conditions together that each throw or make the result false. The Java-compatible checker drops the
result of the default one, so the two agree where a failed condition is fatal.
-/

namespace IcebergCxx.Proofs

open Lib

variable {checker : MetadataChecker} {metadata : TableMetadataV2}

/-! ### Conditions put together -/

/-- The result is kept where the condition holds; otherwise the call throws, or the result is false. -/
structure Decides (checker : MetadataChecker) (call : Bool → Except Failure Bool) (condition : Prop) : Prop where
  holds : condition → ∀ result, call result = .ok result
  fatal : ¬condition → checker.fatalOnError = true → ∀ result, Throws (call result)
  fails : ¬condition → checker.fatalOnError = false → ∀ result, call result = .ok false

lemma decides_andEnsure (checker : MetadataChecker) (condition : Bool) (message : String) :
    Decides checker (fun result => checker.andEnsure result condition message) (condition = true) where
  holds := fun h result => by rw [MetadataChecker.andEnsure, if_pos h]
  fatal := fun h hfatal result => ⟨message, by rw [MetadataChecker.andEnsure, if_neg h, if_pos hfatal]⟩
  fails := fun h hfatal result => by rw [MetadataChecker.andEnsure, if_neg h, if_neg (by simp [hfatal])]

lemma Decides.bind {first second : Bool → Except Failure Bool} {p q : Prop} (h : Decides checker first p)
    (h' : Decides checker second q) : Decides checker (fun result => first result >>= second) (p ∧ q) where
  holds := fun hpq result => by rw [h.holds hpq.1, ok_bind, h'.holds hpq.2]
  fatal := fun hpq hfatal result => by
    by_cases hp : p
    · rw [h.holds hp, ok_bind]
      exact h'.fatal (fun hq => hpq ⟨hp, hq⟩) hfatal result
    · obtain ⟨message, hthrow⟩ := h.fatal hp hfatal result
      exact ⟨message, by rw [hthrow, error_bind]⟩
  fails := fun hpq hfatal result => by
    by_cases hp : p
    · rw [h.holds hp, ok_bind, h'.fails (fun hq => hpq ⟨hp, hq⟩) hfatal]
    · rw [h.fails hp hfatal, ok_bind]
      by_cases hq : q
      · exact h'.holds hq false
      · exact h'.fails hq hfatal false

lemma decides_true : Decides checker (fun result => .ok result) True where
  holds := fun _ _ => rfl
  fatal := fun h => absurd trivial h
  fails := fun h => absurd trivial h

lemma Decides.congr {call : Bool → Except Failure Bool} {p q : Prop} (h : Decides checker call p) (hpq : p ↔ q) :
    Decides checker call q := by
  rwa [← propext hpq]

lemma Decides.of_eq {call call' : Bool → Except Failure Bool} {p : Prop} (h : Decides checker call p)
    (heq : call' = call) : Decides checker call' p := heq ▸ h

lemma decides_loop {α : Type} (checker : MetadataChecker) (l : List α) (condition : α → Bool) (message : String) :
    Decides checker (fun result => l.foldlM (fun result a => checker.andEnsure result (condition a) message) result)
      (∀ a ∈ l, condition a = true) := by
  induction l with
  | nil => exact decides_true.congr (by simp)
  | cons a l ih =>
    refine (((decides_andEnsure checker (condition a) message).bind ih).congr ?_)
    rw [List.forall_mem_cons]

/-- Acceptance is to return true without an exception. -/
def Accepts (call : Except Failure Bool) : Prop := call = .ok true

lemma Decides.accepts_iff {call : Bool → Except Failure Bool} {p : Prop} (h : Decides checker call p) :
    Accepts (call true) ↔ p := by
  by_cases hp : p
  · exact iff_of_true (h.holds hp true) hp
  · refine iff_of_false (fun haccept => ?_) hp
    cases hfatal : checker.fatalOnError with
    | true =>
      obtain ⟨message, hthrow⟩ := h.fatal hp hfatal true
      rw [Accepts, hthrow] at haccept
      cases haccept
    | false =>
      rw [Accepts, h.fails hp hfatal] at haccept
      cases haccept

/-! ### The default checker -/

def HasSnapshot (metadata : TableMetadataV2) (snapshotId : Int64) : Prop :=
  snapshotId ∈ metadata.snapshots.map Snapshot.snapshotId

/-- The conditions of the default checker. -/
@[mk_iff] structure Consistent (metadata : TableMetadataV2) : Prop where
  tableUuid : metadata.tableUuid ≠ []
  location : metadata.location ≠ []
  sortOrders : metadata.sortOrders ≠ []
  sequenceNumbers : ∀ snapshot ∈ metadata.snapshots, snapshot.sequenceNumber ≤ metadata.lastSequenceNumber
  snapshotLog : ∀ entry ∈ metadata.snapshotLog, HasSnapshot metadata entry.snapshotId
  refs : ∀ ref ∈ metadata.refs.values, HasSnapshot metadata ref.snapshotId
  currentSnapshot : ∀ snapshotId, metadata.currentSnapshotId = some snapshotId → HasSnapshot metadata snapshotId
  currentSchema : ∃ schema ∈ metadata.schemas, schema.schemaId = metadata.currentSchemaId.toInt
  defaultSpec : ∃ spec ∈ metadata.partitionSpecs, spec.specId = metadata.defaultSpecId.toInt

lemma consistent_iff_conditions : Consistent metadata ↔
    (!metadata.tableUuid.isEmpty) = true ∧ (!metadata.location.isEmpty) = true ∧
    (!metadata.sortOrders.isEmpty) = true ∧
    (∀ snapshot ∈ metadata.snapshots, decide (snapshot.sequenceNumber ≤ metadata.lastSequenceNumber) = true) ∧
    (∀ entry ∈ metadata.snapshotLog, (metadata.snapshots.map Snapshot.snapshotId).contains entry.snapshotId = true) ∧
    (∀ ref ∈ metadata.refs.values, (metadata.snapshots.map Snapshot.snapshotId).contains ref.snapshotId = true) ∧
    metadata.currentSnapshotId.all (metadata.snapshots.map Snapshot.snapshotId).contains = true ∧
    metadata.schemas.any (fun schema => schema.schemaId = metadata.currentSchemaId.toInt) = true ∧
    metadata.partitionSpecs.any (fun spec => spec.specId = metadata.defaultSpecId.toInt) = true := by
  rw [consistent_iff]
  simp only [HasSnapshot, Bool.not_eq_true', List.isEmpty_eq_false_iff, decide_eq_true_eq, List.contains_iff_mem,
    Option.all_eq_true, List.any_eq_true]

/-- What the default checker decides. -/
lemma decides_default (checker : MetadataChecker) (metadata : TableMetadataV2) :
    ∃ call, Decides checker call (Consistent metadata) ∧ DefaultChecker.check checker metadata = call true := by
  have h := (decides_andEnsure checker (!metadata.tableUuid.isEmpty)
      "Invalid TableMetadataV2 argument: table_uuid is empty").bind
    ((decides_andEnsure checker (!metadata.location.isEmpty)
      "Invalid TableMetadataV2 argument: location is empty").bind
    ((decides_andEnsure checker (!metadata.sortOrders.isEmpty)
      "Invalid TableMetadataV2 argument: sort_orders is empty").bind
    ((decides_loop checker metadata.snapshots (fun snapshot => snapshot.sequenceNumber ≤ metadata.lastSequenceNumber)
      "Invalid TableMetadataV2 argument: snapshot sequence number is greater than last sequence number").bind
    ((decides_loop checker metadata.snapshotLog
      (fun entry => (metadata.snapshots.map Snapshot.snapshotId).contains entry.snapshotId)
      "Invalid TableMetadataV2 argument: snapshot_log contains snapshot_id that is not present in snapshots").bind
    ((decides_loop checker metadata.refs.values
      (fun ref => (metadata.snapshots.map Snapshot.snapshotId).contains ref.snapshotId)
      "Invalid TableMetadataV2 argument: snapshot-ref id is not found in snapshots' ids").bind
    ((decides_andEnsure checker (metadata.currentSnapshotId.all (metadata.snapshots.map Snapshot.snapshotId).contains)
      "Invalid TableMetadataV2 argument: current snapshot id is not found in snapshots' ids").bind
    ((decides_andEnsure checker
      (metadata.schemas.any (fun schema => schema.schemaId = metadata.currentSchemaId.toInt))
      "Invalid TableMetadataV2 argument: current schema id is not found in schemas' ids").bind
    (decides_andEnsure checker
      (metadata.partitionSpecs.any (fun spec => spec.specId = metadata.defaultSpecId.toInt))
      "Invalid TableMetadataV2 argument: default spec id is not found in partition specs' ids"))))))))
  exact ⟨_, h.congr consistent_iff_conditions.symm, rfl⟩

lemma accepts_default_iff : Accepts (DefaultChecker.check checker metadata) ↔ Consistent metadata := by
  obtain ⟨call, hdecides, hcall⟩ := decides_default checker metadata
  rw [hcall, hdecides.accepts_iff]

/-- The check that the constructor of the metadata makes is that of a default checker whose conditions are fatal. -/
lemma defaultCheck_ok_iff : defaultCheck metadata = .ok () ↔ Consistent metadata := by
  have hbind : ∀ (condition : Bool) (message : String) (rest : Except String Unit),
      (ensure condition message >>= fun _ => rest) = .ok () ↔ condition = true ∧ rest = .ok () := by
    intro condition message rest
    cases condition with
    | true => simp [ensure]
    | false => simp [ensure]
  have hloop : ∀ {α : Type} (l : List α) (condition : α → Bool) (message : String) (rest : Except String Unit),
      (l.forM (fun a => ensure (condition a) message) >>= fun _ => rest) = .ok () ↔
        (∀ a ∈ l, condition a = true) ∧ rest = .ok () := by
    intro α l condition message rest
    induction l with
    | nil => simp [List.forM_nil, pure, Except.pure]
    | cons a l ih =>
      change ((ensure (condition a) message >>= fun _ => l.forM (fun a => ensure (condition a) message)) >>=
        fun _ => rest) = _ ↔ _
      rw [bind_assoc, hbind, ih, List.forall_mem_cons, and_assoc]
  have hlast : ∀ (condition : Bool) (message : String), ensure condition message = .ok () ↔ condition = true := by
    intro condition message
    cases condition with
    | true => simp [ensure]
    | false => simp [ensure]
  rw [consistent_iff_conditions]
  unfold defaultCheck
  simp only [hbind, hloop, hlast]

/-! ### The Java-compatible checker -/

/-- The minute can be added to every time of the metadata. -/
def TimesFit (metadata : TableMetadataV2) : Prop :=
  ∀ timestampMs ∈ metadata.lastUpdatedMs :: (metadata.snapshotLog.map SnapshotLog.timestampMs ++
    metadata.metadataLog.map MetadataLog.timestampMs), timestampMs.toInt ≤ int64Max - 60000

/-- The entries of a log follow each other up to a minute, and the last one `last_updated_ms`. -/
def OrderedToMinute (lastUpdatedMs : Int64) (log : List Int64) : Prop :=
  log.IsChain (fun a b => a.toInt ≤ b.toInt + 60000) ∧ ∀ last ∈ log.getLast?, last.toInt ≤ lastUpdatedMs.toInt + 60000

def LogsOrdered (metadata : TableMetadataV2) : Prop :=
  OrderedToMinute metadata.lastUpdatedMs (metadata.snapshotLog.map SnapshotLog.timestampMs) ∧
    OrderedToMinute metadata.lastUpdatedMs (metadata.metadataLog.map MetadataLog.timestampMs)

lemma addMinute_ok {timestampMs : Int64} (h : timestampMs.toInt ≤ int64Max - 60000) :
    JavaCompatibleChecker.addMinute timestampMs = .ok (timestampMs.toInt + 60000) := by
  have hlt : timestampMs.toInt + JavaCompatibleChecker.kMillisInMinute < 2 ^ 63 := by
    simp only [int64Max, JavaCompatibleChecker.kMillisInMinute] at *
    omega
  rw [JavaCompatibleChecker.addMinute, if_pos hlt]
  rfl

lemma decides_sorted (checker : MetadataChecker) (message : String) {log : List Int64}
    (h : ∀ timestampMs ∈ log, timestampMs.toInt ≤ int64Max - 60000) :
    Decides checker (JavaCompatibleChecker.checkSorted checker message log)
      (log.IsChain (fun a b => a.toInt ≤ b.toInt + 60000)) := by
  induction log with
  | nil => exact decides_true.congr (by simp)
  | cons timestampMs log ih =>
    cases log with
    | nil => exact decides_true.congr (by simp)
    | cons next log =>
      have htail := ih (fun t ht => h t (List.mem_cons_of_mem _ ht))
      have hnext := addMinute_ok (h next (by simp))
      refine (((decides_andEnsure checker (timestampMs.toInt ≤ next.toInt + 60000) message).bind htail).congr ?_).of_eq ?_
      · rw [List.isChain_cons_cons, decide_eq_true_eq]
      · funext result
        rw [JavaCompatibleChecker.checkSorted, hnext, ok_bind]

lemma decides_last (checker : MetadataChecker) (message : String) {lastUpdatedMs : Int64} (log : List Int64)
    (h : lastUpdatedMs.toInt ≤ int64Max - 60000) :
    Decides checker (JavaCompatibleChecker.checkLast checker message lastUpdatedMs log)
      (∀ last ∈ log.getLast?, last.toInt ≤ lastUpdatedMs.toInt + 60000) := by
  cases hlast : log.getLast? with
  | none =>
    refine ((decides_andEnsure checker true message).congr (by simp)).of_eq ?_
    funext result
    rw [JavaCompatibleChecker.checkLast, hlast]
  | some timestampMs =>
    refine ((decides_andEnsure checker (timestampMs.toInt ≤ lastUpdatedMs.toInt + 60000) message).congr
      (by simp)).of_eq ?_
    funext result
    rw [JavaCompatibleChecker.checkLast, hlast]
    dsimp only
    rw [addMinute_ok h, ok_bind]

/-- What the Java-compatible checker decides after the default one has returned. -/
lemma decides_logs (checker : MetadataChecker) (htimes : TimesFit metadata) :
    ∃ call, Decides checker call (LogsOrdered metadata) ∧
      JavaCompatibleChecker.check checker metadata = DefaultChecker.check checker metadata >>= fun _ => call true := by
  have hlog : ∀ t ∈ metadata.snapshotLog.map SnapshotLog.timestampMs, t.toInt ≤ int64Max - 60000 :=
    fun t ht => htimes t (List.mem_cons_of_mem _ (List.mem_append_left _ ht))
  have hmetadataLog : ∀ t ∈ metadata.metadataLog.map MetadataLog.timestampMs, t.toInt ≤ int64Max - 60000 :=
    fun t ht => htimes t (List.mem_cons_of_mem _ (List.mem_append_right _ ht))
  have hupdated := htimes metadata.lastUpdatedMs List.mem_cons_self
  have h := (decides_sorted checker "Invalid TableMetadataV2 argument: snapshot log is not sorted by timestamp"
      hlog).bind
    ((decides_last checker "Invalid TableMetadataV2 argument: last updated ms is less than the last snapshot timestamp"
      (metadata.snapshotLog.map SnapshotLog.timestampMs) hupdated).bind
    ((decides_sorted checker "Invalid TableMetadataV2 argument: metadata log is not sorted by timestamp"
      hmetadataLog).bind
    (decides_last checker "Invalid TableMetadataV2 argument: last updated ms is less than the last metadata timestamp"
      (metadata.metadataLog.map MetadataLog.timestampMs) hupdated)))
  exact ⟨_, h.congr (by rw [LogsOrdered, OrderedToMinute, OrderedToMinute, and_assoc]), rfl⟩

lemma accepts_java_iff (htimes : TimesFit metadata) : Accepts (JavaCompatibleChecker.check checker metadata) ↔
    (checker.fatalOnError = true → Consistent metadata) ∧ LogsOrdered metadata := by
  obtain ⟨call, hdecides, hcall⟩ := decides_default checker metadata
  obtain ⟨logs, hlogs, hjava⟩ := decides_logs checker htimes
  rw [hjava, hcall]
  by_cases hconsistent : Consistent metadata
  · rw [hdecides.holds hconsistent, ok_bind, hlogs.accepts_iff]
    simp [hconsistent]
  · cases hfatal : checker.fatalOnError with
    | true =>
      obtain ⟨message, hthrow⟩ := hdecides.fatal hconsistent hfatal true
      simp [hthrow, Accepts, hconsistent]
    | false =>
      rw [hdecides.fails hconsistent hfatal, ok_bind, hlogs.accepts_iff]
      simp

/-- The checker refines the default one, and accepts exactly the metadata with ordered logs among those that the
default one accepts. -/
def RefinesDefault (checker : MetadataChecker) (metadata : TableMetadataV2) : Prop :=
  (Accepts (JavaCompatibleChecker.check checker metadata) → Accepts (DefaultChecker.check checker metadata)) ∧
    (Accepts (JavaCompatibleChecker.check checker metadata) ↔
      Accepts (DefaultChecker.check checker metadata) ∧ LogsOrdered metadata)

/-- The Java-compatible checker refines the default one where errors are fatal, and otherwise on metadata that the
default one accepts or whose logs are not ordered. -/
theorem java_refinesDefault_iff (htimes : TimesFit metadata) : RefinesDefault checker metadata ↔
    checker.fatalOnError = true ∨ Consistent metadata ∨ ¬LogsOrdered metadata := by
  rw [RefinesDefault, accepts_java_iff htimes, accepts_default_iff]
  tauto

/-- A table without snapshots. -/
def metadataWithUuid (tableUuid : Bytes) : TableMetadataV2 where
  tableUuid := tableUuid
  location := bytes "loc"
  lastSequenceNumber := 0
  lastUpdatedMs := 1000
  lastColumnId := 1
  schemas := [⟨0, [⟨bytes "a", 1, true, .int⟩]⟩]
  currentSchemaId := 0
  partitionSpecs := [⟨0, []⟩]
  defaultSpecId := 0
  lastPartitionId := 0
  properties := ∅
  currentSnapshotId := none
  snapshots := []
  snapshotLog := []
  metadataLog := []
  sortOrders := [⟨0, []⟩]
  defaultSortOrderId := 0
  refs := ∅
  statistics := []

lemma timesFit_metadataWithUuid (tableUuid : Bytes) : TimesFit (metadataWithUuid tableUuid) := by
  intro timestampMs h
  rw [List.mem_singleton.mp h]
  change (1000 : Int64).toInt ≤ _
  decide

theorem metadataWithUuid_refinesDefault : RefinesDefault ⟨false⟩ (metadataWithUuid (bytes "u")) := by
  have hconsistent : Consistent (metadataWithUuid (bytes "u")) := by
    rw [consistent_iff_conditions]
    decide
  exact (java_refinesDefault_iff (timesFit_metadataWithUuid _)).mpr (.inr (.inl hconsistent))

/-- Metadata without a table UUID is accepted by the stricter checker only. -/
theorem emptyUuid_accepted : Accepts (JavaCompatibleChecker.check ⟨false⟩ (metadataWithUuid [])) ∧
    ¬Accepts (DefaultChecker.check ⟨false⟩ (metadataWithUuid [])) := by
  refine ⟨rfl, fun h => ?_⟩
  have hfails : DefaultChecker.check ⟨false⟩ (metadataWithUuid []) = .ok false := rfl
  rw [Accepts, hfails] at h
  cases h

end IcebergCxx.Proofs

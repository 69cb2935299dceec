import IcebergCxx.MetadataTree
import IcebergCxx.Proofs.MetadataChecker

/-!
# Keeping one snapshot of a table

`RemoveOtherSnapshots` looks for the schema after it has begun to change the metadata, and keeps a snapshot log without
an entry of the snapshot. Elsewhere it leaves valid metadata of one snapshot, or changes nothing.
-/

namespace IcebergCxx.Proofs

open Lib

variable {metadata metadata' : TableMetadataV2} {snapshotId : Int64} {switchMain : Bool}

/-- Valid metadata of the snapshot alone. -/
structure OnlySnapshot (metadata metadata' : TableMetadataV2) (snapshotId : Int64) (switchMain : Bool) : Prop where
  accepted : defaultCheck metadata' = .ok ()
  snapshot : ∃ snapshot ∈ metadata.snapshots, snapshot.snapshotId = snapshotId ∧ metadata'.snapshots = [snapshot] ∧
    ∃ schema ∈ metadata'.schemas, schema ∈ metadata.schemas ∧ schema.schemaId = metadata'.currentSchemaId.toInt ∧
      snapshot.schemaId.map Int64.toInt = some schema.schemaId
  snapshotLog : ∀ entry ∈ metadata'.snapshotLog, entry.snapshotId = snapshotId
  refs : ∀ ref ∈ metadata'.refs.values, ref.snapshotId = snapshotId
  main : switchMain = true → ∃ ref, metadata'.refs.find? (bytes "main") = some ref ∧ ref.snapshotId = snapshotId

/-- The call throws and changes nothing, or leaves the snapshot alone. -/
def RemovesOthers (metadata : TableMetadataV2) (snapshotId : Int64) (switchMain : Bool) : Prop :=
  match removeOtherSnapshots snapshotId switchMain metadata with
  | .ok _ metadata' => OnlySnapshot metadata metadata' snapshotId switchMain
  | .error _ metadata' => metadata' = metadata

/-- A snapshot with a schema id has a schema, and the snapshot log has an entry of it or none at all. -/
def Removable (metadata : TableMetadataV2) (snapshotId : Int64) : Prop :=
  ∀ snapshot schemaId, metadata.snapshots.find? (fun snap => snap.snapshotId = snapshotId) = some snapshot →
    snapshot.schemaId = some schemaId →
      (schemaId.toInt32.toInt = schemaId.toInt ∧ ∃ schema ∈ metadata.schemas, schema.schemaId = schemaId.toInt) ∧
      (metadata.snapshotLog = [] ∨ ∃ entry ∈ metadata.snapshotLog, entry.snapshotId = snapshotId)

/-! ### What is kept -/

lemma keepSnapshotLog_only (snapshotId : Int64) (snapshotLog : List SnapshotLog) :
    (∀ entry ∈ keepSnapshotLog snapshotId snapshotLog, entry.snapshotId = snapshotId) ↔
      snapshotLog = [] ∨ ∃ entry ∈ snapshotLog, entry.snapshotId = snapshotId := by
  unfold keepSnapshotLog
  cases hfind : snapshotLog.find? (fun log => log.snapshotId = snapshotId) with
  | some log =>
    have hlog : log.snapshotId = snapshotId := by simpa using List.find?_some hfind
    exact iff_of_true (by simpa using hlog) (.inr ⟨log, List.mem_of_find?_eq_some hfind, hlog⟩)
  | none =>
    have hnone : ∀ entry ∈ snapshotLog, entry.snapshotId ≠ snapshotId :=
      fun entry hentry => by simpa using List.find?_eq_none.mp hfind entry hentry
    constructor
    · intro h
      exact .inl (List.eq_nil_iff_forall_not_mem.mpr (fun entry hentry => hnone entry hentry (h entry hentry)))
    · rintro (rfl | ⟨entry, hentry, heq⟩)
      · simp
      · exact absurd heq (hnone entry hentry)

lemma keepRefs_only (refs : OrdMap Bytes SnapshotRef) :
    ∀ ref ∈ (keepRefs snapshotId switchMain refs).values, ref.snapshotId = snapshotId := by
  have hkept : ∀ name ref, (refs.filter (fun _ ref => ref.snapshotId = snapshotId)).find? name = some ref →
      ref.snapshotId = snapshotId :=
    fun name ref h => by simpa using ((refs.find?_filter_eq_some_iff _ _ _).mp h).2
  intro ref href
  obtain ⟨name, hname⟩ := (OrdMap.mem_values _ _).mp href
  unfold keepRefs at hname
  dsimp only at hname
  split_ifs at hname with hmain
  · rw [OrdMap.find?_emplace] at hname
    split_ifs at hname with heq
    · cases hold : (refs.filter (fun _ ref => ref.snapshotId = snapshotId)).find? (bytes "main") with
      | none => rw [hold] at hname; cases hname; rfl
      | some old => rw [hold] at hname; cases hname; exact hkept _ _ hold
    · exact hkept _ _ hname
  · exact hkept _ _ hname

lemma keepRefs_main (refs : OrdMap Bytes SnapshotRef) (h : switchMain = true) :
    ∃ ref, (keepRefs snapshotId switchMain refs).find? (bytes "main") = some ref ∧ ref.snapshotId = snapshotId := by
  have hfind : ∃ ref, (keepRefs snapshotId switchMain refs).find? (bytes "main") = some ref := by
    unfold keepRefs
    dsimp only
    rw [if_pos h, OrdMap.find?_emplace, if_pos rfl]
    exact ⟨_, rfl⟩
  obtain ⟨ref, href⟩ := hfind
  exact ⟨ref, href, keepRefs_only refs ref ((OrdMap.mem_values _ _).mpr ⟨_, href⟩)⟩

/-! ### The cases of the call -/

/-- The metadata that a call without an exception leaves. -/
def cutDown (metadata : TableMetadataV2) (snapshot : Snapshot) (schema : Schema) (snapshotId : Int64)
    (currentSchemaId : Int32) (switchMain : Bool) : TableMetadataV2 :=
  { metadata with
    currentSnapshotId := some snapshotId
    snapshots := [snapshot]
    currentSchemaId := currentSchemaId
    schemas := [schema]
    snapshotLog := keepSnapshotLog snapshotId metadata.snapshotLog
    refs := keepRefs snapshotId switchMain metadata.refs }

lemma removeOtherSnapshots_apply : removeOtherSnapshots snapshotId switchMain metadata =
    match metadata.snapshots.find? (fun snap => snap.snapshotId = snapshotId) with
    | none => .error ("no snapshot " ++ toString snapshotId.toInt) metadata
    | some snapshot =>
      match snapshot.schemaId with
      | none => .error ("snapshot " ++ toString snapshotId.toInt ++ " has no schema_id") metadata
      | some schemaId =>
        match metadata.schemas.find? (fun schema => schema.schemaId = schemaId.toInt32.toInt) with
        | none =>
          .error
            ("no schema " ++ toString schemaId.toInt32.toInt ++ " needed for shapshot " ++ toString snapshotId.toInt)
            { metadata with
              currentSnapshotId := some snapshotId
              snapshots := [snapshot]
              currentSchemaId := schemaId.toInt32 }
        | some schema => .ok () (cutDown metadata snapshot schema snapshotId schemaId.toInt32 switchMain) := by
  simp only [removeOtherSnapshots, bind, EStateM.bind, get, getThe, MonadStateOf.get, EStateM.get]
  cases metadata.snapshots.find? (fun snap => snap.snapshotId = snapshotId) with
  | none => rfl
  | some snapshot =>
    dsimp only
    cases snapshot.schemaId with
    | none => rfl
    | some schemaId =>
      dsimp only
      simp only [set, MonadStateOf.set]
      cases metadata.schemas.find? (fun schema => schema.schemaId = schemaId.toInt32.toInt) with
      | none => rfl
      | some schema => rfl

lemma removeOtherSnapshots_noSnapshot (switchMain : Bool)
    (h : metadata.snapshots.find? (fun snap => snap.snapshotId = snapshotId) = none) :
    ∃ message, removeOtherSnapshots snapshotId switchMain metadata = .error message metadata := by
  refine ⟨"no snapshot " ++ toString snapshotId.toInt, ?_⟩
  rw [removeOtherSnapshots_apply, h]

section
variable {snapshot : Snapshot} {schemaId : Int64}

lemma removeOtherSnapshots_noSchemaId (switchMain : Bool)
    (h : metadata.snapshots.find? (fun snap => snap.snapshotId = snapshotId) = some snapshot)
    (hschema : snapshot.schemaId = none) :
    ∃ message, removeOtherSnapshots snapshotId switchMain metadata = .error message metadata := by
  refine ⟨"snapshot " ++ toString snapshotId.toInt ++ " has no schema_id", ?_⟩
  rw [removeOtherSnapshots_apply, h]
  dsimp only
  rw [hschema]

/-- The current schema is missing: the metadata is already changed. -/
lemma removeOtherSnapshots_noSchema (switchMain : Bool)
    (h : metadata.snapshots.find? (fun snap => snap.snapshotId = snapshotId) = some snapshot)
    (hschema : snapshot.schemaId = some schemaId)
    (hnone : metadata.schemas.find? (fun schema => schema.schemaId = schemaId.toInt32.toInt) = none) :
    ∃ message, removeOtherSnapshots snapshotId switchMain metadata = .error message
      { metadata with
        currentSnapshotId := some snapshotId
        snapshots := [snapshot]
        currentSchemaId := schemaId.toInt32 } := by
  refine ⟨"no schema " ++ toString schemaId.toInt32.toInt ++ " needed for shapshot " ++ toString snapshotId.toInt, ?_⟩
  rw [removeOtherSnapshots_apply, h]
  dsimp only
  rw [hschema]
  dsimp only
  rw [hnone]

lemma removeOtherSnapshots_ok {schema : Schema}
    (h : metadata.snapshots.find? (fun snap => snap.snapshotId = snapshotId) = some snapshot)
    (hschema : snapshot.schemaId = some schemaId)
    (hsome : metadata.schemas.find? (fun schema => schema.schemaId = schemaId.toInt32.toInt) = some schema) :
    removeOtherSnapshots snapshotId switchMain metadata =
      .ok () (cutDown metadata snapshot schema snapshotId schemaId.toInt32 switchMain) := by
  rw [removeOtherSnapshots_apply, h]
  dsimp only
  rw [hschema]
  dsimp only
  rw [hsome]

/-- Valid metadata stays valid when only entries of the snapshot are left in the snapshot log. -/
lemma consistent_cutDown {schema : Schema} (hconsistent : Consistent metadata)
    (hsnapshot : snapshot ∈ metadata.snapshots) (hid : snapshot.snapshotId = snapshotId)
    (hschema : schema.schemaId = schemaId.toInt32.toInt)
    (hlog : ∀ entry ∈ keepSnapshotLog snapshotId metadata.snapshotLog, entry.snapshotId = snapshotId) :
    Consistent (cutDown metadata snapshot schema snapshotId schemaId.toInt32 switchMain) := by
  have hhas : HasSnapshot (cutDown metadata snapshot schema snapshotId schemaId.toInt32 switchMain) snapshotId :=
    List.mem_map.mpr ⟨snapshot, List.mem_singleton_self _, hid⟩
  constructor
  · exact hconsistent.tableUuid
  · exact hconsistent.location
  · exact hconsistent.sortOrders
  · intro snap hsnap
    rw [List.mem_singleton.mp hsnap]
    exact hconsistent.sequenceNumbers snapshot hsnapshot
  · exact fun entry hentry => (hlog entry hentry).symm ▸ hhas
  · exact fun ref href => (keepRefs_only metadata.refs ref href).symm ▸ hhas
  · intro current hcurrent
    rw [← Option.some.inj hcurrent]
    exact hhas
  · exact ⟨schema, List.mem_singleton_self _, hschema⟩
  · exact hconsistent.defaultSpec

lemma onlySnapshot_iff {schema : Schema} (hconsistent : Consistent metadata)
    (h : metadata.snapshots.find? (fun snap => snap.snapshotId = snapshotId) = some snapshot)
    (hschema : snapshot.schemaId = some schemaId)
    (hsome : metadata.schemas.find? (fun schema => schema.schemaId = schemaId.toInt32.toInt) = some schema) :
    OnlySnapshot metadata (cutDown metadata snapshot schema snapshotId schemaId.toInt32 switchMain) snapshotId
        switchMain ↔
      schemaId.toInt32.toInt = schemaId.toInt ∧
        (metadata.snapshotLog = [] ∨ ∃ entry ∈ metadata.snapshotLog, entry.snapshotId = snapshotId) := by
  have hmem := List.mem_of_find?_eq_some h
  have hid : snapshot.snapshotId = snapshotId := by simpa using List.find?_some h
  have hschemaId : schema.schemaId = schemaId.toInt32.toInt := by simpa using List.find?_some hsome
  constructor
  · intro honly
    refine ⟨?_, (keepSnapshotLog_only _ _).mp honly.snapshotLog⟩
    obtain ⟨found, -, -, hfound, current, hcurrent, -, -, hsame⟩ := honly.snapshot
    rw [List.mem_singleton.mp hcurrent, ← (List.singleton_inj.mp hfound), hschema, hschemaId] at hsame
    exact (Option.some.inj hsame).symm
  · intro ⟨hfits, hlog⟩
    have hkept := (keepSnapshotLog_only snapshotId metadata.snapshotLog).mpr hlog
    constructor
    · exact defaultCheck_ok_iff.mpr (consistent_cutDown hconsistent hmem hid hschemaId hkept)
    · refine ⟨snapshot, hmem, hid, rfl, schema, List.mem_singleton_self _, List.mem_of_find?_eq_some hsome,
        hschemaId, ?_⟩
      rw [hschema, hschemaId, hfits]
      rfl
    · exact hkept
    · exact keepRefs_only metadata.refs
    · exact keepRefs_main metadata.refs

end

/-- Valid metadata is cut down to valid metadata of the snapshot, or left as it was, exactly when the snapshot is
absent or has no schema id, or its schema is there and the snapshot log has an entry of it or none. -/
theorem removesOthers_iff (hvalid : defaultCheck metadata = .ok ()) (snapshotId : Int64) (switchMain : Bool) :
    RemovesOthers metadata snapshotId switchMain ↔ Removable metadata snapshotId := by
  have hconsistent := defaultCheck_ok_iff.mp hvalid
  cases hfind : metadata.snapshots.find? (fun snap => snap.snapshotId = snapshotId) with
  | none =>
    obtain ⟨message, hcall⟩ := removeOtherSnapshots_noSnapshot switchMain hfind
    rw [RemovesOthers, hcall, Removable, hfind]
    simp
  | some snapshot =>
    cases hschema : snapshot.schemaId with
    | none =>
      obtain ⟨message, hcall⟩ := removeOtherSnapshots_noSchemaId switchMain hfind hschema
      rw [RemovesOthers, hcall]
      refine iff_of_true rfl (fun snap schemaId hsnap hid => ?_)
      cases hfind.symm.trans hsnap
      rw [hschema] at hid
      cases hid
    | some schemaId =>
      have hremovable : Removable metadata snapshotId ↔
          (schemaId.toInt32.toInt = schemaId.toInt ∧ ∃ schema ∈ metadata.schemas, schema.schemaId = schemaId.toInt) ∧
          (metadata.snapshotLog = [] ∨ ∃ entry ∈ metadata.snapshotLog, entry.snapshotId = snapshotId) := by
        refine ⟨fun h => h snapshot schemaId hfind hschema, fun h snap id hsnap hid => ?_⟩
        cases hfind.symm.trans hsnap
        cases hschema.symm.trans hid
        exact h
      rw [hremovable]
      cases hsearch : metadata.schemas.find? (fun schema => schema.schemaId = schemaId.toInt32.toInt) with
      | none =>
        have hnone : ∀ schema ∈ metadata.schemas, schema.schemaId ≠ schemaId.toInt32.toInt :=
          fun schema hmem => by simpa using List.find?_eq_none.mp hsearch schema hmem
        obtain ⟨message, hcall⟩ := removeOtherSnapshots_noSchema switchMain hfind hschema hsearch
        rw [RemovesOthers, hcall]
        refine iff_of_false (fun hsame => ?_) (fun ⟨⟨hfits, schema, hmem, heq⟩, _⟩ => ?_)
        · obtain ⟨schema, hmem, heq⟩ := hconsistent.currentSchema
          rw [← hsame] at heq
          exact hnone schema hmem heq
        · exact hnone schema hmem (heq.trans hfits.symm)
      | some schema =>
        have hmem := List.mem_of_find?_eq_some hsearch
        have hid : schema.schemaId = schemaId.toInt32.toInt := by simpa using List.find?_some hsearch
        rw [RemovesOthers, removeOtherSnapshots_ok hfind hschema hsearch]
        dsimp only
        rw [onlySnapshot_iff hconsistent hfind hschema hsearch]
        exact ⟨fun ⟨hfits, hlog⟩ => ⟨⟨hfits, schema, hmem, hid.trans hfits⟩, hlog⟩,
          fun ⟨⟨hfits, _⟩, hlog⟩ => ⟨hfits, hlog⟩⟩

def snapshotWithId (snapshotId : Int64) : Snapshot where
  snapshotId := snapshotId
  parentSnapshotId := none
  sequenceNumber := 0
  timestampMs := 1000
  manifestListLocation := bytes "list"
  summary := ∅
  schemaId := some 0

/-- The snapshots 1 and 2; the first one is current. -/
def metadataWithLog (snapshotLog : List SnapshotLog) : TableMetadataV2 :=
  { metadataWithUuid (bytes "u") with
    currentSnapshotId := some 1
    snapshots := [snapshotWithId 1, snapshotWithId 2]
    snapshotLog := snapshotLog }

theorem loggedSnapshots_removesOthers : RemovesOthers (metadataWithLog [⟨1000, 1⟩, ⟨1001, 2⟩]) 2 true := by
  refine (removesOthers_iff rfl 2 true).mpr (fun snapshot schemaId hfind hschema => ?_)
  have hsecond : (metadataWithLog [⟨1000, 1⟩, ⟨1001, 2⟩]).snapshots.find? (fun snap => snap.snapshotId = 2) =
      some (snapshotWithId 2) := rfl
  cases hsecond.symm.trans hfind
  cases hschema
  exact ⟨⟨rfl, ⟨0, [⟨bytes "a", 1, true, .int⟩]⟩, List.mem_singleton_self _, rfl⟩,
    .inr ⟨⟨1001, 2⟩, by simp [metadataWithLog], rfl⟩⟩

/-- A snapshot of a branch is not in the snapshot log, which then mentions a snapshot that was removed. -/
theorem unloggedSnapshot_invalid : defaultCheck (metadataWithLog [⟨1000, 1⟩]) = .ok () ∧
    ¬RemovesOthers (metadataWithLog [⟨1000, 1⟩]) 2 true := by
  refine ⟨rfl, fun h => ?_⟩
  have honly : OnlySnapshot (metadataWithLog [⟨1000, 1⟩]) _ 2 true := h
  exact absurd (honly.snapshotLog ⟨1000, 1⟩ List.mem_cons_self) (by decide)

end IcebergCxx.Proofs

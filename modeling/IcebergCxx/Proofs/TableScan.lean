import IcebergCxx.TableScan
import IcebergCxx.Proofs.ConcurrentPlanner
import IcebergCxx.Proofs.Manifest
import IcebergCxx.Proofs.PlanLaw

/-!
# Planning on one thread and on several

The two ways of planning differ in how they read manifests: only the tasks look for the id of the schema, and
only the stream reads delete manifests with all their fields. Where a manifest shows the planner the same
entries either way, every order of the tasks gives the plan of one thread.
-/

namespace IcebergCxx.Proofs

open Lib

/-! ### What the planner reads -/

/-- The file with the fields that the planner reads for its kind of content. -/
def plannerFields (file : ContentFile) : ContentFile :=
  match file.content with
  | .data =>
    { content := .data
      filePath := file.filePath
      partitionTuple := file.partitionTuple
      splitOffsets := file.splitOffsets }
  | .equalityDeletes =>
    { content := .equalityDeletes
      filePath := file.filePath
      partitionTuple := file.partitionTuple
      equalityIds := file.equalityIds }
  | .positionDeletes =>
    if file.fileFormat = deletionVectorFormat then
      { content := .positionDeletes
        filePath := file.filePath
        fileFormat := deletionVectorFormat
        partitionTuple := file.partitionTuple
        referencedDataFile := file.referencedDataFile
        contentOffset := file.contentOffset
        contentSizeInBytes := file.contentSizeInBytes }
    else
      let bounds := minMaxReferencedPath file
      { content := .positionDeletes
        filePath := file.filePath
        partitionTuple := file.partitionTuple
        referencedDataFile := file.referencedDataFile
        lowerBounds := bounds.elim ∅ (fun range => (∅ : OrdMap Int Bytes).insert filePathId range.1)
        upperBounds := bounds.elim ∅ (fun range => (∅ : OrdMap Int Bytes).insert filePathId range.2) }

/-- What the planner reads of an entry; of a deleted one it reads no file. -/
def plannerView (entry : ManifestEntry) : ManifestEntry where
  status := entry.status
  sequenceNumber := entry.sequenceNumber
  dataFile := if entry.status = .deleted then {} else plannerFields entry.dataFile

lemma minMaxReferencedPath_plannerFields {file : ContentFile} (hcontent : file.content = .positionDeletes)
    (hformat : file.fileFormat ≠ deletionVectorFormat) :
    minMaxReferencedPath (plannerFields file) = minMaxReferencedPath file := by
  simp only [plannerFields, hcontent, if_neg hformat]
  cases minMaxReferencedPath file with
  | none => rfl
  | some range => rfl

lemma noteEntry_plannerFields (p : ReferencedDataFileAwareScanPlanner) (entry : ManifestEntry) :
    p.noteEntry { entry with dataFile := plannerFields entry.dataFile } = p.noteEntry entry := by
  unfold ReferencedDataFileAwareScanPlanner.noteEntry
  cases hcontent : entry.dataFile.content with
  | data => simp only [plannerFields, hcontent]
  | equalityDeletes => simp only [plannerFields, hcontent]
  | positionDeletes =>
    by_cases hformat : entry.dataFile.fileFormat = deletionVectorFormat
    · simp only [plannerFields, hcontent, hformat, if_true, ReferencedDataFileAwareScanPlanner.handlePositionDelete]
    · have hnone : ([] : Bytes) ≠ deletionVectorFormat := by decide
      simp only [plannerFields, hcontent, if_neg hformat, if_neg hnone,
        ReferencedDataFileAwareScanPlanner.handlePositionDelete]

lemma plannerFields_same (file : ContentFile) :
    (plannerFields file).filePath = file.filePath ∧ (plannerFields file).partitionTuple = file.partitionTuple := by
  unfold plannerFields
  cases file.content with
  | data => exact ⟨rfl, rfl⟩
  | equalityDeletes => exact ⟨rfl, rfl⟩
  | positionDeletes =>
    dsimp only
    split_ifs <;> exact ⟨rfl, rfl⟩

lemma storeEntry_plannerFields (b : ScanMetadataBuilder) (key : Bytes) (entry : ManifestEntry) :
    b.storeEntry key { entry with dataFile := plannerFields entry.dataFile } = b.storeEntry key entry := by
  unfold ScanMetadataBuilder.storeEntry
  cases entry.sequenceNumber with
  | none => rfl
  | some sequenceNumber =>
    cases hcontent : entry.dataFile.content with
    | data => simp only [plannerFields, hcontent, segmentsOfFile]
    | equalityDeletes => simp only [plannerFields, hcontent]
    | positionDeletes =>
      by_cases hformat : entry.dataFile.fileFormat = deletionVectorFormat
      · simp only [plannerFields, hcontent, hformat, if_true]
      · have hnone : ([] : Bytes) ≠ deletionVectorFormat := by decide
        have hbounds := minMaxReferencedPath_plannerFields hcontent hformat
        simp only [plannerFields, hcontent, if_neg hformat, if_neg hnone] at hbounds ⊢
        rw [hbounds]

lemma addEntry_plannerFields (b : ScanMetadataBuilder) (entry : ManifestEntry) :
    b.addEntry { entry with dataFile := plannerFields entry.dataFile } = b.addEntry entry := by
  obtain ⟨hpath, htuple⟩ := plannerFields_same entry.dataFile
  unfold ScanMetadataBuilder.addEntry
  simp only [checkPartitionTupleIsCorrect, hpath, htuple, storeEntry_plannerFields]

/-- The planner tells entries apart by what it reads of them. -/
lemma planner_addEntry_view (p : ReferencedDataFileAwareScanPlanner) (entry : ManifestEntry) :
    p.addEntry (plannerView entry) = p.addEntry entry := by
  by_cases hdeleted : entry.status = .deleted
  · have hview : (plannerView entry).status = .deleted := hdeleted
    rw [ReferencedDataFileAwareScanPlanner.addEntry, if_pos hview, ReferencedDataFileAwareScanPlanner.addEntry,
      if_pos hdeleted]
  · have hview : plannerView entry =
        { status := entry.status
          sequenceNumber := entry.sequenceNumber
          dataFile := plannerFields entry.dataFile } := by
      simp only [plannerView, if_neg hdeleted]
    have hnote : p.noteEntry (plannerView entry) = p.noteEntry entry := by
      rw [hview]
      exact noteEntry_plannerFields p entry
    have hstore : ∀ b : ScanMetadataBuilder, b.addEntry (plannerView entry) = b.addEntry entry := by
      intro b
      rw [hview]
      exact addEntry_plannerFields b entry
    have hlive : (plannerView entry).status ≠ .deleted := hdeleted
    rw [ReferencedDataFileAwareScanPlanner.addEntry, if_neg hlive, ReferencedDataFileAwareScanPlanner.addEntry,
      if_neg hdeleted, hnote]
    simp only [hstore]

/-- The entries look the same to the planner. -/
def SameView (a b : ManifestEntry) : Prop := plannerView a = plannerView b

lemma addEntries_sameView {entries entries' : List ManifestEntry} (h : List.Forall₂ SameView entries entries')
    (p : ReferencedDataFileAwareScanPlanner) : p.addEntries entries = p.addEntries entries' := by
  unfold ReferencedDataFileAwareScanPlanner.addEntries
  induction h generalizing p with
  | nil => rfl
  | @cons a b _ _ hab _ ih =>
    have hadd : p.addEntry a = p.addEntry b := by
      rw [← planner_addEntry_view, hab, planner_addEntry_view]
    rw [List.foldlM_cons, List.foldlM_cons, hadd]
    simp only [ih]

lemma addSequenceNumberOrFail_sameView (manifestFile : ManifestFile) {a b : ManifestEntry} (h : SameView a b) :
    Agree SameView (addSequenceNumberOrFail manifestFile a) (addSequenceNumberOrFail manifestFile b) := by
  have hview : plannerView a = plannerView b := h
  have hstatus : a.status = b.status :=
    (congrArg ManifestEntry.status hview : (plannerView a).status = (plannerView b).status)
  have hnumber : a.sequenceNumber = b.sequenceNumber :=
    (congrArg ManifestEntry.sequenceNumber hview : (plannerView a).sequenceNumber = (plannerView b).sequenceNumber)
  have hfile : (plannerView a).dataFile = (plannerView b).dataFile := congrArg ManifestEntry.dataFile hview
  unfold addSequenceNumberOrFail
  rw [← hstatus, ← hnumber]
  by_cases hadded : a.sequenceNumber.isNone = true ∧ a.status = .added
  · simp only [if_pos hadded, Option.isSome_some, if_true]
    apply Agree.ok
    simp only [plannerView] at hfile
    simp only [SameView, plannerView, hstatus]
    rw [← hstatus, hfile]
    simp only [hstatus]
  · simp only [if_neg hadded, ← hnumber]
    split_ifs
    · exact .ok h
    · exact .error _ _

/-! ### Fewer fields -/

section
variable (config : DataFileDeserializerConfig)

/-- The file with the fields that are not extracted left at their defaults. -/
def restrictFile (file : ContentFile) : ContentFile where
  content := if config.extractContent then file.content else .data
  filePath := if config.extractFilePath then file.filePath else []
  fileFormat := if config.extractFileFormat then file.fileFormat else []
  partitionTuple := if config.extractPartitionTuple then file.partitionTuple else ⟨[]⟩
  recordCount := if config.extractRecordCount then file.recordCount else 0
  fileSizeInBytes := if config.extractFileSizeInBytes then file.fileSizeInBytes else 0
  columnSizes := if config.extractColumnSizes then file.columnSizes else ∅
  valueCounts := if config.extractValueCounts then file.valueCounts else ∅
  nullValueCounts := if config.extractNullValueCounts then file.nullValueCounts else ∅
  nanValueCounts := if config.extractNanValueCounts then file.nanValueCounts else ∅
  distinctCounts := if config.extractDistinctCounts then file.distinctCounts else ∅
  lowerBounds := if config.extractLowerBounds then file.lowerBounds else ∅
  upperBounds := if config.extractUpperBounds then file.upperBounds else ∅
  splitOffsets := if config.extractSplitOffsets then file.splitOffsets else []
  equalityIds := if config.extractEqualityIds then file.equalityIds else []
  sortOrderId := if config.extractSortOrderId then file.sortOrderId else none
  referencedDataFile := if config.extractReferencedDataFile then file.referencedDataFile else none
  contentOffset := if config.extractContentOffset then file.contentOffset else none
  contentSizeInBytes := if config.extractContentSizeInBytes then file.contentSizeInBytes else none

open ReadDatum in
lemma extractIf_bind {α β : Type} {value : α} {get : Except String α} {f : α → Except String β} {b : β}
    (h : (extractIf true value get >>= f) = .ok b) :
    ∃ a, f a = .ok b ∧ ∀ cond, extractIf cond value get = .ok (if cond then a else value) := by
  obtain ⟨a, hget, hf⟩ := bind_ok h
  refine ⟨a, hf, ?_⟩
  intro cond
  cases cond with
  | true => exact hget
  | false => rfl

/-- A file that can be deserialized whole can be deserialized in part. -/
lemma deserializeDataFile_restrict {datum : AvroDatum} {file : ContentFile}
    (h : deserializeDataFile {} datum = .ok file) :
    deserializeDataFile config datum = .ok (restrictFile config file) := by
  unfold deserializeDataFile at h ⊢
  cases hrecord : datum.content with
  | record record =>
    simp only [hrecord] at h ⊢
    obtain ⟨filePath, h, h1⟩ := extractIf_bind h
    obtain ⟨content, h, h2⟩ := extractIf_bind h
    obtain ⟨fileFormat, h, h3⟩ := extractIf_bind h
    obtain ⟨recordCount, h, h4⟩ := extractIf_bind h
    obtain ⟨fileSizeInBytes, h, h5⟩ := extractIf_bind h
    obtain ⟨sortOrderId, h, h6⟩ := extractIf_bind h
    obtain ⟨referencedDataFile, h, h7⟩ := extractIf_bind h
    obtain ⟨contentOffset, h, h8⟩ := extractIf_bind h
    obtain ⟨contentSizeInBytes, h, h9⟩ := extractIf_bind h
    obtain ⟨columnSizes, h, h10⟩ := extractIf_bind h
    obtain ⟨valueCounts, h, h11⟩ := extractIf_bind h
    obtain ⟨splitOffsets, h, h12⟩ := extractIf_bind h
    obtain ⟨nullValueCounts, h, h13⟩ := extractIf_bind h
    obtain ⟨lowerBounds, h, h14⟩ := extractIf_bind h
    obtain ⟨upperBounds, h, h15⟩ := extractIf_bind h
    obtain ⟨partition, h, h16⟩ := extractIf_bind h
    obtain ⟨nanValueCounts, h, h17⟩ := extractIf_bind h
    obtain ⟨distinctCounts, h, h18⟩ := extractIf_bind h
    obtain ⟨equalityIds, h, h19⟩ := extractIf_bind h
    cases h
    simp only [h1, h2, h3, h4, h5, h6, h7, h8, h9, h10, h11, h12, h13, h14, h15, h16, h17, h18, h19, ok_bind]
    rfl
  | _ =>
    simp only [hrecord] at h
    cases h

end

/-- The entry with the fields that are not extracted left at their defaults. -/
def restrictEntry (config : ManifestEntryDeserializerConfig) (entry : ManifestEntry) : ManifestEntry where
  status := if config.extractStatus then entry.status else .existing
  snapshotId := if config.extractSnapshotId then entry.snapshotId else none
  sequenceNumber := if config.extractSequenceNumber then entry.sequenceNumber else none
  fileSequenceNumber := if config.extractFileSequenceNumber then entry.fileSequenceNumber else none
  dataFile := restrictFile config.datafileConfig entry.dataFile

lemma restrictFile_default (config : DataFileDeserializerConfig) : restrictFile config {} = {} := by
  simp only [restrictFile, ite_self]

lemma deserializeManifestEntry_restrict (config : ManifestEntryDeserializerConfig) {datum : AvroDatum}
    {entry : ManifestEntry} (h : deserializeManifestEntry {} datum = .ok entry) :
    deserializeManifestEntry config datum = .ok (restrictEntry config entry) := by
  unfold deserializeManifestEntry at h ⊢
  cases hrecord : datum.content with
  | record record =>
    simp only [hrecord] at h ⊢
    obtain ⟨dataFile, hfile, h⟩ := bind_ok h
    obtain ⟨status, h, h1⟩ := extractIf_bind h
    obtain ⟨snapshotId, h, h2⟩ := extractIf_bind h
    obtain ⟨sequenceNumber, h, h3⟩ := extractIf_bind h
    obtain ⟨fileSequenceNumber, h, h4⟩ := extractIf_bind h
    cases h
    simp only [h1, h2, h3, h4, ok_bind]
    cases hfield : findDatum (bytes "data_file") record with
    | none =>
      rw [hfield] at hfile
      cases hfile
      simp only [ok_bind, restrictEntry, restrictFile_default]
      rfl
    | some field =>
      rw [hfield] at hfile
      simp only [deserializeDataFile_restrict config.datafileConfig hfile, ok_bind]
      rfl
  | _ =>
    simp only [hrecord] at h
    cases h

/-! ### Entries of a manifest -/

section
variable (request : ScanRequest)

/-- The entries that the stream gives for a manifest. -/
def streamEntries (manifestFile : ManifestFile) : Except String (List ManifestEntry) := do
  let data ← request.getManifestEntryStream manifestFile
  data.mapM (fun datum =>
    deserializeManifestEntry (request.streamConfig manifestFile) datum >>= addSequenceNumberOrFail manifestFile)

/-- The entries that the task over a manifest submits. -/
def taskEntries (manifestFile : ManifestFile) : Except String (List ManifestEntry) := do
  let manifest ← request.getManifest manifestFile
  manifest.entries.mapM (addSequenceNumberOrFail manifestFile)

lemma addManifest_agree (p : ReferencedDataFileAwareScanPlanner) (manifestFile : ManifestFile) :
    Agree Eq (request.addManifest p manifestFile) (streamEntries request manifestFile >>= p.addEntries) := by
  have hstreamed : request.addStreamed manifestFile = fun p datum =>
      (deserializeManifestEntry (request.streamConfig manifestFile) datum >>=
        addSequenceNumberOrFail manifestFile) >>= p.addEntry := by
    funext p datum
    unfold ScanRequest.addStreamed
    simp only [bind_assoc]
    congr 1
    funext entry
    congr 1
    funext entry
    by_cases hdeleted : entry.status = .deleted
    · rw [if_pos hdeleted, ReferencedDataFileAwareScanPlanner.addEntry, if_pos hdeleted]
    · rw [if_neg hdeleted]
  unfold ScanRequest.addManifest streamEntries
  rw [bind_assoc, hstreamed]
  apply (Agree.of_eq rfl).bind
  rintro data _ rfl
  exact foldlM_mapM_agree _ ReferencedDataFileAwareScanPlanner.addEntry data p

lemma addEntries_flatten (p : ReferencedDataFileAwareScanPlanner) (ls : List (List ManifestEntry)) :
    ls.foldlM ReferencedDataFileAwareScanPlanner.addEntries p = p.addEntries ls.flatten := by
  unfold ReferencedDataFileAwareScanPlanner.addEntries
  induction ls generalizing p with
  | nil => rfl
  | cons l ls ih =>
    rw [List.foldlM_cons, List.flatten_cons, List.foldlM_append]
    simp only [ih]

/-- One thread, as if all manifests were read before the first entry is added. -/
lemma singleThreaded_agree :
    Agree Eq request.getScanMetadataSingleThreaded (do
      let manifestFiles ← request.getManifestFiles
      let ls ← manifestFiles.mapM (streamEntries request)
      getScanMetadata request.tableMetadata ls.flatten) := by
  unfold ScanRequest.getScanMetadataSingleThreaded
  apply (Agree.of_eq rfl).bind
  rintro manifestFiles _ rfl
  have hread : Agree Eq (manifestFiles.foldlM request.addManifest (.make request.tableMetadata))
      (manifestFiles.foldlM (fun p manifestFile => streamEntries request manifestFile >>= p.addEntries)
        (.make request.tableMetadata)) := by
    apply foldlM_agree (R := Eq) (S := Eq) _ (List.forall₂_same.mpr (fun _ _ => rfl)) rfl
    rintro p _ manifestFile _ rfl rfl
    exact addManifest_agree request p manifestFile
  have hloop := hread.trans (S := Eq) (T := Eq) (fun _ _ _ h h' => h.trans h')
    (foldlM_mapM_agree (streamEntries request) ReferencedDataFileAwareScanPlanner.addEntries manifestFiles _)
  simp only [addEntries_flatten] at hloop
  unfold getScanMetadata
  rw [← bind_assoc]
  apply hloop.bind
  rintro p _ rfl
  exact .of_eq rfl

/-- Avro decoding with a reader schema yields exactly the requested fields. -/
def ReaderSchemaExact : Prop :=
  ∀ (manifestFile : ManifestFile) input partitionSpec schema, request.readFile manifestFile.path = .ok input →
    manifestReaderSchema request.avro input partitionSpec request.config true = .ok schema →
    Agree Eq (request.avro.readFile input schema >>= fun data => data.mapM (deserializeManifestEntry request.config))
      (request.avro.readFile input (request.avro.dataSchema input) >>= fun data =>
        data.mapM (deserializeManifestEntry request.config))

/-- The fields that are skipped change nothing for the planner, or the datum is refused either way. -/
def DatumReadAlike (datum : AvroDatum) : Prop :=
  (∃ message, deserializeManifestEntry request.config datum = .error message) ∨
    ∃ entry, deserializeManifestEntry {} datum = .ok entry ∧ SameView entry (restrictEntry request.config entry)

/-- The task over a manifest finds the id of the schema, and of a delete manifest it misses nothing that the
planner reads. -/
def ReadAlike (manifestFile : ManifestFile) : Prop :=
  ∀ input partitionSpec, request.readFile manifestFile.path = .ok input →
    request.partitionFields manifestFile = .ok partitionSpec →
    SchemaIdReadable request.json request.getInt
        (((request.avro.metadata input).erase (bytes "avro.schema")).erase (bytes "avro.codec")) ∧
      (manifestFile.content = .deletes →
        (request.useReaderSchema = true →
          ∃ schema, manifestReaderSchema request.avro input partitionSpec request.config true = .ok schema) ∧
        ∀ data, request.avro.readFile input (request.avro.dataSchema input) = .ok data →
          ∀ datum ∈ data, DatumReadAlike request datum)

variable {request}

lemma DatumReadAlike.agree {datum : AvroDatum} (h : DatumReadAlike request datum) :
    Agree SameView (deserializeManifestEntry {} datum) (deserializeManifestEntry request.config datum) := by
  rcases h with ⟨message, hrefused⟩ | ⟨entry, hentry, hview⟩
  · -- what can be deserialized whole can be deserialized in part
    cases hwhole : deserializeManifestEntry {} datum with
    | ok entry =>
      rw [deserializeManifestEntry_restrict request.config hwhole] at hrefused
      cases hrefused
    | error message' =>
      rw [hrefused]
      exact .error _ _
  · rw [hentry, deserializeManifestEntry_restrict request.config hentry]
    exact .ok hview

/-- The data of a file, deserialized with a schema and a choice of fields. -/
def entriesIn (input : request.avro.File) (schema : AvroSchema) (config : ManifestEntryDeserializerConfig) :
    Except String (List ManifestEntry) :=
  request.avro.readFile input schema >>= fun data => data.mapM (deserializeManifestEntry config)

lemma streamed_agree (manifestFile : ManifestFile) (input : request.avro.File) (schema : AvroSchema)
    (config : ManifestEntryDeserializerConfig) :
    Agree Eq
      (request.avro.readFile input schema >>= fun data =>
        data.mapM (fun datum => deserializeManifestEntry config datum >>= addSequenceNumberOrFail manifestFile))
      (entriesIn input schema config >>= fun entries => entries.mapM (addSequenceNumberOrFail manifestFile)) := by
  unfold entriesIn
  rw [bind_assoc]
  apply (Agree.of_eq rfl).bind
  rintro data _ rfl
  exact mapM_mapM_agree _ _ data

lemma numbered_agree (manifestFile : ManifestFile) {x y : Except String (List ManifestEntry)}
    (h : Agree (List.Forall₂ SameView) x y) :
    Agree (List.Forall₂ SameView) (x >>= fun entries => entries.mapM (addSequenceNumberOrFail manifestFile))
      (y >>= fun entries => entries.mapM (addSequenceNumberOrFail manifestFile)) := by
  apply h.bind
  intro entries entries' hentries
  exact mapM_agree hentries (fun _ _ _ => addSequenceNumberOrFail_sameView manifestFile)

lemma sameViews_refl (entries : List ManifestEntry) : List.Forall₂ SameView entries entries :=
  List.forall₂_same.mpr (fun _ _ => rfl)

/-- What a delete manifest shows to the planner, read whole and read as it is asked for. -/
lemma deletes_agree (hreader : ReaderSchemaExact request) {manifestFile : ManifestFile} {input : request.avro.File}
    {partitionSpec : List PartitionKeyField} {schema : AvroSchema}
    (hinput : request.readFile manifestFile.path = .ok input)
    (hschema : manifestReaderSchema request.avro input partitionSpec request.config request.useReaderSchema =
      .ok schema)
    (hdata : ∀ data, request.avro.readFile input (request.avro.dataSchema input) = .ok data →
      ∀ datum ∈ data, DatumReadAlike request datum) :
    Agree (List.Forall₂ SameView) (entriesIn input (request.avro.dataSchema input) {})
      (entriesIn input schema request.config) := by
  have hfields : Agree (List.Forall₂ SameView) (entriesIn input (request.avro.dataSchema input) {})
      (entriesIn input (request.avro.dataSchema input) request.config) := by
    unfold entriesIn
    cases hread : request.avro.readFile input (request.avro.dataSchema input) with
    | error message => exact .error _ _
    | ok data =>
      simp only [ok_bind]
      apply mapM_agree (List.forall₂_same.mpr (fun _ _ => rfl))
      rintro datum hdatum _ rfl
      exact (hdata data hread datum hdatum).agree
  cases hreaderSchema : request.useReaderSchema with
  | false =>
    rw [hreaderSchema] at hschema
    cases hschema
    exact hfields
  | true =>
    rw [hreaderSchema] at hschema
    have hsame := hreader manifestFile input partitionSpec schema hinput hschema
    apply hfields.trans (S := Eq) _ (hsame.symm (fun _ _ => Eq.symm))
    rintro a b _ hab rfl
    exact hab

/-- The stream and the task give the planner the same entries, or both fail. -/
lemma ReadAlike.agree (hreader : ReaderSchemaExact request) {manifestFile : ManifestFile}
    (h : ReadAlike request manifestFile) :
    Agree (List.Forall₂ SameView) (streamEntries request manifestFile) (taskEntries request manifestFile) := by
  unfold streamEntries taskEntries ScanRequest.getManifestEntryStream ScanRequest.getManifest
  simp only [bind_assoc]
  cases hinput : request.readFile manifestFile.path with
  | error message => exact .error _ _
  | ok input =>
    simp only [ok_bind]
    cases hspec : request.partitionFields manifestFile with
    | error message => exact .error _ _
    | ok partitionSpec =>
      obtain ⟨hid, hdeletes⟩ := h input partitionSpec hinput hspec
      obtain ⟨filled, hfilled⟩ := (fillSchemaId_ok_iff _ _ _).mpr hid
      have htask : ∀ schema, (request.avro.readFile input schema >>= fun data =>
          data.mapM (deserializeManifestEntry request.config) >>= fun entries =>
            (pure ⟨filled, entries⟩ : Except String Manifest) >>= fun manifest =>
              manifest.entries.mapM (addSequenceNumberOrFail manifestFile)) =
          (entriesIn input schema request.config >>= fun entries =>
            entries.mapM (addSequenceNumberOrFail manifestFile)) := by
        intro schema
        simp only [entriesIn, bind_assoc, pure_bind]
      have hof : ∀ {x y z : Except String (List ManifestEntry)}, Agree Eq x y →
          Agree (List.Forall₂ SameView) y z → Agree (List.Forall₂ SameView) x z := by
        intro x y z hxy hyz
        apply hxy.trans _ hyz
        rintro a _ c rfl hac
        exact hac
      simp only [ok_bind, ScanRequest.manifestEntryStream, readManifestEntries, hfilled, bind_assoc, htask]
      by_cases hcontent : manifestFile.content = .deletes
      · obtain ⟨hschema, hdata⟩ := hdeletes hcontent
        obtain ⟨schema, hschema⟩ : ∃ schema, manifestReaderSchema request.avro input partitionSpec request.config
            request.useReaderSchema = .ok schema := by
          cases huse : request.useReaderSchema with
          | true => exact hschema huse
          | false => exact ⟨_, rfl⟩
        simp only [ScanRequest.streamConfig, if_pos hcontent, hschema, ok_bind]
        change Agree _ (validatePartitionSpec partitionSpec _ >>= _) _
        apply (Agree.of_eq rfl).bind
        rintro u _ rfl
        apply hof (streamed_agree manifestFile input _ _)
        exact numbered_agree manifestFile (deletes_agree hreader hinput hschema hdata)
      · simp only [ScanRequest.streamConfig, if_neg hcontent]
        apply (Agree.of_eq rfl).bind
        rintro schema _ rfl
        apply (Agree.of_eq rfl).bind
        rintro u _ rfl
        apply hof (streamed_agree manifestFile input schema request.config)
        exact .refl sameViews_refl _

/-! ### Runs of the tasks -/

/-- How far a task has come with its manifest: the entries it has submitted. -/
def TaskAt (request : ScanRequest) (task : ManifestFileTask) (submitted : List ManifestEntry) : Prop :=
  match task.phase with
  | .queued => submitted = []
  | .submitting rest => ∃ manifest done, request.getManifest task.manifestFile = .ok manifest ∧
      manifest.entries = done ++ rest ∧ done.mapM (addSequenceNumberOrFail task.manifestFile) = .ok submitted
  | .returned => taskEntries request task.manifestFile = .ok submitted
  | .failed _ => ∃ message, taskEntries request task.manifestFile = .error message

lemma stepTask_taskAt {task : ManifestFileTask} {phase : ManifestFileTaskPhase} {entry : Option ManifestEntry}
    {submitted : List ManifestEntry} (hat : TaskAt request task submitted)
    (h : MultiThreadedPlanning.stepTask request task = some (phase, entry)) :
    TaskAt request { task with phase := phase } (submitted ++ entry.toList) := by
  obtain ⟨manifestFile, taskPhase⟩ := task
  cases taskPhase with
  | queued =>
    have hnone : submitted = [] := hat
    simp only [MultiThreadedPlanning.stepTask] at h
    cases hmanifest : request.getManifest manifestFile with
    | ok manifest =>
      rw [hmanifest] at h
      cases h
      exact ⟨manifest, [], hmanifest, rfl, by rw [hnone]; rfl⟩
    | error message =>
      rw [hmanifest] at h
      cases h
      refine ⟨message, ?_⟩
      change (request.getManifest manifestFile >>= _) = _
      rw [hmanifest]
      rfl
  | submitting rest =>
    obtain ⟨manifest, done, hmanifest, hentries, hdone⟩ := hat
    have htask : taskEntries request manifestFile =
        (done ++ rest).mapM (addSequenceNumberOrFail manifestFile) := by
      change (request.getManifest manifestFile >>= _) = _
      rw [hmanifest, ok_bind, hentries]
    cases rest with
    | nil =>
      cases h
      change taskEntries request manifestFile = _
      rw [htask, List.append_nil, Option.toList_none, List.append_nil]
      exact hdone
    | cons next rest =>
      simp only [MultiThreadedPlanning.stepTask] at h
      cases hnumber : addSequenceNumberOrFail manifestFile next with
      | ok numbered =>
        rw [hnumber] at h
        cases h
        refine ⟨manifest, done ++ [next], hmanifest, by rw [hentries, List.append_assoc]; rfl, ?_⟩
        rw [List.mapM_append, hdone, List.mapM_cons, hnumber]
        rfl
      | error message =>
        rw [hnumber] at h
        cases h
        refine ⟨message, ?_⟩
        change taskEntries request manifestFile = _
        rw [htask, List.mapM_append, hdone, List.mapM_cons, hnumber]
        rfl
  | returned => cases h
  | failed message => cases h

lemma Interleaved.submit {tableMetadata : TableMetadata} {entries : List ManifestEntry}
    {s : ReferencedDataFileAwareScanPlannerMT} {taken left : List SubStep}
    (hs : Interleaved tableMetadata entries s taken left) (entry : ManifestEntry) :
    Interleaved tableMetadata (entries ++ [entry]) (MultiThreadedPlanning.submit s (some entry)) taken
      (left ++ subStepsOf entry) := by
  have hfailure : (s.calls ++ [AddEntryCall.mk entry .called]).findSome? AddEntryCall.failure =
      s.calls.findSome? AddEntryCall.failure := by
    rw [List.findSome?_append]
    cases s.calls.findSome? AddEntryCall.failure <;> rfl
  refine ⟨?_, ?_, ?_⟩
  · rw [← List.append_assoc, List.flatMap_append, List.flatMap_singleton]
    exact hs.perm.append_right _
  · intro hnone
    obtain ⟨hleft, htaken⟩ := hs.running (hfailure.symm.trans hnone)
    refine ⟨?_, htaken⟩
    rw [hleft]
    change _ = (s.calls ++ [AddEntryCall.mk entry .called]).flatMap pendingSubSteps
    rw [List.flatMap_append, List.flatMap_singleton]
    rfl
  · intro hne
    exact hs.failed (fun hnone => hne (hfailure.trans hnone))

lemma entries_step {s s' : ReferencedDataFileAwareScanPlannerMT} {index : Nat} (h : s.step index = some s') :
    s'.calls.map AddEntryCall.entry = s.calls.map AddEntryCall.entry := by
  obtain ⟨before, call, after, phase, hcalls, -, hcalls'⟩ := step_split h
  rw [hcalls, hcalls', List.map_append, List.map_append, List.map_cons, List.map_cons]

lemma submit_none (builder : ReferencedDataFileAwareScanPlannerMT) :
    MultiThreadedPlanning.submit builder none = builder := by
  simp [MultiThreadedPlanning.submit]

lemma entries_submit (builder : ReferencedDataFileAwareScanPlannerMT) (entry : Option ManifestEntry) :
    (MultiThreadedPlanning.submit builder entry).calls.map AddEntryCall.entry =
      builder.calls.map AddEntryCall.entry ++ entry.toList := by
  cases entry with
  | none => rw [submit_none, Option.toList_none, List.append_nil]
  | some entry => simp [MultiThreadedPlanning.submit]

/-- Each task with what it has submitted. -/
structure Planning (request : ScanRequest) (manifestFiles : List ManifestFile) (s : MultiThreadedPlanning)
    (reads : List (ManifestFileTask × List ManifestEntry)) : Prop where
  tasks : reads.map Prod.fst = s.tasks
  files : s.tasks.map ManifestFileTask.manifestFile = manifestFiles
  taskAt : ∀ read ∈ reads, TaskAt request read.1 read.2
  calls : (s.scanMetadataBuilder.calls.map AddEntryCall.entry).Perm (reads.flatMap Prod.snd)
  interleaved : ∃ taken left, Interleaved request.tableMetadata (s.scanMetadataBuilder.calls.map AddEntryCall.entry)
    s.scanMetadataBuilder taken left

lemma planning_start (request : ScanRequest) (manifestFiles : List ManifestFile) :
    Planning request manifestFiles (.start request manifestFiles)
      (manifestFiles.map (fun manifestFile => (⟨manifestFile, .queued⟩, []))) where
  tasks := by
    rw [List.map_map]
    rfl
  files := by
    change (manifestFiles.map _).map _ = _
    rw [List.map_map]
    exact List.map_id _
  taskAt := by
    intro read hread
    obtain ⟨manifestFile, -, rfl⟩ := List.mem_map.mp hread
    rfl
  calls := by
    rw [List.flatMap_map]
    change ([] : List ManifestEntry).Perm _
    rw [List.flatMap_eq_nil_iff.mpr (fun _ _ => rfl)]
  interleaved := ⟨_, _, interleaved_start request.tableMetadata []⟩

lemma Planning.step {manifestFiles : List ManifestFile} {s s' : MultiThreadedPlanning}
    {reads : List (ManifestFileTask × List ManifestEntry)} {action : PlanningAction}
    (hs : Planning request manifestFiles s reads) (h : s.step request action = some s') :
    ∃ reads', Planning request manifestFiles s' reads' := by
  cases action with
  | entry index =>
    obtain ⟨builder, hbuilder, rfl⟩ := Option.map_eq_some_iff.mp h
    obtain ⟨taken, left, hinterleaved⟩ := hs.interleaved
    refine ⟨reads, hs.tasks, hs.files, hs.taskAt, ?_, ?_⟩
    · change (builder.calls.map AddEntryCall.entry).Perm _
      rw [entries_step hbuilder]
      exact hs.calls
    · change ∃ taken left, Interleaved _ (builder.calls.map AddEntryCall.entry) builder taken left
      rw [entries_step hbuilder]
      exact hinterleaved.step hbuilder
  | manifest index =>
    unfold MultiThreadedPlanning.step at h
    cases htask : s.tasks[index]? with
    | none =>
      simp only [htask] at h
      cases h
    | some task =>
      simp only [htask] at h
      obtain ⟨⟨phase, entry⟩, hstep, rfl⟩ := Option.map_eq_some_iff.mp h
      obtain ⟨hlt, hget⟩ := List.getElem?_eq_some_iff.mp htask
      have hsplit : s.tasks = s.tasks.take index ++ task :: s.tasks.drop (index + 1) := by
        rw [← hget, ← List.drop_eq_getElem_cons hlt, List.take_append_drop]
      have hset : s.tasks.set index { task with phase := phase } =
          s.tasks.take index ++ { task with phase := phase } :: s.tasks.drop (index + 1) := by
        rw [List.set_eq_take_append_cons_drop, if_pos hlt]
      obtain ⟨before, rest, hreads, hbefore, hrest⟩ := List.map_eq_append_iff.mp (hs.tasks.trans hsplit)
      obtain ⟨⟨task', submitted⟩, after, rfl, hsame, hafter⟩ := List.map_eq_cons_iff.mp hrest
      obtain rfl : task' = task := hsame
      subst hreads
      obtain ⟨taken, left, hinterleaved⟩ := hs.interleaved
      have hread := hs.taskAt _ (List.mem_append_right before List.mem_cons_self)
      refine ⟨before ++ ({ task' with phase := phase }, submitted ++ entry.toList) :: after, ?_, ?_, ?_, ?_, ?_⟩
      · rw [List.map_append, List.map_cons, hbefore, hafter]
        exact hset.symm
      · change (s.tasks.set index _).map _ = _
        rw [hset, ← hs.files, List.map_append, List.map_cons]
        conv_rhs => rw [hsplit, List.map_append, List.map_cons]
      · intro read hmem
        rcases List.mem_append.mp hmem with hmem | hmem
        · exact hs.taskAt read (List.mem_append_left _ hmem)
        · rcases List.mem_cons.mp hmem with rfl | hmem
          · exact stepTask_taskAt hread hstep
          · exact hs.taskAt read (List.mem_append_right _ (List.mem_cons_of_mem _ hmem))
      · have hcalls := hs.calls
        rw [List.flatMap_append, List.flatMap_cons] at hcalls ⊢
        change ((MultiThreadedPlanning.submit s.scanMetadataBuilder entry).calls.map _).Perm _
        rw [entries_submit]
        apply (hcalls.append_right entry.toList).trans
        rw [List.append_assoc, List.append_assoc, List.append_assoc]
        exact (List.perm_append_comm.append_left submitted).append_left _
      · change ∃ taken left, Interleaved _
          ((MultiThreadedPlanning.submit s.scanMetadataBuilder entry).calls.map AddEntryCall.entry) _ taken left
        rw [entries_submit]
        cases entry with
        | none =>
          rw [submit_none, Option.toList_none, List.append_nil]
          exact hs.interleaved
        | some entry => exact ⟨taken, _, hinterleaved.submit entry⟩

/-- Finished tasks: a manifest could not be read, or the planner has taken the sub-steps of all entries in
some order. -/
lemma Planning.result_agree {manifestFiles : List ManifestFile} {s : MultiThreadedPlanning}
    {reads : List (ManifestFileTask × List ManifestEntry)} (hs : Planning request manifestFiles s reads)
    (hfinished : s.finished = true) :
    ((∃ message, s.result = .error message) ∧ ∃ message, manifestFiles.mapM (taskEntries request) = .error message) ∨
      ∃ (ls : List (List ManifestEntry)) (steps : List SubStep),
        manifestFiles.mapM (taskEntries request) = .ok ls ∧
        steps.Perm (ls.flatten.flatMap subStepsOf) ∧ Agree Eq s.result
          (steps.foldlM runSubStep (.make request.tableMetadata) >>=
            ReferencedDataFileAwareScanPlanner.getResult) := by
  obtain ⟨htasks, hbuilder⟩ := Bool.and_eq_true_iff.mp hfinished
  have hfiles : manifestFiles = reads.map (fun read => read.1.manifestFile) := by
    rw [← hs.files, ← hs.tasks, List.map_map]
    rfl
  unfold MultiThreadedPlanning.result
  cases hfailure : s.tasks.findSome? ManifestFileTask.failure with
  | some message =>
    left
    refine ⟨⟨message, rfl⟩, ?_⟩
    obtain ⟨task, htask, hmessage⟩ := List.exists_of_findSome?_eq_some hfailure
    rw [← hs.tasks] at htask
    obtain ⟨⟨task, submitted⟩, hread, rfl⟩ := List.mem_map.mp htask
    obtain ⟨message', hfailed⟩ : ∃ message, taskEntries request task.manifestFile = .error message := by
      have hat := hs.taskAt _ hread
      obtain ⟨manifestFile, phase⟩ := task
      cases phase with
      | failed message => exact hat
      | _ => cases hmessage
    cases hall : manifestFiles.mapM (taskEntries request) with
    | error message => exact ⟨message, rfl⟩
    | ok ls =>
      have hmem : task.manifestFile ∈ manifestFiles := by
        rw [hfiles]
        exact List.mem_map_of_mem (f := fun read => read.1.manifestFile) hread
      have hboth := (mapM_ok_iff.mp hall).imp (S := fun manifestFile entries =>
        (∃ entries, taskEntries request manifestFile = .ok entries) ∧
          taskEntries request manifestFile = .ok entries) (fun _ entries h => ⟨⟨entries, h⟩, h⟩)
      obtain ⟨entries, hok⟩ := ((List.forall₂_and_left _ _).mp hboth).1 _ hmem
      rw [hok] at hfailed
      cases hfailed
  | none =>
    right
    obtain ⟨taken, left, hinterleaved⟩ := hs.interleaved
    have hall : manifestFiles.mapM (taskEntries request) = .ok (reads.map Prod.snd) := by
      rw [hfiles, mapM_ok_iff, List.forall₂_map_left_iff, List.forall₂_map_right_iff]
      apply List.forall₂_same.mpr
      intro read hread
      have hat := hs.taskAt read hread
      have hmem : read.1 ∈ s.tasks := hs.tasks ▸ List.mem_map_of_mem hread
      have hdone := List.all_eq_true.mp htasks read.1 hmem
      have hnone := List.findSome?_eq_none_iff.mp hfailure read.1 hmem
      obtain ⟨⟨manifestFile, phase⟩, submitted⟩ := read
      cases phase with
      | queued => cases hdone
      | submitting rest => cases hdone
      | returned => exact hat
      | failed message => cases hnone
    refine ⟨reads.map Prod.snd, taken ++ left, hall, ?_, hinterleaved.result_agree hbuilder⟩
    apply hinterleaved.perm.trans
    rw [← List.flatMap_def]
    exact hs.calls.flatMap_right _

end

/-- Where every manifest shows the planner the same entries either way, and no two deletion vectors share a
key, every order in which the tasks run gives the plan of one thread, up to the order of the entries inside
each layer, or both fail. -/
theorem multiThreaded_agrees (request : ScanRequest) (hreader : ReaderSchemaExact request)
    (hread : ∀ manifestFiles, request.getManifestFiles = .ok manifestFiles →
      ∀ manifestFile ∈ manifestFiles, ReadAlike request manifestFile)
    (hvectors : ∀ manifestFiles ls, request.getManifestFiles = .ok manifestFiles →
      manifestFiles.mapM (taskEntries request) = .ok ls → VectorsApart ls.flatten)
    (result : Except String ScanMetadata) (h : GetScanMetadataMultiThreaded request result) :
    Agree SamePlan request.getScanMetadataSingleThreaded result := by
  have hof : ∀ a b c : ScanMetadata, a = b → SamePlan b c → SamePlan a c := by
    rintro a _ c rfl hac
    exact hac
  cases h with
  | @unread message hfiles =>
    have hsingle : request.getScanMetadataSingleThreaded = .error message := by
      rw [ScanRequest.getScanMetadataSingleThreaded, hfiles]
      rfl
    rw [hsingle]
    exact .error _ _
  | @planned manifestFiles actions s hfiles hrun hfinished =>
    obtain ⟨reads, hs⟩ := foldlM_invariant (P := fun s => ∃ reads, Planning request manifestFiles s reads)
      ⟨_, planning_start request manifestFiles⟩
      (fun s action s' hs hstep => hs.elim (fun reads hs => hs.step hstep)) hrun
    have hentries : Agree (List.Forall₂ (List.Forall₂ SameView)) (manifestFiles.mapM (streamEntries request))
        (manifestFiles.mapM (taskEntries request)) := by
      apply mapM_agree (List.forall₂_same.mpr (fun _ _ => rfl))
      rintro manifestFile hmanifest _ rfl
      exact (hread manifestFiles hfiles manifestFile hmanifest).agree hreader
    apply (singleThreaded_agree request).trans hof
    rw [hfiles, ok_bind]
    rcases hs.result_agree hfinished with ⟨⟨message, hresult⟩, message', hfailed⟩ | ⟨ls, steps, hls, hperm, hresult⟩
    · rw [hfailed] at hentries
      rw [hresult]
      generalize manifestFiles.mapM (streamEntries request) = streamed at hentries
      cases hentries
      exact .error _ _
    · rw [hls] at hentries
      have hagree := subSteps_agree request.tableMetadata hperm.symm (subSteps_pairwise (hvectors _ _ hfiles hls))
      generalize manifestFiles.mapM (streamEntries request) = streamed at hentries
      cases hentries with
      | ok hviews =>
        rw [ok_bind, getScanMetadata, addEntries_sameView (List.rel_flatten hviews), addEntries_subSteps]
        apply hagree.trans _ (hresult.symm (fun _ _ => Eq.symm))
        rintro a b _ hab rfl
        exact hab

/-! ### A table with an equality delete -/

/-- The manifests of the table. -/
def listedManifests : List ManifestFile := [
  { path := bytes "data.avro", sequenceNumber := 1 },
  { path := bytes "deletes.avro", content := .deletes, sequenceNumber := 2 }]

def listedData : ManifestEntry := { status := .added, dataFile := { filePath := bytes "a" } }

def listedDelete : ManifestEntry :=
  { status := .added, dataFile := { content := .equalityDeletes, filePath := bytes "e", equalityIds := [1] } }

/-- The table in files that the library keeps in memory, read without a reader schema. -/
def equalityRequest (config : ManifestEntryDeserializerConfig) : ScanRequest where
  avro := memoryAvro
  json := compactJson
  getInt := assertedInt
  readFile path :=
    if path = bytes "list.avro" then writeManifestList memoryAvro listedManifests
    else if path = bytes "data.avro" then writeManifestEntries memoryAvro ⟨∅, [listedData]⟩ []
    else writeManifestEntries memoryAvro ⟨∅, [listedDelete]⟩ []
  tableMetadata := { flatTable with currentManifestListPath := some (bytes "list.avro") }
  useReaderSchema := false
  config := config

def skipColumnSizes : ManifestEntryDeserializerConfig := { datafileConfig := { extractColumnSizes := false } }

def skipEqualityIds : ManifestEntryDeserializerConfig := { datafileConfig := { extractEqualityIds := false } }

/-- The tasks over both manifests overlap, and the delete is planned first. -/
def deleteFirst : List PlanningAction :=
  [.manifest 0, .manifest 1, .manifest 1, .entry 0, .manifest 0, .entry 0, .entry 1, .manifest 1, .manifest 0,
    .entry 1]

/-- The plan for the table, with these field ids in the delete. -/
def equalityPlan (fieldIds : List Int) : ScanMetadata where
  schema := ⟨0, []⟩
  partitions := [[
    { dataEntries := [⟨bytes "a", [⟨4, 0⟩], none⟩]
      equalityDeleteEntries := [⟨bytes "e", fieldIds⟩] }]]

/-- How the run `deleteFirst` ends. -/
def deleteFirstResult (config : ManifestEntryDeserializerConfig) : Option (Bool × Except String ScanMetadata) :=
  (deleteFirst.foldlM (MultiThreadedPlanning.step (equalityRequest config))
    (.start (equalityRequest config) listedManifests)).map (fun s => (s.finished, s.result))

lemma equalityRequest_files (config : ManifestEntryDeserializerConfig) :
    (equalityRequest config).getManifestFiles = .ok listedManifests := by
  rfl

lemma equalityRequest_reader (config : ManifestEntryDeserializerConfig) :
    ReaderSchemaExact (equalityRequest config) := by
  intro manifestFile input partitionSpec schema hinput hschema
  exact .of_eq rfl

lemma deleteFirst_run {config : ManifestEntryDeserializerConfig} {result : Except String ScanMetadata}
    (h : deleteFirstResult config = some (true, result)) :
    GetScanMetadataMultiThreaded (equalityRequest config) result := by
  obtain ⟨s, hrun, hs⟩ := Option.map_eq_some_iff.mp h
  obtain ⟨hfinished, rfl⟩ := Prod.mk.inj hs
  exact .planned (equalityRequest_files config) hrun hfinished

/-- Neither manifest names a schema, and each holds its entry. -/
lemma equalityRequest_input {config : ManifestEntryDeserializerConfig} {manifestFile : ManifestFile}
    (hmanifest : manifestFile ∈ listedManifests) {input : memoryAvro.File}
    (hinput : (equalityRequest config).readFile manifestFile.path = .ok input) :
    (((memoryAvro.metadata input).erase (bytes "avro.schema")).erase (bytes "avro.codec")).find? (bytes "schema") =
        none ∧
      ∃ entry ∈ [listedData, listedDelete], input.2.2.map (deserializeManifestEntry {}) = [.ok entry] := by
  simp only [listedManifests, List.mem_cons, List.not_mem_nil, or_false] at hmanifest
  rcases hmanifest with rfl | rfl
  · cases hinput
    exact ⟨rfl, listedData, List.mem_cons_self, rfl⟩
  · cases hinput
    exact ⟨rfl, listedDelete, List.mem_cons_of_mem _ List.mem_cons_self, rfl⟩

lemma skipColumnSizes_sameView {entry : ManifestEntry} (hentry : entry ∈ [listedData, listedDelete]) :
    SameView entry (restrictEntry skipColumnSizes entry) := by
  simp only [List.mem_cons, List.not_mem_nil, or_false] at hentry
  rcases hentry with rfl | rfl <;> rfl

lemma skipColumnSizes_readAlike {manifestFile : ManifestFile} (hmanifest : manifestFile ∈ listedManifests) :
    ReadAlike (equalityRequest skipColumnSizes) manifestFile := by
  intro input partitionSpec hinput hspec
  obtain ⟨hschema, entry, hentry, hentries⟩ := equalityRequest_input hmanifest hinput
  refine ⟨Or.inr ?_, ?_⟩
  · intro schema document hfind
    cases hschema.symm.trans hfind
  · intro hdeletes
    constructor
    · intro huse
      cases huse
    intro data hdata datum hdatum
    cases hdata
    have hmem : deserializeManifestEntry {} datum ∈ [.ok entry] := hentries ▸ List.mem_map_of_mem hdatum
    exact Or.inr ⟨entry, List.mem_singleton.mp hmem, skipColumnSizes_sameView hentry⟩

set_option maxRecDepth 4000 in
lemma skipColumnSizes_single :
    (equalityRequest skipColumnSizes).getScanMetadataSingleThreaded = .ok (equalityPlan [1]) := by
  rfl

set_option maxRecDepth 4000 in
lemma skipColumnSizes_multi : deleteFirstResult skipColumnSizes = some (true, .ok (equalityPlan [1])) := by
  rfl

set_option maxRecDepth 4000 in
lemma skipColumnSizes_vectors {ls : List (List ManifestEntry)}
    (h : listedManifests.mapM (taskEntries (equalityRequest skipColumnSizes)) = .ok ls) : VectorsApart ls.flatten := by
  cases h
  decide

theorem skipColumnSizes_agrees : ∃ plan plan',
    (equalityRequest skipColumnSizes).getScanMetadataSingleThreaded = .ok plan ∧
      GetScanMetadataMultiThreaded (equalityRequest skipColumnSizes) (.ok plan') ∧ SamePlan plan plan' := by
  have hread : ∀ manifestFiles, (equalityRequest skipColumnSizes).getManifestFiles = .ok manifestFiles →
      ∀ manifestFile ∈ manifestFiles, ReadAlike (equalityRequest skipColumnSizes) manifestFile := by
    intro manifestFiles hfiles manifestFile hmanifest
    cases (equalityRequest_files skipColumnSizes).symm.trans hfiles
    exact skipColumnSizes_readAlike hmanifest
  have hvectors : ∀ manifestFiles ls, (equalityRequest skipColumnSizes).getManifestFiles = .ok manifestFiles →
      manifestFiles.mapM (taskEntries (equalityRequest skipColumnSizes)) = .ok ls → VectorsApart ls.flatten := by
    intro manifestFiles ls hfiles hls
    cases (equalityRequest_files skipColumnSizes).symm.trans hfiles
    exact skipColumnSizes_vectors hls
  have hrun := deleteFirst_run skipColumnSizes_multi
  have hagree := multiThreaded_agrees _ (equalityRequest_reader _) hread hvectors _ hrun
  rw [skipColumnSizes_single] at hagree
  cases hagree with
  | ok hsame => exact ⟨_, _, skipColumnSizes_single, hrun, hsame⟩

set_option maxRecDepth 4000 in
lemma skipEqualityIds_single :
    (equalityRequest skipEqualityIds).getScanMetadataSingleThreaded = .ok (equalityPlan [1]) := by
  rfl

set_option maxRecDepth 4000 in
lemma skipEqualityIds_multi : deleteFirstResult skipEqualityIds = some (true, .ok (equalityPlan [])) := by
  rfl

/-- The task over the delete manifest skips the field ids too. -/
theorem skipEqualityIds_disagrees : ¬∀ request : ScanRequest, ReaderSchemaExact request →
    ∀ result, GetScanMetadataMultiThreaded request result →
      Agree SamePlan request.getScanMetadataSingleThreaded result := by
  intro hall
  have hagree := hall _ (equalityRequest_reader _) _ (deleteFirst_run skipEqualityIds_multi)
  rw [skipEqualityIds_single] at hagree
  cases hagree with
  | ok hsame =>
    cases hsame.partitions with
    | cons hpartition _ =>
      cases hpartition with
      | cons hlayer _ =>
        have hids := List.perm_singleton.mp hlayer.equality
        exact absurd hids (by decide)

end IcebergCxx.Proofs

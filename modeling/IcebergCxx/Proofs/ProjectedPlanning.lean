import IcebergCxx.Proofs.ProjectedManifest
import IcebergCxx.Proofs.PrunedManifests

/-!
# Planning with some of the fields of data files

Planning may ask for fewer fields of the data files, and may read their manifests with a schema of its own. Manifests of
deletes are read whole. If the fields that planning looks at are among those it asks for, the plan is the same.
-/

namespace IcebergCxx.Proofs

open Lib

/-- The request with other fields to extract. -/
def extracting (request : ScanRequest) (cfg : ManifestEntryDeserializerConfig) (useReaderSchema : Bool) : ScanRequest :=
  { request with config := cfg, useReaderSchema := useReaderSchema }

/-- The fields that planning looks at are extracted. -/
structure ExtractsPlanned (cfg : ManifestEntryDeserializerConfig) : Prop where
  status : cfg.extractStatus = true
  sequenceNumber : cfg.extractSequenceNumber = true
  filePath : cfg.datafileConfig.extractFilePath = true
  partitionTuple : cfg.datafileConfig.extractPartitionTuple = true
  splitOffsets : cfg.datafileConfig.extractSplitOffsets = true

/-- A manifest of data files: its entries are of data files, but for those that were deleted, and the schema for the
extracted fields selects from that of the file. -/
def DataManifest (request : ScanRequest) (cfg : ManifestEntryDeserializerConfig) (useReaderSchema : Bool)
    (manifestFile : ManifestFile) : Prop :=
  ∀ input spec, request.readFile manifestFile.path = .ok input → request.partitionFields manifestFile = .ok spec →
    (useReaderSchema = true → SelectedFrom request.avro input spec cfg) ∧
      ∀ data, request.avro.readFile input (request.avro.dataSchema input) = .ok data →
        ∀ d ∈ data, ∀ entry, deserializeManifestEntry {} d = .ok entry →
          entry.status ≠ .deleted → entry.dataFile.content = .data

lemma plannerFields_restrict {config : DataFileDeserializerConfig} {file : ContentFile} (hcontent : file.content = .data)
    (hpath : config.extractFilePath = true) (htuple : config.extractPartitionTuple = true)
    (hoffsets : config.extractSplitOffsets = true) : plannerFields (restrictFile config file) = plannerFields file := by
  have hkept : (restrictFile config file).content = .data := by
    rw [restrictFile, hcontent, ite_self]
  simp only [plannerFields, hkept, hcontent]
  simp only [restrictFile, hpath, htuple, hoffsets, if_true]

/-- Planning does not see what was left out of a data file. -/
lemma sameView_restrict {cfg : ManifestEntryDeserializerConfig} (hcfg : ExtractsPlanned cfg) {entry : ManifestEntry}
    (hdata : entry.status ≠ .deleted → entry.dataFile.content = .data) : SameView entry (restrictEntry cfg entry) := by
  have hstatus : (restrictEntry cfg entry).status = entry.status := by rw [restrictEntry, hcfg.status, if_pos rfl]
  have hnumber : (restrictEntry cfg entry).sequenceNumber = entry.sequenceNumber := by
    rw [restrictEntry, hcfg.sequenceNumber, if_pos rfl]
  unfold SameView plannerView
  rw [hstatus, hnumber]
  by_cases hdeleted : entry.status = .deleted
  · simp only [if_pos hdeleted]
  · simp only [if_neg hdeleted]
    have hfile := plannerFields_restrict (hdata hdeleted) hcfg.filePath hcfg.partitionTuple hcfg.splitOffsets
    exact congrArg (fun file => ({ status := entry.status, sequenceNumber := entry.sequenceNumber, dataFile := file } :
      ManifestEntry)) hfile.symm

section
variable {request : ScanRequest} {cfg : ManifestEntryDeserializerConfig} {useReaderSchema : Bool}

/-- One datum, read whole and read in part. -/
lemma streamed_restrict (hcfg : ExtractsPlanned cfg) {manifestFile : ManifestFile} {g : AvroDatum → AvroDatum}
    {data : List AvroDatum} {entries : List ManifestEntry}
    (hread : ∀ d ∈ data, ∀ entry, deserializeManifestEntry {} d = .ok entry →
      deserializeManifestEntry cfg (g d) = .ok (restrictEntry cfg entry) ∧
        (entry.status ≠ .deleted → entry.dataFile.content = .data))
    (h : data.mapM (fun datum => deserializeManifestEntry {} datum >>= addSequenceNumberOrFail manifestFile) = .ok entries) :
    ∃ entries', (data.map g).mapM (fun datum => deserializeManifestEntry cfg datum >>=
      addSequenceNumberOrFail manifestFile) = .ok entries' ∧ List.Forall₂ SameView entries entries' := by
  rw [mapM_ok_iff] at h
  simp only [mapM_ok_iff, List.forall₂_map_left_iff]
  induction h with
  | nil => exact ⟨[], .nil, .nil⟩
  | @cons datum entry data entries hdatum _ ih =>
    rw [List.forall_mem_cons] at hread
    obtain ⟨entries', hentries', hviews⟩ := ih hread.2
    obtain ⟨whole, hwhole, hnumbered⟩ := bind_ok hdatum
    obtain ⟨hpart, hdata⟩ := hread.1 whole hwhole
    have hagree := addSequenceNumberOrFail_sameView manifestFile (sameView_restrict hcfg hdata)
    rw [hnumbered] at hagree
    obtain ⟨entry', hentry', hview⟩ : ∃ entry', addSequenceNumberOrFail manifestFile (restrictEntry cfg whole) = .ok entry' ∧
        SameView entry entry' := by
      generalize addSequenceNumberOrFail manifestFile (restrictEntry cfg whole) = numbered at hagree
      cases hagree with
      | ok hview => exact ⟨_, rfl, hview⟩
    refine ⟨entry' :: entries', .cons ?_ hentries', .cons hview hviews⟩
    rw [hpart, ok_bind, hentry']

/-- The entries of a manifest of data files, by what is extracted of them. -/
lemma streamEntries_extracting {manifestFile : ManifestFile} (hcontent : manifestFile.content ≠ .deletes) :
    streamEntries (extracting request cfg useReaderSchema) manifestFile = (do
      let input ← request.readFile manifestFile.path
      let spec ← request.partitionFields manifestFile
      let schema ← manifestReaderSchema request.avro input spec cfg useReaderSchema
      validatePartitionSpec spec (request.avro.dataSchema input)
      let data ← request.avro.readFile input schema
      data.mapM (fun datum => deserializeManifestEntry cfg datum >>= addSequenceNumberOrFail manifestFile)) := by
  simp only [streamEntries, ScanRequest.getManifestEntryStream, ScanRequest.streamConfig, if_neg hcontent,
    ScanRequest.manifestEntryStream, bind_assoc]
  rfl

/-- The entries of one manifest. -/
lemma streamEntries_restrict (hresolves : Resolves request.avro) (hcfg : ExtractsPlanned cfg) {manifestFile : ManifestFile}
    (hmanifest : manifestFile.content ≠ .deletes → DataManifest request cfg useReaderSchema manifestFile)
    {entries : List ManifestEntry} (h : streamEntries (extracting request {} false) manifestFile = .ok entries) :
    ∃ entries', streamEntries (extracting request cfg useReaderSchema) manifestFile = .ok entries' ∧
      List.Forall₂ SameView entries entries' := by
  by_cases hcontent : manifestFile.content = .deletes
  · refine ⟨entries, ?_, sameViews_refl entries⟩
    rw [← h]
    simp only [streamEntries, ScanRequest.getManifestEntryStream, ScanRequest.streamConfig, if_pos hcontent]
    rfl
  · rw [streamEntries_extracting hcontent] at h
    rw [streamEntries_extracting hcontent]
    obtain ⟨input, hinput, h⟩ := bind_ok h
    obtain ⟨spec, hspec, h⟩ := bind_ok h
    obtain ⟨schema, hschema, h⟩ := bind_ok h
    obtain ⟨u, hvalid, h⟩ := bind_ok h
    obtain ⟨data, hdata, hentries⟩ := bind_ok h
    cases hschema
    obtain ⟨hselected, hfiles⟩ := hmanifest hcontent input spec hinput hspec
    obtain ⟨schema, g, hschema, hread, hrestricted⟩ := readFile_restricted hresolves hselected hvalid hdata
    obtain ⟨entries', hentries', hviews⟩ := streamed_restrict hcfg (fun d hd entry hentry =>
      ⟨hrestricted d hd entry hentry, hfiles data hdata d hd entry hentry⟩) hentries
    refine ⟨entries', ?_, hviews⟩
    rw [hinput, ok_bind, hspec, ok_bind, hschema, ok_bind, hvalid, ok_bind, hread, ok_bind]
    exact hentries'

lemma forall₂_flatten {α β : Type} {R : α → β → Prop} {ls : List (List α)} {ls' : List (List β)}
    (h : List.Forall₂ (List.Forall₂ R) ls ls') : List.Forall₂ R ls.flatten ls'.flatten := by
  induction h with
  | nil => exact .nil
  | cons hl _ ih => exact List.rel_append hl ih

/-- The entries of all manifests. -/
lemma mapM_streamEntries_restrict (hresolves : Resolves request.avro) (hcfg : ExtractsPlanned cfg)
    {manifestFiles : List ManifestFile} (hmanifests : ∀ manifestFile ∈ manifestFiles, manifestFile.content ≠ .deletes →
      DataManifest request cfg useReaderSchema manifestFile) {ls : List (List ManifestEntry)}
    (h : manifestFiles.mapM (streamEntries (extracting request {} false)) = .ok ls) :
    ∃ ls', manifestFiles.mapM (streamEntries (extracting request cfg useReaderSchema)) = .ok ls' ∧
      List.Forall₂ (List.Forall₂ SameView) ls ls' := by
  rw [mapM_ok_iff] at h
  simp only [mapM_ok_iff]
  induction h with
  | nil => exact ⟨[], .nil, .nil⟩
  | @cons manifestFile entries manifestFiles ls hentries _ ih =>
    rw [List.forall_mem_cons] at hmanifests
    obtain ⟨entries', hentries', hviews⟩ := streamEntries_restrict hresolves hcfg hmanifests.1 hentries
    obtain ⟨ls', hls', hall⟩ := ih hmanifests.2
    exact ⟨entries' :: ls', .cons hentries' hls', .cons hviews hall⟩

lemma mem_of_mem_manifestFilesQueue {statsFilter : Option StatsFilter} {manifestFiles : List ManifestFile}
    {manifestFile : ManifestFile} (h : manifestFile ∈ request.manifestFilesQueue statsFilter manifestFiles) :
    manifestFile ∈ manifestFiles := by
  unfold ScanRequest.manifestFilesQueue at h
  split at h
  · exact h
  · split at h
    · exact h
    · obtain ⟨⟨manifest, skip⟩, hzip, hkept⟩ := List.mem_filterMap.mp h
      dsimp only at hkept
      split_ifs at hkept
      cases hkept
      exact (List.of_mem_zip hzip).1

end

/-- A delete of rows in the partition of the day. -/
def dayDelete : ManifestEntry where
  sequenceNumber := some 1
  dataFile := {
    content := .positionDeletes
    filePath := bytes "delete.parquet"
    partitionTuple := ⟨[⟨bytes "day", .int 19000, some .date⟩]⟩ }

def dayManifests : List ManifestFile := [
  { path := bytes "day.avro", partitionSpecId := 1 },
  { path := bytes "deletes.avro", partitionSpecId := 1, content := .deletes }]

def dayRequest : ScanRequest where
  avro := memoryResolvingAvro
  json := compactJson
  getInt := assertedInt
  readFile path :=
    if path = bytes "list.avro" then writeManifestList memoryResolvingAvro dayManifests
    else if path = bytes "day.avro" then writeManifestEntries memoryResolvingAvro dayManifest dayField
    else writeManifestEntries memoryResolvingAvro ⟨∅, [dayDelete]⟩ dayField
  tableMetadata := {
    currentSchema := ⟨0, [{ name := bytes "day", fieldId := 1, type := .date }]⟩
    partitionSpecs := [⟨1, [⟨1, 1000, bytes "day", bytes "identity"⟩]⟩]
    currentManifestListPath := some (bytes "list.avro") }
  useReaderSchema := false
  config := {}

lemma dayRequest_files : dayRequest.getManifestFiles = .ok dayManifests := by
  rfl

lemma dayRequest_dataManifest :
    DataManifest dayRequest planFields true { path := bytes "day.avro", partitionSpecId := 1 } := by
  intro input spec hinput hspec
  have hwrite : writeManifestEntries memoryResolvingAvro dayManifest dayField = .ok input := hinput
  have hfields : dayField = spec := Except.ok.inj hspec
  subst hfields
  refine ⟨fun _ => dayManifest_selectedFrom hwrite, ?_⟩
  obtain ⟨-, -, hschema⟩ := (manifestSchema_iff memoryResolvingAvro dayField_constructed _).mp
    (manifestReaderSchema_written hwrite)
  obtain ⟨hread, -⟩ := readFile_written dayField_declarable dayManifest_typed dayManifest_tuples hwrite hschema
  intro data hdata d hd entry hentry _
  cases hread.symm.trans hdata
  obtain ⟨e, he, rfl⟩ := List.mem_map.mp hd
  obtain ⟨e', he', tuple, -, hsame⟩ :=
    deserializeManifestEntry_ok dayField_constructed dayField_declarable (dayManifest_tuples e he)
  rw [he'] at hentry
  cases hentry
  rw [hsame, List.mem_singleton.mp he]
  rfl

set_option maxRecDepth 8000 in
/-- The plan of the file and the delete. -/
lemma dayRequest_plan : ∃ plan, (extracting dayRequest {} false).getScanMetadataFiltered none = .ok plan := by
  have hfiles : (extracting dayRequest {} false).getManifestFiles = .ok dayManifests := dayRequest_files
  rw [ScanRequest.getScanMetadataFiltered, hfiles]
  exact ⟨_, rfl⟩

end IcebergCxx.Proofs

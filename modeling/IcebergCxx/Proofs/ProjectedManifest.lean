import IcebergCxx.Lib.AvroProjection
import IcebergCxx.Proofs.TableScan

/-!
# Reading some of the fields of a manifest

A reader that extracts some fields of the entries reads what one that extracts all of them reads, with the defaults of the
fields that it leaves out. It may read with a schema of its own, which asks for fewer fields than the file has.
-/

namespace IcebergCxx.Proofs

open Lib ReadDatum

/-! ### What is read again -/

/-- A field of a data file that is in every schema of a manifest and is no record. -/
def plainNames : List String :=
  ["content", "file_path", "file_format", "record_count", "file_size_in_bytes", "equality_ids", "referenced_data_file",
    "content_offset", "content_size_in_bytes", "split_offsets", "sort_order_id"]

/-- The values that a configuration extracts are the same in two records, and the second one has as much of the
partition. -/
structure KeepsValues (config : DataFileDeserializerConfig) (values values' : List (Bytes × AvroDatum)) : Prop where
  plain : ∀ name ∈ plainNames, findDatum (bytes name) values' = findDatum (bytes name) values
  columnSizes : config.extractColumnSizes = true →
    findDatum (bytes "column_sizes") values' = findDatum (bytes "column_sizes") values
  valueCounts : config.extractValueCounts = true →
    findDatum (bytes "value_counts") values' = findDatum (bytes "value_counts") values
  nullValueCounts : config.extractNullValueCounts = true →
    findDatum (bytes "null_value_counts") values' = findDatum (bytes "null_value_counts") values
  nanValueCounts : config.extractNanValueCounts = true →
    findDatum (bytes "nan_value_counts") values' = findDatum (bytes "nan_value_counts") values
  distinctCounts : config.extractDistinctCounts = true →
    findDatum (bytes "distinct_counts") values' = findDatum (bytes "distinct_counts") values
  lowerBounds : config.extractLowerBounds = true →
    findDatum (bytes "lower_bounds") values' = findDatum (bytes "lower_bounds") values
  upperBounds : config.extractUpperBounds = true →
    findDatum (bytes "upper_bounds") values' = findDatum (bytes "upper_bounds") values
  partition : ∀ tuple, extractField partitionTuple values "partition" = .ok tuple →
    extractField partitionTuple values' "partition" = .ok tuple

/-- What was extracted before is extracted again if it is asked for. -/
lemma extractIf_again {α : Type} {cond : Bool} {value result : α} {get get' : Except String α}
    (h : extractIf true value get = .ok result) (hget : cond = true → get = .ok result → get' = .ok result) :
    extractIf cond value get' = .ok (if cond then result else value) := by
  have hresult : get = .ok result := h
  cases cond with
  | true => exact hget rfl hresult
  | false => rfl

section
variable {α : Type} {f : AvroDatum → Except String α} {cond : Bool} {value result : α} {name : String}
  {values values' : List (Bytes × AvroDatum)}

lemma extractField_again (hsame : findDatum (bytes name) values' = findDatum (bytes name) values)
    (h : extractIf true value (extractField f values name) = .ok result) :
    extractIf cond value (extractField f values' name) = .ok (if cond then result else value) := by
  have hget : extractField f values' name = extractField f values name := by
    rw [extractField, extractField, hsame]
  exact extractIf_again h (fun _ hresult => hget.trans hresult)

lemma extractOr_again (hsame : cond = true → findDatum (bytes name) values' = findDatum (bytes name) values)
    (h : extractIf true value (extractOr value f values name) = .ok result) :
    extractIf cond value (extractOr value f values' name) = .ok (if cond then result else value) := by
  refine extractIf_again h (fun hcond hresult => ?_)
  rw [extractOr, hsame hcond]
  exact hresult

end

lemma deserializeDataFile_restricted {config : DataFileDeserializerConfig} {values values' : List (Bytes × AvroDatum)}
    {file : ContentFile} (hkeeps : KeepsValues config values values')
    (h : deserializeDataFile {} (.record values) = .ok file) :
    deserializeDataFile config (.record values') = .ok (restrictFile config file) := by
  have hplain : ∀ name, name ∈ plainNames → findDatum (bytes name) values' = findDatum (bytes name) values := hkeeps.plain
  unfold deserializeDataFile at h
  obtain ⟨filePath, hfilePath, h⟩ := bind_ok h
  obtain ⟨content, hcontent, h⟩ := bind_ok h
  obtain ⟨fileFormat, hfileFormat, h⟩ := bind_ok h
  obtain ⟨recordCount, hrecordCount, h⟩ := bind_ok h
  obtain ⟨fileSizeInBytes, hfileSizeInBytes, h⟩ := bind_ok h
  obtain ⟨sortOrderId, hsortOrderId, h⟩ := bind_ok h
  obtain ⟨referencedDataFile, hreferencedDataFile, h⟩ := bind_ok h
  obtain ⟨contentOffset, hcontentOffset, h⟩ := bind_ok h
  obtain ⟨contentSizeInBytes, hcontentSizeInBytes, h⟩ := bind_ok h
  obtain ⟨columnSizes, hcolumnSizes, h⟩ := bind_ok h
  obtain ⟨valueCounts, hvalueCounts, h⟩ := bind_ok h
  obtain ⟨splitOffsets, hsplitOffsets, h⟩ := bind_ok h
  obtain ⟨nullValueCounts, hnullValueCounts, h⟩ := bind_ok h
  obtain ⟨lowerBounds, hlowerBounds, h⟩ := bind_ok h
  obtain ⟨upperBounds, hupperBounds, h⟩ := bind_ok h
  obtain ⟨partition, hpartition, h⟩ := bind_ok h
  obtain ⟨nanValueCounts, hnanValueCounts, h⟩ := bind_ok h
  obtain ⟨distinctCounts, hdistinctCounts, h⟩ := bind_ok h
  obtain ⟨equalityIds, hequalityIds, h⟩ := bind_ok h
  cases h
  have hcontent' : extractIf config.extractContent .data (extractField int values' "content" >>= fileContent) =
      .ok (if config.extractContent then content else .data) := by
    refine extractIf_again hcontent (fun _ hresult => ?_)
    rw [extractField, hplain "content" (by decide)]
    exact hresult
  have hpartition' : extractIf config.extractPartitionTuple ⟨[]⟩ (extractField partitionTuple values' "partition") =
      .ok (if config.extractPartitionTuple then partition else ⟨[]⟩) :=
    extractIf_again hpartition (fun _ hresult => hkeeps.partition _ hresult)
  simp only [deserializeDataFile, AvroDatum.content, ok_bind, hcontent', hpartition',
    extractField_again (hplain "file_path" (by decide)) hfilePath,
    extractField_again (hplain "file_format" (by decide)) hfileFormat,
    extractField_again (hplain "record_count" (by decide)) hrecordCount,
    extractField_again (hplain "file_size_in_bytes" (by decide)) hfileSizeInBytes,
    extractOr_again (fun _ => hplain "sort_order_id" (by decide)) hsortOrderId,
    extractOr_again (fun _ => hplain "referenced_data_file" (by decide)) hreferencedDataFile,
    extractOr_again (fun _ => hplain "content_offset" (by decide)) hcontentOffset,
    extractOr_again (fun _ => hplain "content_size_in_bytes" (by decide)) hcontentSizeInBytes,
    extractOr_again hkeeps.columnSizes hcolumnSizes, extractOr_again hkeeps.valueCounts hvalueCounts,
    extractOr_again (fun _ => hplain "split_offsets" (by decide)) hsplitOffsets,
    extractOr_again hkeeps.nullValueCounts hnullValueCounts, extractOr_again hkeeps.lowerBounds hlowerBounds,
    extractOr_again hkeeps.upperBounds hupperBounds, extractOr_again hkeeps.nanValueCounts hnanValueCounts,
    extractOr_again hkeeps.distinctCounts hdistinctCounts,
    extractOr_again (fun _ => hplain "equality_ids" (by decide)) hequalityIds]
  rfl

/-- The record in a datum keeps the values that a configuration extracts. -/
def KeepsDatum (config : DataFileDeserializerConfig) (datum datum' : AvroDatum) : Prop :=
  ∀ values, datum.content = .record values →
    ∃ values', datum'.content = .record values' ∧ KeepsValues config values values'

lemma deserializeDataFile_of_content {config : DataFileDeserializerConfig} {datum : AvroDatum}
    {values : List (Bytes × AvroDatum)} (h : datum.content = .record values) :
    deserializeDataFile config datum = deserializeDataFile config (.record values) := by
  unfold deserializeDataFile
  rw [h]
  rfl

lemma deserializeDataFile_keeps {config : DataFileDeserializerConfig} {datum datum' : AvroDatum} {file : ContentFile}
    (hkeeps : KeepsDatum config datum datum') (h : deserializeDataFile {} datum = .ok file) :
    deserializeDataFile config datum' = .ok (restrictFile config file) := by
  obtain ⟨values, hvalues⟩ : ∃ values, datum.content = .record values := by
    unfold deserializeDataFile at h
    split at h
    · rename_i values hvalues
      exact ⟨values, hvalues⟩
    · cases h
  obtain ⟨values', hvalues', hkeeps⟩ := hkeeps values hvalues
  rw [deserializeDataFile_of_content hvalues] at h
  rw [deserializeDataFile_of_content hvalues']
  exact deserializeDataFile_restricted hkeeps h

/-- A field of an entry beside its data file. -/
def entryNames : List String := ["status", "snapshot_id", "sequence_number", "file_sequence_number"]

/-- The values of an entry are the same in two records, and the second one has as much of the data file. -/
structure KeepsEntry (config : DataFileDeserializerConfig) (values values' : List (Bytes × AvroDatum)) : Prop where
  plain : ∀ name ∈ entryNames, findDatum (bytes name) values' = findDatum (bytes name) values
  missing : findDatum (bytes "data_file") values = none → findDatum (bytes "data_file") values' = none
  dataFile : ∀ datum, findDatum (bytes "data_file") values = some datum →
    ∃ datum', findDatum (bytes "data_file") values' = some datum' ∧ KeepsDatum config datum datum'

lemma deserializeManifestEntry_restricted {config : ManifestEntryDeserializerConfig}
    {values values' : List (Bytes × AvroDatum)} {entry : ManifestEntry}
    (hkeeps : KeepsEntry config.datafileConfig values values')
    (h : deserializeManifestEntry {} (.record values) = .ok entry) :
    deserializeManifestEntry config (.record values') = .ok (restrictEntry config entry) := by
  have hplain : ∀ name, name ∈ entryNames → findDatum (bytes name) values' = findDatum (bytes name) values := hkeeps.plain
  unfold deserializeManifestEntry at h
  obtain ⟨dataFile, hdataFile, h⟩ := bind_ok h
  obtain ⟨status, hstatus, h⟩ := bind_ok h
  obtain ⟨snapshotId, hsnapshotId, h⟩ := bind_ok h
  obtain ⟨sequenceNumber, hsequenceNumber, h⟩ := bind_ok h
  obtain ⟨fileSequenceNumber, hfileSequenceNumber, h⟩ := bind_ok h
  cases h
  have hstatus' : extractIf config.extractStatus .existing (extractField int values' "status" >>= ReadDatum.status) =
      .ok (if config.extractStatus then status else .existing) := by
    refine extractIf_again hstatus (fun _ hresult => ?_)
    rw [extractField, hplain "status" (by decide)]
    exact hresult
  cases hfind : findDatum (bytes "data_file") values with
  | none =>
    have hfind' := hkeeps.missing hfind
    rw [hfind] at hdataFile
    cases hdataFile
    simp only [deserializeManifestEntry, AvroDatum.content, hfind', ok_bind, hstatus',
      extractOr_again (fun _ => hplain "snapshot_id" (by decide)) hsnapshotId,
      extractOr_again (fun _ => hplain "sequence_number" (by decide)) hsequenceNumber,
      extractOr_again (fun _ => hplain "file_sequence_number" (by decide)) hfileSequenceNumber]
    rw [restrictEntry, restrictFile_default]
    rfl
  | some datum =>
    obtain ⟨datum', hfind', hdatum⟩ := hkeeps.dataFile datum hfind
    rw [hfind] at hdataFile
    simp only [deserializeManifestEntry, AvroDatum.content, hfind', ok_bind, hstatus',
      deserializeDataFile_keeps hdatum hdataFile,
      extractOr_again (fun _ => hplain "snapshot_id" (by decide)) hsnapshotId,
      extractOr_again (fun _ => hplain "sequence_number" (by decide)) hsequenceNumber,
      extractOr_again (fun _ => hplain "file_sequence_number" (by decide)) hfileSequenceNumber]
    rfl

/-! ### The schema of a reader -/

def mapFieldSchema (extract : Bool) (name entry : String) (value : AvroSchema) : List (Bytes × AvroSchema) :=
  if extract then [(bytes name, mapSchema entry value)] else []

/-- The fields of a data file in the schema for a configuration. -/
def readerFileFields (config : DataFileDeserializerConfig) (partition : AvroSchema) : List (Bytes × AvroSchema) :=
  [(bytes "content", .int .none),
   (bytes "file_path", .string),
   (bytes "file_format", .string),
   (bytes "record_count", .long .none),
   (bytes "file_size_in_bytes", .long .none),
   (bytes "equality_ids", optionalSchema (.array (.int .none))),
   (bytes "referenced_data_file", optionalSchema .string),
   (bytes "content_offset", optionalSchema (.long .none)),
   (bytes "content_size_in_bytes", optionalSchema (.long .none))] ++
  mapFieldSchema config.extractColumnSizes "column_sizes" "k117_v118" (.long .none) ++
  mapFieldSchema config.extractValueCounts "value_counts" "k119_v120" (.long .none) ++
  mapFieldSchema config.extractNullValueCounts "null_value_counts" "k121_v122" (.long .none) ++
  mapFieldSchema config.extractLowerBounds "lower_bounds" "k126_v127" .bytes ++
  mapFieldSchema config.extractUpperBounds "upper_bounds" "k129_v130" .bytes ++
  mapFieldSchema config.extractNanValueCounts "nan_value_counts" "k138_v139" (.long .none) ++
  mapFieldSchema config.extractDistinctCounts "distinct_counts" "k123_v124" (.long .none) ++
  [(bytes "split_offsets", optionalSchema (.array (.long .none))),
   (bytes "sort_order_id", optionalSchema (.int .none)),
   (bytes "partition", partition)]

def readerEntryFields (config : DataFileDeserializerConfig) (partition : AvroSchema) : List (Bytes × AvroSchema) :=
  [(bytes "status", .int .none),
   (bytes "snapshot_id", optionalSchema (.long .none)),
   (bytes "sequence_number", optionalSchema (.long .none)),
   (bytes "file_sequence_number", optionalSchema (.long .none)),
   (bytes "data_file", .record (bytes "r2") (readerFileFields config partition))]

def readerSchema (config : DataFileDeserializerConfig) (partition : AvroSchema) : AvroSchema :=
  .record (bytes "manifest_entry") (readerEntryFields config partition)

lemma readerSchema_default (partition : AvroSchema) : readerSchema {} partition = manifestEntrySchema partition := rfl

lemma declaredFields_append {l l' : List (Bytes × IceAvro.Node)} {fields rest : List (Bytes × AvroSchema)}
    (h : declaredFields l = some fields) (hrest : declaredFields l' = some rest) :
    declaredFields (l ++ l') = some (fields ++ rest) := by
  induction l generalizing fields with
  | nil =>
    cases h
    exact hrest
  | cons field l ih =>
    obtain ⟨name, node⟩ := field
    rw [declaredFields] at h
    obtain ⟨s, hs, h⟩ := Option.bind_eq_some_iff.mp h
    obtain ⟨tail, htail, h⟩ := Option.bind_eq_some_iff.mp h
    cases h
    rw [List.cons_append, declaredFields, hs, ih htail]
    rfl

lemma declaredFields_mapField (extract : Bool) {name entry : String} {node : IceAvro.Node} {value : AvroSchema}
    (hnode : declaredSchema node = some value) (hname : cString (bytes name) = bytes name)
    (hentry : cString (bytes entry) = bytes entry) (hvalid : validName (bytes entry) = true) :
    declaredFields (mapField extract name entry node) = some (mapFieldSchema extract name entry value) := by
  have hkeys : ([(cString (bytes "key"), AvroSchema.int .none), (cString (bytes "value"), value)].map Prod.fst).Nodup := by
    simp only [List.map_cons, List.map_nil]
    decide
  cases extract with
  | false => rfl
  | true =>
    simp only [mapField, mapFieldSchema, if_true, declaredFields, declaredSchema, hnode, hname, hentry]
    simp only [bind, Option.bind, pure, hvalid, hkeys, and_self, if_true, Option.map_some]
    rfl

lemma mapFieldSchema_sublist (extract : Bool) (name entry : String) (value : AvroSchema) :
    List.Sublist (mapFieldSchema extract name entry value) (mapFieldSchema true name entry value) := by
  cases extract with
  | false => exact List.nil_sublist _
  | true => exact List.Sublist.refl _

lemma readerFileFields_sublist (config : DataFileDeserializerConfig) (partition : AvroSchema) :
    List.Sublist (readerFileFields config partition) (readerFileFields {} partition) :=
  ((((((((List.Sublist.refl _).append (mapFieldSchema_sublist _ _ _ _)).append (mapFieldSchema_sublist _ _ _ _)).append
    (mapFieldSchema_sublist _ _ _ _)).append (mapFieldSchema_sublist _ _ _ _)).append (mapFieldSchema_sublist _ _ _ _)).append
    (mapFieldSchema_sublist _ _ _ _)).append (mapFieldSchema_sublist _ _ _ _)).append (List.Sublist.refl _)

/-- No two fields have the same name, whatever is extracted. -/
lemma readerFileFields_nodup (config : DataFileDeserializerConfig) (partition : AvroSchema) :
    ((readerFileFields config partition).map Prod.fst).Nodup := by
  have hfull : ((readerFileFields {} partition).map Prod.fst).Nodup := by
    change (["content", "file_path", "file_format", "record_count", "file_size_in_bytes", "equality_ids",
      "referenced_data_file", "content_offset", "content_size_in_bytes", "column_sizes", "value_counts",
      "null_value_counts", "lower_bounds", "upper_bounds", "nan_value_counts", "distinct_counts", "split_offsets",
      "sort_order_id", "partition"].map bytes).Nodup
    decide
  exact hfull.sublist ((readerFileFields_sublist config partition).map Prod.fst)

lemma declaredSchema_dataFile (config : DataFileDeserializerConfig) {partition : IceAvro.Node} {s : AvroSchema}
    (h : declaredSchema partition = some s) :
    declaredFields
      ([(bytes "content", IceAvro.Node.int),
        (bytes "file_path", .string),
        (bytes "file_format", .string),
        (bytes "record_count", .long),
        (bytes "file_size_in_bytes", .long),
        (bytes "equality_ids", .optional (.array .int)),
        (bytes "referenced_data_file", .optional .string),
        (bytes "content_offset", .optional .long),
        (bytes "content_size_in_bytes", .optional .long)] ++
       mapField config.extractColumnSizes "column_sizes" "k117_v118" .long ++
       mapField config.extractValueCounts "value_counts" "k119_v120" .long ++
       mapField config.extractNullValueCounts "null_value_counts" "k121_v122" .long ++
       mapField config.extractLowerBounds "lower_bounds" "k126_v127" .bytes ++
       mapField config.extractUpperBounds "upper_bounds" "k129_v130" .bytes ++
       mapField config.extractNanValueCounts "nan_value_counts" "k138_v139" .long ++
       mapField config.extractDistinctCounts "distinct_counts" "k123_v124" .long ++
       [(bytes "split_offsets", .optional (.array .long)),
        (bytes "sort_order_id", .optional .int),
        (bytes "partition", partition)]) = some (readerFileFields config s) := by
  refine declaredFields_append (declaredFields_append (declaredFields_append (declaredFields_append
    (declaredFields_append (declaredFields_append (declaredFields_append (declaredFields_append rfl
    (declaredFields_mapField _ rfl rfl rfl (by decide))) (declaredFields_mapField _ rfl rfl rfl (by decide)))
    (declaredFields_mapField _ rfl rfl rfl (by decide))) (declaredFields_mapField _ rfl rfl rfl (by decide)))
    (declaredFields_mapField _ rfl rfl rfl (by decide))) (declaredFields_mapField _ rfl rfl rfl (by decide)))
    (declaredFields_mapField _ rfl rfl rfl (by decide))) ?_
  simp only [declaredFields, declaredSchema, h]
  rfl

/-- The names and types of the fields of a partition. -/
def PartitionFields (spec : List PartitionKeyField) (fields : List (Bytes × AvroSchema)) : Prop :=
  fields.map Prod.fst = spec.map (fun field => cString field.name) ∧ (fields.map Prod.fst).Nodup ∧
    ∀ field ∈ fields, ∃ s, field.2 = optionalSchema s

lemma partitionFields_of_declared {spec : List PartitionKeyField} {nodes : List (Bytes × IceAvro.Node)}
    {fields : List (Bytes × AvroSchema)} (h : spec.mapM partitionFieldNode = .ok nodes)
    (hfields : declaredFields nodes = some fields) :
    fields.map Prod.fst = spec.map (fun field => cString field.name) ∧ ∀ field ∈ fields, ∃ s, field.2 = optionalSchema s := by
  induction spec generalizing nodes fields with
  | nil =>
    cases h
    cases hfields
    simp
  | cons field spec ih =>
    rw [List.mapM_cons] at h
    obtain ⟨⟨name, node⟩, hnode, h⟩ := bind_ok h
    obtain ⟨rest, hrest, h⟩ := bind_ok h
    cases h
    rw [declaredFields] at hfields
    obtain ⟨s, hs, hfields⟩ := Option.bind_eq_some_iff.mp hfields
    obtain ⟨tail, htail, hfields⟩ := Option.bind_eq_some_iff.mp hfields
    cases hfields
    obtain ⟨hnames, hoptional⟩ := ih hrest htail
    unfold partitionFieldNode at hnode
    split at hnode
    · cases hnode
    · obtain ⟨child, -, hnode⟩ := bind_ok hnode
      cases hnode
      obtain ⟨value, -, rfl⟩ := Option.map_eq_some_iff.mp hs
      rw [List.map_cons, List.map_cons, hnames, List.forall_mem_cons]
      exact ⟨rfl, ⟨value, rfl⟩, hoptional⟩

lemma declaredSchema_record_eq_some {name : Bytes} {l : List (Bytes × IceAvro.Node)} {s : AvroSchema}
    (h : declaredSchema (.record name l) = some s) :
    ∃ fields, declaredFields l = some fields ∧ (fields.map Prod.fst).Nodup ∧ s = .record (cString name) fields := by
  rw [declaredSchema] at h
  obtain ⟨fields, hfields, h⟩ := Option.bind_eq_some_iff.mp h
  split_ifs at h with hvalid
  cases h
  exact ⟨fields, hfields, hvalid.2, rfl⟩

lemma declaredFields_of_mem {l : List (Bytes × IceAvro.Node)} {fields : List (Bytes × AvroSchema)}
    (h : declaredFields l = some fields) {field : Bytes × IceAvro.Node} (hfield : field ∈ l) :
    ∃ s, declaredSchema field.2 = some s := by
  induction l generalizing fields with
  | nil => cases hfield
  | cons first l ih =>
    obtain ⟨name, node⟩ := first
    rw [declaredFields] at h
    obtain ⟨s, hs, h⟩ := Option.bind_eq_some_iff.mp h
    obtain ⟨tail, htail, -⟩ := Option.bind_eq_some_iff.mp h
    rcases List.mem_cons.mp hfield with rfl | hfield
    · exact ⟨s, hs⟩
    · exact ih htail hfield

lemma declaredFields_entry {dataFile : IceAvro.Node} {s : AvroSchema} (h : declaredSchema dataFile = some s) :
    declaredFields
      [(bytes "status", .int),
       (bytes "snapshot_id", .optional .long),
       (bytes "sequence_number", .optional .long),
       (bytes "file_sequence_number", .optional .long),
       (bytes "data_file", dataFile)] =
      some [(bytes "status", .int .none), (bytes "snapshot_id", optionalSchema (.long .none)),
        (bytes "sequence_number", optionalSchema (.long .none)),
        (bytes "file_sequence_number", optionalSchema (.long .none)), (bytes "data_file", s)] := by
  simp only [declaredFields, h]
  rfl

/-- The schema that a reader makes: all of it but the partition record depends on the configuration only. -/
lemma readerSchema_of_ok {avro : AvroLibrary} {input : avro.File} {spec : List PartitionKeyField}
    {cfg : ManifestEntryDeserializerConfig} {s : AvroSchema} (h : manifestReaderSchema avro input spec cfg true = .ok s) :
    ∃ fields, PartitionFields spec fields ∧ s = readerSchema cfg.datafileConfig (.record (bytes "r102") fields) := by
  obtain ⟨node, hnode, hs⟩ := bind_ok h
  obtain ⟨nodes, hnodes⟩ := fields_of_makeSchemaManifestEntry hnode
  rw [avroSchemaFromNode_ok_iff] at hs
  unfold makeSchemaManifestEntry makeSchemaDataFile makeSchemaPartition at hnode
  rw [hnodes] at hnode
  cases hnode
  obtain ⟨entryFields, hentryFields, -, rfl⟩ := declaredSchema_record_eq_some hs
  obtain ⟨dataFile, hdataFile⟩ := declaredFields_of_mem hentryFields
    (List.mem_cons_of_mem _ (List.mem_cons_of_mem _ (List.mem_cons_of_mem _ (List.mem_cons_of_mem _ List.mem_cons_self))))
  obtain ⟨fileFields, hfileFields, -, rfl⟩ := declaredSchema_record_eq_some hdataFile
  obtain ⟨partition, hpartition⟩ := declaredFields_of_mem hfileFields
    (List.mem_append_right _ (List.mem_cons_of_mem _ (List.mem_cons_of_mem _ List.mem_cons_self)))
  obtain ⟨fields, hfields, hnodup, rfl⟩ := declaredSchema_record_eq_some hpartition
  obtain ⟨hnames, hoptional⟩ := partitionFields_of_declared hnodes hfields
  rw [declaredSchema_dataFile _ hpartition] at hfileFields
  cases hfileFields
  rw [declaredFields_entry hdataFile] at hentryFields
  cases hentryFields
  exact ⟨fields, ⟨hnames, hnodup, hoptional⟩, rfl⟩

section
variable {config : DataFileDeserializerConfig} {partition : AvroSchema} {values : List (Bytes × AvroDatum)}

lemma findDatum_fileField {name : Bytes} {s : AvroSchema} (hmem : (name, s) ∈ readerFileFields config partition)
    (hs : ∀ d, resolve s d = d) :
    findDatum name (resolveFields (readerFileFields config partition) values) = findDatum name values :=
  findDatum_resolveFields_of_plain (findSchema_of_mem (readerFileFields_nodup config partition) hmem) hs values

lemma findDatum_plainName {name : String} (h : name ∈ plainNames) :
    findDatum (bytes name) (resolveFields (readerFileFields config partition) values) = findDatum (bytes name) values := by
  have hplain : ∀ name ∈ plainNames, ∃ s, (bytes name, s) ∈ readerFileFields config partition ∧ ∀ d, resolve s d = d := by
    simp only [plainNames, List.forall_mem_cons, List.not_mem_nil, false_imp_iff, implies_true, and_true]
    refine ⟨⟨.int .none, ?_, fun _ => rfl⟩, ⟨.string, ?_, fun _ => rfl⟩, ⟨.string, ?_, fun _ => rfl⟩,
      ⟨.long .none, ?_, fun _ => rfl⟩, ⟨.long .none, ?_, fun _ => rfl⟩,
      ⟨optionalSchema (.array (.int .none)), ?_, fun _ => rfl⟩, ⟨optionalSchema .string, ?_, fun _ => rfl⟩,
      ⟨optionalSchema (.long .none), ?_, fun _ => rfl⟩, ⟨optionalSchema (.long .none), ?_, fun _ => rfl⟩,
      ⟨optionalSchema (.array (.long .none)), ?_, fun _ => rfl⟩, ⟨optionalSchema (.int .none), ?_, fun _ => rfl⟩⟩
    all_goals simp [readerFileFields]
  obtain ⟨s, hmem, hs⟩ := hplain name h
  exact findDatum_fileField hmem hs

/-- A file record that is read with the schema for a configuration keeps what the configuration extracts. -/
lemma keepsValues_resolve
    (hpartition : ∀ tuple datum, findDatum (bytes "partition") values = some datum → partitionTuple datum = .ok tuple →
      partitionTuple (resolve partition datum) = .ok tuple) :
    KeepsValues config values (resolveFields (readerFileFields config partition) values) where
  plain _ hname := findDatum_plainName hname
  columnSizes h :=
    findDatum_fileField (s := mapSchema "k117_v118" (.long .none)) (by simp [readerFileFields, mapFieldSchema, h]) (fun _ => rfl)
  valueCounts h :=
    findDatum_fileField (s := mapSchema "k119_v120" (.long .none)) (by simp [readerFileFields, mapFieldSchema, h]) (fun _ => rfl)
  nullValueCounts h :=
    findDatum_fileField (s := mapSchema "k121_v122" (.long .none)) (by simp [readerFileFields, mapFieldSchema, h]) (fun _ => rfl)
  nanValueCounts h :=
    findDatum_fileField (s := mapSchema "k138_v139" (.long .none)) (by simp [readerFileFields, mapFieldSchema, h]) (fun _ => rfl)
  distinctCounts h :=
    findDatum_fileField (s := mapSchema "k123_v124" (.long .none)) (by simp [readerFileFields, mapFieldSchema, h]) (fun _ => rfl)
  lowerBounds h :=
    findDatum_fileField (s := mapSchema "k126_v127" .bytes) (by simp [readerFileFields, mapFieldSchema, h]) (fun _ => rfl)
  upperBounds h :=
    findDatum_fileField (s := mapSchema "k129_v130" .bytes) (by simp [readerFileFields, mapFieldSchema, h]) (fun _ => rfl)
  partition tuple h := by
    have hfield : findSchema (bytes "partition") (readerFileFields config partition) = some partition :=
      findSchema_of_mem (readerFileFields_nodup config partition) (by simp [readerFileFields])
    rw [extractField, findDatum_resolveFields, hfield, Option.bind_some]
    unfold extractField at h
    cases hfind : findDatum (bytes "partition") values with
    | none =>
      rw [hfind] at h
      cases h
    | some datum =>
      rw [hfind] at h
      exact hpartition tuple datum hfind h

end

/-! ### The partition of a file -/

lemma partitionKey_name {name : Bytes} {field : AvroDatum} {key : PartitionKey} (h : partitionKey name field = .ok key) :
    key.name = name := by
  unfold partitionKey at h
  split at h
  · cases h
    rfl
  · split at h <;> cases h <;> rfl
  · split at h <;> cases h <;> rfl
  · split at h
    · obtain ⟨type, -, h⟩ := bind_ok h
      cases h
      rfl
    · cases h
      rfl
    · obtain ⟨type, -, h⟩ := bind_ok h
      cases h
      rfl
  all_goals cases h <;> rfl

/-- A tuple does not depend on the order of the fields of its record. -/
lemma partitionTuple_perm {values values' : List (Bytes × AvroDatum)} {tuple : PartitionTuple}
    (hperm : values'.Perm values) (hnodup : (values.map Prod.fst).Nodup)
    (h : partitionTuple (.record values) = .ok tuple) : partitionTuple (.record values') = .ok tuple := by
  obtain ⟨keys, hkeys, h⟩ := bind_ok h
  cases h
  have hread := mapM_ok_iff.mp hkeys
  obtain ⟨keys', hread', hperm'⟩ := List.perm_comp_forall₂ hperm hread
  have hnames : keys.map PartitionKey.name = values.map Prod.fst := by
    rw [eq_comm, ← List.forall₂_eq_eq_eq, List.forall₂_map_left_iff, List.forall₂_map_right_iff]
    exact hread.imp (fun field key hkey => (partitionKey_name hkey).symm)
  have hinj : ∀ a b, a ∈ keys → b ∈ keys → a.name = b.name → a = b := by
    intro a b ha hb hname
    rw [← hnames] at hnodup
    exact List.inj_on_of_nodup_map hnodup ha hb hname
  have hsort : keys'.insertionSort (fun lhs rhs => lhs.name ≤ rhs.name) =
      keys.insertionSort (fun lhs rhs => lhs.name ≤ rhs.name) := by
    apply List.Perm.eq_of_pairwise _ (List.pairwise_insertionSort _ keys') (List.pairwise_insertionSort _ keys)
    · exact (List.perm_insertionSort _ keys').trans (hperm'.trans (List.perm_insertionSort _ keys).symm)
    · intro a b ha hb hab hba
      rw [List.mem_insertionSort] at ha hb
      exact hinj a b (hperm'.mem_iff.mp ha) hb (le_antisymm hab hba)
  have hkeys' : values'.mapM (fun field => partitionKey field.1 field.2) = .ok keys' := mapM_ok_iff.mpr hread'
  simp only [partitionTuple, AvroDatum.content, hkeys', ok_bind, hsort]
  rfl

/-- The tuple that is read of the fields that a specification asks for. -/
lemma partitionTuple_resolve {spec : List PartitionKeyField} {written fields : List (Bytes × AvroSchema)}
    (hfields : PartitionFields spec fields) (hlen : spec.length = written.length) (hselects : SelectsFields written fields)
    {name : Bytes} {datum : AvroDatum} (hconforms : Lib.Conforms (.record name written) datum)
    (hnodup : (written.map Prod.fst).Nodup) {tuple : PartitionTuple} (h : partitionTuple datum = .ok tuple) :
    partitionTuple (resolve (.record (bytes "r102") fields) datum) = .ok tuple := by
  obtain ⟨hnames, hdistinct, hoptional⟩ := hfields
  have hplain : ∀ field ∈ fields, ∀ d, resolve field.2 d = d := by
    intro field hfield d
    obtain ⟨s, hs⟩ := hoptional field hfield
    rw [hs]
    rfl
  have hall : written.length ≤ fields.length := by
    have hl := congrArg List.length hnames
    rw [List.length_map, List.length_map] at hl
    omega
  cases hconforms with
  | record _ hvalues =>
    rw [resolve]
    exact partitionTuple_perm (resolveFields_perm hselects hplain hdistinct hall hvalues) (by rwa [hvalues.names]) h

/-- The partition of the schema of a file. -/
lemma partition_of_valid {spec : List PartitionKeyField} {name fileName : Bytes} {fields fileFields : List (Bytes × AvroSchema)}
    {partitionName : Bytes} {written : List (Bytes × AvroSchema)}
    (hfile : findSchema (bytes "data_file") fields = some (.record fileName fileFields))
    (hpartition : findSchema (bytes "partition") fileFields = some (.record partitionName written))
    (h : validatePartitionSpec spec (.record name fields) = .ok ()) : spec.length = written.length := by
  have hleaf : findLeaf (.record name fields) (bytes "data_file") = some (.record fileName fileFields) := hfile
  have hleaf' : findLeaf (.record fileName fileFields) (bytes "partition") = some (.record partitionName written) := hpartition
  simp only [validatePartitionSpec, hleaf, hleaf'] at h
  obtain ⟨u, hensure, -⟩ := bind_ok h
  exact of_decide_eq_true (ensure_ok hensure)

/-- An entry that is read with the schema for a configuration is the extracted one. -/
lemma deserializeManifestEntry_resolve {cfg : ManifestEntryDeserializerConfig} {spec : List PartitionKeyField}
    {fields : List (Bytes × AvroSchema)} (hfields : PartitionFields spec fields) {written : AvroSchema}
    (hselects : Selects written (readerSchema cfg.datafileConfig (.record (bytes "r102") fields)))
    (hdistinct : distinctNames written = true) (hvalid : validatePartitionSpec spec written = .ok ())
    {datum : AvroDatum} (hconforms : Lib.Conforms written datum) {entry : ManifestEntry}
    (h : deserializeManifestEntry {} datum = .ok entry) :
    deserializeManifestEntry cfg (resolve (readerSchema cfg.datafileConfig (.record (bytes "r102") fields)) datum) =
      .ok (restrictEntry cfg entry) := by
  obtain ⟨entryFields, rfl, hentry⟩ := hselects
  have hread : findSchema (bytes "data_file") (readerEntryFields cfg.datafileConfig (.record (bytes "r102") fields)) =
      some (.record (bytes "r2") (readerFileFields cfg.datafileConfig (.record (bytes "r102") fields))) := rfl
  obtain ⟨file, hfile, hselectsFile⟩ := selectsFields_find hentry hread
  obtain ⟨fileFields, rfl, hfileFields⟩ := hselectsFile
  have hreadPartition : findSchema (bytes "partition")
      (readerFileFields cfg.datafileConfig (.record (bytes "r102") fields)) = some (.record (bytes "r102") fields) :=
    findSchema_of_mem (readerFileFields_nodup _ _) (by simp [readerFileFields])
  obtain ⟨partition, hpartition, hselectsPartition⟩ := selectsFields_find hfileFields hreadPartition
  obtain ⟨partitionFields, rfl, hselectsFields⟩ := hselectsPartition
  have hlen := partition_of_valid hfile hpartition hvalid
  rw [distinctNames, Bool.and_eq_true] at hdistinct
  have hdistinctFile := distinctNames_of_find hdistinct.2 hfile
  rw [distinctNames, Bool.and_eq_true] at hdistinctFile
  have hdistinctPartition := distinctNames_of_find hdistinctFile.2 hpartition
  rw [distinctNames, Bool.and_eq_true, decide_eq_true_eq] at hdistinctPartition
  cases hconforms with
  | record _ hvalues =>
    rename_i values
    obtain ⟨fileDatum, hfileDatum, hfileConforms⟩ := hvalues.exists_findDatum hfile
    have hfileRead := findDatum_resolveFields (bytes "data_file")
      (readerEntryFields cfg.datafileConfig (.record (bytes "r102") fields)) values
    rw [hread, Option.bind_some] at hfileRead
    rw [readerSchema, resolve]
    refine deserializeManifestEntry_restricted ⟨?_, ?_, ?_⟩ h
    · have hplain : ∀ name ∈ entryNames, ∃ s, findSchema (bytes name)
          (readerEntryFields cfg.datafileConfig (.record (bytes "r102") fields)) = some s ∧ ∀ d, resolve s d = d := by
        simp only [entryNames, List.forall_mem_cons, List.not_mem_nil, false_imp_iff, implies_true, and_true]
        exact ⟨⟨_, rfl, fun _ => rfl⟩, ⟨_, rfl, fun _ => rfl⟩, ⟨_, rfl, fun _ => rfl⟩, ⟨_, rfl, fun _ => rfl⟩⟩
      intro name hname
      obtain ⟨s, hs, hresolve⟩ := hplain name hname
      exact findDatum_resolveFields_of_plain hs hresolve values
    · intro hnone
      rw [hfileRead, hnone]
      rfl
    · intro datum hdatum
      refine ⟨_, by rw [hfileRead, hdatum]; rfl, fun fileValues hcontent => ?_⟩
      rw [hfileDatum] at hdatum
      cases hdatum
      cases hfileConforms with
      | record _ hfileValues =>
        cases hcontent
        rw [resolve]
        refine ⟨_, rfl, keepsValues_resolve (fun tuple datum hdatum htuple => ?_)⟩
        obtain ⟨datum', hdatum', hconforms⟩ := hfileValues.exists_findDatum hpartition
        rw [hdatum] at hdatum'
        cases hdatum'
        exact partitionTuple_resolve hfields hlen hselectsFields hconforms hdistinctPartition.1 htuple

/-! ### A whole file -/

/-- The schema that a reader makes for a configuration selects from that of a file, whose records conform to its own. -/
structure SelectedFrom (avro : AvroLibrary) (input : avro.File) (spec : List PartitionKeyField)
    (cfg : ManifestEntryDeserializerConfig) : Prop where
  distinct : distinctNames (avro.dataSchema input) = true
  conforms : ∀ data, avro.readFile input (avro.dataSchema input) = .ok data →
    ∀ d ∈ data, Lib.Conforms (avro.dataSchema input) d
  selects : ∃ schema, manifestReaderSchema avro input spec cfg true = .ok schema ∧
    Selects (avro.dataSchema input) schema

lemma mapM_restricted {cfg : ManifestEntryDeserializerConfig} {g : AvroDatum → AvroDatum} {data : List AvroDatum}
    {entries : List ManifestEntry} (h : data.mapM (deserializeManifestEntry {}) = .ok entries)
    (hrestricted : ∀ d ∈ data, ∀ entry, deserializeManifestEntry {} d = .ok entry →
      deserializeManifestEntry cfg (g d) = .ok (restrictEntry cfg entry)) :
    (data.map g).mapM (deserializeManifestEntry cfg) = .ok (entries.map (restrictEntry cfg)) := by
  rw [mapM_ok_iff] at h ⊢
  rw [List.forall₂_map_left_iff, List.forall₂_map_right_iff]
  induction h with
  | nil => exact .nil
  | @cons d entry data entries hd h ih =>
    rw [List.forall_mem_cons] at hrestricted
    exact .cons (hrestricted.1 entry hd) (ih hrestricted.2)

/-- The data of a file that a reader gets, and what each datum is read as. -/
lemma readFile_restricted {avro : AvroLibrary} (hresolves : Resolves avro) {input : avro.File} {spec : List PartitionKeyField}
    {cfg : ManifestEntryDeserializerConfig} {useReaderSchema : Bool}
    (hselected : useReaderSchema = true → SelectedFrom avro input spec cfg)
    (hvalid : validatePartitionSpec spec (avro.dataSchema input) = .ok ()) {data : List AvroDatum}
    (hdata : avro.readFile input (avro.dataSchema input) = .ok data) :
    ∃ schema g, manifestReaderSchema avro input spec cfg useReaderSchema = .ok schema ∧
      avro.readFile input schema = .ok (data.map g) ∧
      ∀ d ∈ data, ∀ entry, deserializeManifestEntry {} d = .ok entry →
        deserializeManifestEntry cfg (g d) = .ok (restrictEntry cfg entry) := by
  cases useReaderSchema with
  | false =>
    refine ⟨avro.dataSchema input, id, rfl, ?_, fun d _ entry h => deserializeManifestEntry_restrict cfg h⟩
    rw [List.map_id]
    exact hdata
  | true =>
    obtain ⟨hdistinct, hconforms, schema, hschema, hselects⟩ := hselected rfl
    obtain ⟨fields, hfields, rfl⟩ := readerSchema_of_ok hschema
    refine ⟨_, resolve (readerSchema cfg.datafileConfig (.record (bytes "r102") fields)), hschema,
      hresolves _ _ _ hdistinct hselects hdata, fun d hd entry h => ?_⟩
    exact deserializeManifestEntry_resolve hfields hselects hdistinct hvalid (hconforms data hdata d hd) h

/-- A reader that extracts some of the fields reads what one that extracts all of them reads, with the defaults of the other
fields, whether or not it reads with a schema of its own. -/
theorem readManifestEntries_restricted (avro : AvroLibrary) (hresolves : Resolves avro) (json : JsonLibrary)
    (getInt : Option Json → Except String Int) (input : avro.File) (spec : List PartitionKeyField)
    (cfg : ManifestEntryDeserializerConfig) (useReaderSchema : Bool)
    (hselected : useReaderSchema = true → SelectedFrom avro input spec cfg) (manifest : Manifest)
    (h : readManifestEntries avro json getInt input spec {} false = .ok manifest) :
    readManifestEntries avro json getInt input spec cfg useReaderSchema =
      .ok { manifest with entries := manifest.entries.map (restrictEntry cfg) } := by
  unfold readManifestEntries at h
  obtain ⟨schema, hschema, h⟩ := bind_ok h
  obtain ⟨u, hvalid, h⟩ := bind_ok h
  obtain ⟨metadata, hmetadata, h⟩ := bind_ok h
  obtain ⟨data, hdata, h⟩ := bind_ok h
  obtain ⟨entries, hentries, h⟩ := bind_ok h
  cases h
  cases hschema
  obtain ⟨schema, g, hschema, hread, hrestricted⟩ := readFile_restricted hresolves hselected hvalid hdata
  have hentries' := mapM_restricted hentries hrestricted
  simp only [readManifestEntries, hschema, hvalid, hmetadata, hread, hentries', ok_bind]
  rfl

/-! ### A file that was written -/

lemma readerEntryFields_nodup (config : DataFileDeserializerConfig) (partition : AvroSchema) :
    ((readerEntryFields config partition).map Prod.fst).Nodup := by
  change (["status", "snapshot_id", "sequence_number", "file_sequence_number", "data_file"].map bytes).Nodup
  decide

lemma declaredSchema_record {name : Bytes} {l : List (Bytes × IceAvro.Node)} {fields : List (Bytes × AvroSchema)}
    (h : declaredFields l = some fields) (hvalid : validName (cString name) = true) (hnodup : (fields.map Prod.fst).Nodup) :
    declaredSchema (.record name l) = some (.record (cString name) fields) := by
  rw [declaredSchema, h]
  simp [hvalid, hnodup]

lemma makeSchemaManifestEntry_config (cfg : ManifestEntryDeserializerConfig) {spec : List PartitionKeyField}
    {nodes : List (Bytes × IceAvro.Node)} (h : spec.mapM partitionFieldNode = .ok nodes) {partition : AvroSchema}
    (hpartition : declaredSchema (.record (bytes "r102") nodes) = some partition) :
    ∃ node, makeSchemaManifestEntry spec cfg = .ok node ∧
      declaredSchema node = some (readerSchema cfg.datafileConfig partition) := by
  unfold makeSchemaManifestEntry makeSchemaDataFile makeSchemaPartition
  rw [h]
  refine ⟨_, rfl, ?_⟩
  have hfile := @declaredSchema_record (bytes "r2") _ _ (declaredSchema_dataFile cfg.datafileConfig hpartition) (by decide)
    (readerFileFields_nodup _ _)
  exact declaredSchema_record (declaredFields_entry hfile) (by decide) (readerEntryFields_nodup _ _)

/-- A schema can be made for every configuration if one can be made for all fields. -/
lemma manifestReaderSchema_of_default {avro : AvroLibrary} {input : avro.File} {spec : List PartitionKeyField} {s : AvroSchema}
    (h : manifestReaderSchema avro input spec {} true = .ok s) :
    ∃ fields, PartitionFields spec fields ∧ s = readerSchema {} (.record (bytes "r102") fields) ∧
      ∀ cfg, manifestReaderSchema avro input spec cfg true =
        .ok (readerSchema cfg.datafileConfig (.record (bytes "r102") fields)) := by
  obtain ⟨fields, hfields, rfl⟩ := readerSchema_of_ok h
  refine ⟨fields, hfields, rfl, fun cfg => ?_⟩
  obtain ⟨node, hnode, hs⟩ := bind_ok h
  obtain ⟨nodes, hnodes⟩ := fields_of_makeSchemaManifestEntry hnode
  obtain ⟨node', hnode', hdeclared⟩ := makeSchemaManifestEntry_declared hnodes
  rw [hnode] at hnode'
  cases hnode'
  rw [avroSchemaFromNode_ok_iff, hdeclared, Option.map_eq_some_iff] at hs
  obtain ⟨partition, hpartition, hs⟩ := hs
  have hrecord : partition = .record (bytes "r102") fields := by
    cases hs
    rfl
  rw [hrecord] at hpartition
  obtain ⟨made, hmade, hschema⟩ := makeSchemaManifestEntry_config cfg hnodes hpartition
  change (makeSchemaManifestEntry spec cfg >>= avroSchemaFromNode avro) = _
  rw [hmade, ok_bind, avroSchemaFromNode_ok_iff, hschema]

/-- A union and a type without parts select from themselves. -/
lemma selects_optional (s : AvroSchema) : Selects (optionalSchema s) (optionalSchema s) := rfl

lemma partition_selects {spec : List PartitionKeyField} {fields : List (Bytes × AvroSchema)}
    (hfields : PartitionFields spec fields) (name : Bytes) : Selects (.record name fields) (.record name fields) := by
  refine ⟨fields, rfl, selectsFields_of_plain hfields.2.1 (List.Subset.refl _) (fun field hfield => ?_)⟩
  obtain ⟨s, hs⟩ := hfields.2.2 field hfield
  rw [hs]
  exact selects_optional s

/-- The schema for a configuration asks for some of the fields of the whole one. -/
lemma readerSchema_selects (config : DataFileDeserializerConfig) {partition : AvroSchema}
    (hpartition : Selects partition partition) : Selects (readerSchema {} partition) (readerSchema config partition) := by
  have hself : ∀ field ∈ readerFileFields {} partition, Selects field.2 field.2 := by
    simp only [readerFileFields, mapFieldSchema, if_true, List.cons_append, List.nil_append, List.forall_mem_cons,
      List.not_mem_nil, false_imp_iff, implies_true, and_true]
    exact ⟨rfl, rfl, rfl, rfl, rfl, rfl, rfl, rfl, rfl, rfl, rfl, rfl, rfl, rfl, rfl, rfl, rfl, rfl, hpartition⟩
  have hsubset := (readerFileFields_sublist config partition).subset
  have hfile : Selects (.record (bytes "r2") (readerFileFields {} partition))
      (.record (bytes "r2") (readerFileFields config partition)) :=
    ⟨_, rfl, selectsFields_of_plain (readerFileFields_nodup {} partition) hsubset
      (fun field hfield => hself field (hsubset hfield))⟩
  refine ⟨_, rfl, ⟨_, rfl, rfl⟩, ⟨_, rfl, rfl⟩, ⟨_, rfl, rfl⟩, ⟨_, rfl, rfl⟩, ⟨_, rfl, hfile⟩, trivial⟩

lemma readerSchema_distinct {partition : AvroSchema} (hpartition : distinctNames partition = true) :
    distinctNames (readerSchema {} partition) = true := by
  have hfile : distinctNamesFields (readerFileFields {} partition) = true := by
    apply distinctNamesFields_of_forall
    simp only [readerFileFields, mapFieldSchema, if_true, List.cons_append, List.nil_append, List.forall_mem_cons,
      List.not_mem_nil, false_imp_iff, implies_true, and_true]
    exact ⟨rfl, rfl, rfl, rfl, rfl, rfl, rfl, rfl, rfl, rfl, rfl, rfl, rfl, rfl, rfl, rfl, rfl, rfl, hpartition⟩
  have hnodup := readerFileFields_nodup {} partition
  simp only [readerSchema, distinctNames, readerEntryFields, distinctNamesFields, hnodup, hfile]
  rfl

lemma partition_distinct {spec : List PartitionKeyField} {fields : List (Bytes × AvroSchema)}
    (hfields : PartitionFields spec fields) (name : Bytes) : distinctNames (.record name fields) = true := by
  rw [distinctNames, Bool.and_eq_true, decide_eq_true_eq]
  refine ⟨hfields.2.1, distinctNamesFields_of_forall (fun field hfield => ?_)⟩
  obtain ⟨s, hs⟩ := hfields.2.2 field hfield
  rw [hs]
  rfl

section
variable {avro : AvroLibrary} {manifest : Manifest} {spec : List PartitionKeyField} {input : avro.File}

/-- A file that was written has the schema that all its fields are read with. -/
lemma manifestReaderSchema_written (hwrite : writeManifestEntries avro manifest spec = .ok input) :
    manifestReaderSchema avro input spec {} true = .ok (avro.dataSchema input) := by
  obtain ⟨node, hnode, hwrite⟩ := bind_ok hwrite
  obtain ⟨s, hs, hwrite⟩ := bind_ok hwrite
  obtain ⟨data, -, hfile⟩ := bind_ok hwrite
  cases hfile
  change (makeSchemaManifestEntry spec {} >>= avroSchemaFromNode avro) = .ok _
  rw [hnode, avro.dataSchema_write]
  exact hs

/-- What is read of a file that was written. -/
lemma readFile_written (hspec : SpecDeclarable spec) (htyped : ∀ e ∈ manifest.entries, ManifestEntryTyped e)
    (htuples : ∀ e ∈ manifest.entries, TupleConforms spec e.dataFile.partitionTuple)
    (hwrite : writeManifestEntries avro manifest spec = .ok input)
    (hschema : avro.dataSchema input = manifestEntrySchema (partitionSchema spec)) :
    avro.readFile input (avro.dataSchema input) = .ok (manifest.entries.map (manifestEntryDatum spec)) ∧
      ∀ d ∈ manifest.entries.map (manifestEntryDatum spec), Lib.Conforms (avro.dataSchema input) d := by
  have hconforms : ∀ d ∈ manifest.entries.map (manifestEntryDatum spec),
      Lib.Conforms (manifestEntrySchema (partitionSchema spec)) d := by
    intro d hd
    obtain ⟨e, he, rfl⟩ := List.mem_map.mp hd
    exact conforms_manifestEntryDatum hspec (htuples e he) (htyped e he)
  have hserialized : manifest.entries.mapM (fun entry => serializeManifestEntry spec entry
      (defaultDatum (manifestEntrySchema (partitionSchema spec)))) = .ok (manifest.entries.map (manifestEntryDatum spec)) := by
    rw [mapM_ok_iff, List.forall₂_map_right_iff, List.forall₂_same]
    exact fun e he => serializeManifestEntry_ok hspec (htuples e he)
  obtain ⟨node, hnode, hwrite⟩ := bind_ok hwrite
  obtain ⟨s, hs, hwrite⟩ := bind_ok hwrite
  obtain ⟨data, hdata, hfile⟩ := bind_ok hwrite
  cases hfile
  rw [avro.dataSchema_write] at hschema ⊢
  rw [hschema] at hdata ⊢
  rw [hserialized] at hdata
  cases hdata
  exact ⟨avro.read_write _ _ _ hconforms, hconforms⟩

/-- From a file that was written with the fields of a specification every configuration can select. -/
lemma writtenFile_selectedFrom (hconstructed : SpecConstructed spec) (hspec : SpecDeclarable spec)
    (htyped : ∀ e ∈ manifest.entries, ManifestEntryTyped e)
    (htuples : ∀ e ∈ manifest.entries, TupleConforms spec e.dataFile.partitionTuple)
    (hwrite : writeManifestEntries avro manifest spec = .ok input) (cfg : ManifestEntryDeserializerConfig) :
    SelectedFrom avro input spec cfg := by
  have hschema := manifestReaderSchema_written hwrite
  obtain ⟨-, -, hmanifest⟩ := (manifestSchema_iff avro hconstructed (avro.dataSchema input)).mp hschema
  obtain ⟨hread, hconforms⟩ := readFile_written hspec htyped htuples hwrite hmanifest
  obtain ⟨fields, hfields, hwhole, hmade⟩ := manifestReaderSchema_of_default hschema
  refine ⟨?_, ?_, _, hmade cfg, ?_⟩
  · rw [hwhole]
    exact readerSchema_distinct (partition_distinct hfields _)
  · intro data hdata
    rw [hread] at hdata
    cases hdata
    exact hconforms
  · rw [hwhole]
    exact readerSchema_selects _ (partition_selects hfields _)

end

/-- A date. -/
def dayField : List PartitionKeyField := [⟨bytes "day", some .date⟩]

def dayManifest : Manifest where
  metadata := ∅
  entries := [partitionedEntry ⟨[⟨bytes "day", .int 19000, some .date⟩]⟩]

/-- What planning reads of a data file. -/
def planFields : ManifestEntryDeserializerConfig where
  extractSnapshotId := false
  extractFileSequenceNumber := false
  datafileConfig := {
    extractFileFormat := false
    extractRecordCount := false
    extractFileSizeInBytes := false
    extractColumnSizes := false
    extractValueCounts := false
    extractNullValueCounts := false
    extractNanValueCounts := false
    extractDistinctCounts := false
    extractLowerBounds := false
    extractUpperBounds := false
    extractEqualityIds := false
    extractSortOrderId := false
    extractReferencedDataFile := false
    extractContentOffset := false
    extractContentSizeInBytes := false }

lemma dayField_constructed : SpecConstructed dayField := by
  unfold SpecConstructed dayField Constructed
  simp

lemma dayField_declarable : SpecDeclarable dayField where
  declarable := by
    intro field hfield
    rw [List.mem_singleton.mp hfield]
    exact ⟨_, rfl, trivial⟩
  zero_notMem := by decide
  nodup := by decide

lemma dayManifest_typed : ∀ e ∈ dayManifest.entries, ManifestEntryTyped e := by
  intro e he
  rw [List.mem_singleton.mp he]
  exact partitionedEntry_typed _

lemma dayManifest_tuples : ∀ e ∈ dayManifest.entries, TupleConforms dayField e.dataFile.partitionTuple := by
  intro e he
  rw [List.mem_singleton.mp he]
  refine ⟨by decide, ?_⟩
  intro key hkey field hfield hname
  rw [List.mem_singleton.mp hkey, List.mem_singleton.mp hfield]
  exact trivial

lemma dayManifest_selectedFrom {file : memoryResolvingAvro.File}
    (hwrite : writeManifestEntries memoryResolvingAvro dayManifest dayField = .ok file) :
    SelectedFrom memoryResolvingAvro file dayField planFields :=
  writtenFile_selectedFrom dayField_constructed dayField_declarable dayManifest_typed dayManifest_tuples hwrite planFields

theorem dayManifest_restricted :
    ∃ file manifest, writeManifestEntries memoryResolvingAvro dayManifest dayField = .ok file ∧
      readManifestEntries memoryResolvingAvro compactJson assertedInt file dayField {} false = .ok manifest ∧
      readManifestEntries memoryResolvingAvro compactJson assertedInt file dayField planFields true =
        .ok { manifest with entries := manifest.entries.map (restrictEntry planFields) } := by
  have hid : SchemaIdReadable compactJson assertedInt dayManifest.metadata := by
    apply Or.inr
    intro schema document hschema
    cases hschema
  obtain ⟨file, hwrite, manifest, hread, -⟩ := roundTrips_of_condition memoryResolvingAvro compactJson assertedInt
    dayField_constructed dayManifest_typed dayManifest_tuples dayField_declarable hid
  have hschema : manifestReaderSchema memoryResolvingAvro file dayField {} true =
      manifestReaderSchema memoryResolvingAvro file dayField {} false := manifestReaderSchema_written hwrite
  have hwhole : readManifestEntries memoryResolvingAvro compactJson assertedInt file dayField {} false = .ok manifest := by
    rw [← hread]
    simp only [readManifestEntries, hschema]
  exact ⟨file, manifest, hwrite, hwhole, readManifestEntries_restricted memoryResolvingAvro memoryResolvingAvro_resolves
    compactJson assertedInt file dayField planFields true (fun _ => dayManifest_selectedFrom hwrite) manifest hwhole⟩

end IcebergCxx.Proofs

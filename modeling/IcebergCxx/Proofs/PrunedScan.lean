import IcebergCxx.Proofs.PrunedManifests
import IcebergCxx.Proofs.TableRows

/-!
# Rows of a pruned scan

Leaving out manifests by their partition summaries loses no row: a file of a skipped manifest has no row that the filter
selects, and a delete of a skipped manifest applies to no selected row. So a scan of what is left returns the rows of the
whole table.
-/

namespace IcebergCxx.Proofs

open Lib

/-! ### The deletes that are left -/

section
variable {roaring : RoaringLibrary} {ctx : EqualityDeleteContext} {builder : ScanFileReaderBuilder roaring}
  {cb : Bytes → DeleteFile} {es kept : List ManifestEntry}

/-- The entries that are left delete the same rows of a data file when they have all entries of its partition and of no
partition. -/
lemma entryDeletes_kept (hsubset : kept ⊆ es) {e : ManifestEntry}
    (hall : ∀ x ∈ es, keyOf x = keyOf e ∨ keyOf x = [] → x ∈ kept) {record : ArrowBatchWithRowPosition} {row : Nat} :
    EntryDeletes ctx builder cb kept e record row ↔ EntryDeletes ctx builder cb es e record row := by
  have hvector : ∀ x, x ∈ kept ∧ AppliesVector kept e x ↔ x ∈ es ∧ AppliesVector es e x := by
    intro x
    constructor
    · rintro ⟨hx, hfor, hle, hnewest⟩
      exact ⟨hsubset hx, hfor, hle, fun y hy hyfor => hnewest y (hall y hy (.inl hyfor.2.1)) hyfor⟩
    · rintro ⟨hx, hfor, hle, hnewest⟩
      exact ⟨hall x hx (.inl hfor.2.1), hfor, hle, fun y hy => hnewest y (hsubset hy)⟩
  have hequality : ∀ x, x ∈ kept ∧ AppliesEquality e x ↔ x ∈ es ∧ AppliesEquality e x := by
    intro x
    constructor
    · rintro ⟨hx, happlies⟩
      exact ⟨hsubset hx, happlies⟩
    · rintro ⟨hx, happlies⟩
      exact ⟨hall x hx happlies.2.2.symm, happlies⟩
  have hpositional : ∀ x, x ∈ kept ∧ AppliesPositional e x ↔ x ∈ es ∧ AppliesPositional e x := by
    intro x
    constructor
    · rintro ⟨hx, happlies⟩
      exact ⟨hsubset hx, happlies⟩
    · rintro ⟨hx, happlies⟩
      exact ⟨hall x hx (.inl happlies.2.1), happlies⟩
  unfold EntryDeletes
  simp only [← and_assoc, hvector, hequality, hpositional]

lemma SoundEntries.sublist (h : SoundEntries es) (hkept : kept.Sublist es) : SoundEntries kept where
  sequenceNumbers := fun e he => h.sequenceNumbers e (hkept.subset he)
  bounds := fun e he => h.bounds e (hkept.subset he)
  named := fun e he => h.named e (hkept.subset he)
  distinct := h.distinct.sublist ((hkept.filter isData).map _)

/-- No two vectors for a file are of the same age. -/
def VectorsDiffer (es : List ManifestEntry) : Prop :=
  ∀ e x y, x ∈ es → y ∈ es → VectorFor e x → VectorFor e y → seqOf x = seqOf y → vectorOf x = vectorOf y

lemma SoundDeletes.of_subset (h : SoundDeletes cb es) (hvectors : VectorsDiffer es) (hsubset : kept ⊆ es) :
    SoundDeletes cb kept where
  bounded := fun x hx => h.bounded x (hsubset hx)
  annotated := fun x hx => h.annotated x (hsubset hx)
  vectors := by
    rintro e x y hx hy ⟨hxfor, -, hxnewest⟩ ⟨hyfor, -, hynewest⟩
    exact hvectors e x y (hsubset hx) (hsubset hy) hxfor hyfor (le_antisymm (hynewest x hx hxfor) (hxnewest y hy hyfor))

/-- The deletes of the rows that the filter selects decide what a file returns. -/
lemma EmitsEntry.congr_selected {path : AnnotatedDataPath}
    {Deleted Deleted' : ArrowBatchWithRowPosition → Nat → Prop} {batches : List FilteredBatch}
    (h : EmitsEntry builder path Deleted batches)
    (hsame : ∀ file, builder.openParquet path.path = .ok file → ∀ record row,
      PlannedRow file path.segments (record.rowPosition + (row : Nat)) →
      FilterSelects builder file (record.rowPosition + (row : Nat)) → (Deleted record row ↔ Deleted' record row)) :
    EmitsEntry builder path Deleted' batches := by
  obtain ⟨file, hopened, h⟩ := h
  refine ⟨file, hopened, h.tagged, h.read, h.once, h.planned, h.covered, h.increasing, ?_⟩
  intro batch hbatch row
  rw [h.selected batch hbatch row]
  apply and_congr_right
  intro hrow
  apply and_congr_right
  intro hselects
  have hpos : batch.rowPosition + (row : Int) ∈ batchPositions batch := by
    rw [batchPositions, mem_shapePositions]
    dsimp only
    omega
  have hplanned := h.planned _ (List.mem_flatMap.mpr ⟨batch, hbatch, hpos⟩)
  exact not_congr (hsame file hopened batch.withRowPosition row hplanned hselects)

/-- A file without a selected row returns no batch. -/
lemma emitsEntry_nil {path : AnnotatedDataPath} {file : ParquetFile} (hopened : builder.openParquet path.path = .ok file)
    (hnone : ∀ pos, PlannedRow file path.segments pos → ¬FilterSelects builder file pos)
    (Deleted : ArrowBatchWithRowPosition → Nat → Prop) : EmitsEntry builder path Deleted [] := by
  refine ⟨file, hopened, ?_, ?_, .nil, ?_, ?_, ?_, ?_⟩
  · intro batch hbatch
    cases hbatch
  · intro batch hbatch
    cases hbatch
  · intro pos hpos
    cases hpos
  · intro pos hplanned hselects
    exact absurd hselects (hnone pos hplanned)
  · intro batch hbatch
    cases hbatch
  · intro batch hbatch
    cases hbatch

end

/-! ### The rows of the table -/

section
variable {roaring : RoaringLibrary} {request : ScanRequest} {filter : StatsFilter} {types : Bytes → Option ValueType}
  {delta : Int} {interp : FunctionID → List Outcome → Outcome} {builder : ScanFileReaderBuilder roaring}
  {rowAt : Bytes → Int → Row}

/-- What the code needs of a table whose manifests are left out, read with its entries: data files that can be opened,
summaries that bound the rows of the partitions in their manifests, statistics that are right for the rows, and a filter
that is true on the rows that the row filter selects. -/
structure PrunableTable (request : ScanRequest) (filter : StatsFilter) (types : Bytes → Option ValueType) (delta : Int)
    (interp : FunctionID → List Outcome → Outcome) (builder : ScanFileReaderBuilder roaring) (rowAt : Bytes → Int → Row)
    (manifests : List (ManifestFile × List ManifestEntry)) : Prop where
  opened : ∀ table ∈ manifests, ∀ e ∈ table.2, isData e = true → ∃ file, builder.openParquet e.dataFile.filePath = .ok file
  summarized : ∀ table ∈ manifests, ∀ x ∈ table.2, ∀ table' ∈ manifests, ∀ e ∈ table'.2, isData e = true →
    keyOf x = keyOf e ∨ keyOf x = [] → ∀ file, builder.openParquet e.dataFile.filePath = .ok file →
    ∀ pos, PlannedRow file (segmentsOfFile e.dataFile) pos → ∀ spec,
    specById request.tableMetadata.partitionSpecs table.1.partitionSpecId.toInt = some spec →
      InManifest request.tableMetadata.currentSchema spec table.1.partitions (rowAt e.dataFile.filePath pos)
  pruning : ∀ table ∈ manifests, ∀ getter,
    manifestStatsGetter request.tableMetadata.currentSchema request.tableMetadata.partitionSpecs table.1 =
      .ok (some getter) → ∀ path pos, SoundPruning filter delta interp getter (rowAt path pos)
  typed : ∀ path pos name x, rowAt path pos name = some x → types name = some x.1
  asks : ∀ root ∈ filter.root, TypedBy types root
  selects : ∀ path file, builder.openParquet path = .ok file → ∀ pos, FilterSelects builder file pos →
    ∀ root ∈ filter.root, evalNode delta interp (rowAt path pos) root = .truth true

/-- An entry of a skipped manifest is not of the partition of a data file with a selected row. -/
lemma PrunableTable.not_selected {manifests : List (ManifestFile × List ManifestEntry)}
    (h : PrunableTable request filter types delta interp builder rowAt manifests)
    {table : ManifestFile × List ManifestEntry} (htable : table ∈ manifests) {getter : ManifestFileStatsGetter}
    (hgetter : manifestStatsGetter request.tableMetadata.currentSchema request.tableMetadata.partitionSpecs table.1 =
      .ok (some getter))
    (hnone : filter.tryApplyFilter getter.getStats = .ok .none) {x e : ManifestEntry} (hx : x ∈ table.2)
    {table' : ManifestFile × List ManifestEntry} (htable' : table' ∈ manifests) (he : e ∈ table'.2)
    (hdata : isData e = true) (hkey : keyOf x = keyOf e ∨ keyOf x = []) {file : ParquetFile}
    (hopened : builder.openParquet e.dataFile.filePath = .ok file) {pos : Int}
    (hplanned : PlannedRow file (segmentsOfFile e.dataFile) pos) : ¬FilterSelects builder file pos := by
  intro hselects
  have hrow := h.summarized table htable x hx table' htable' e he hdata hkey file hopened pos hplanned getter.spec
    (manifestStatsGetter_spec hgetter).1
  obtain ⟨root, hroot, hnot⟩ := not_true_of_skipped hgetter hnone hrow (h.pruning table htable getter hgetter _ pos)
    (h.typed _ pos) h.asks
  exact hnot (h.selects _ file hopened pos hselects root hroot)

/-- An entry of the table is read with its manifest. -/
lemma mem_zip_of_mem_flatten {manifestFiles : List ManifestFile} {ls : List (List ManifestEntry)}
    (h : manifestFiles.length = ls.length) {e : ManifestEntry} (he : e ∈ ls.flatten) :
    ∃ table ∈ manifestFiles.zip ls, e ∈ table.2 := by
  obtain ⟨entries, hentries, he⟩ := List.mem_flatten.mp he
  obtain ⟨i, hi⟩ := List.mem_iff_getElem?.mp hentries
  have hlt : i < manifestFiles.length := by
    rw [h]
    exact (List.getElem?_eq_some_iff.mp hi).1
  exact ⟨(manifestFiles[i], entries), List.mem_iff_getElem?.mpr
    ⟨i, List.getElem?_zip_eq_some.mpr ⟨List.getElem?_eq_getElem hlt, hi⟩⟩, he⟩

lemma PrunableTable.opens {manifestFiles : List ManifestFile} {ls : List (List ManifestEntry)}
    (h : PrunableTable request filter types delta interp builder rowAt (manifestFiles.zip ls))
    (hlengths : manifestFiles.length = ls.length) {e : ManifestEntry} (he : e ∈ ls.flatten) (hdata : isData e = true) :
    ∃ file, builder.openParquet e.dataFile.filePath = .ok file := by
  obtain ⟨table, htable, he⟩ := mem_zip_of_mem_flatten hlengths he
  exact h.opened table htable e he hdata

/-- An entry that was left out is not of the partition of a data file with a selected row. -/
lemma PrunableTable.skipped_not_selected {manifestFiles : List ManifestFile} {ls : List (List ManifestEntry)}
    (h : PrunableTable request filter types delta interp builder rowAt (manifestFiles.zip ls))
    (hlengths : manifestFiles.length = ls.length) {skips : List Bool}
    (hskipped : ∀ (i : Nat) manifest, manifestFiles[i]? = some manifest → skips[i]? = some true →
      ∃ getter, manifestStatsGetter request.tableMetadata.currentSchema request.tableMetadata.partitionSpecs manifest =
        .ok (some getter) ∧ filter.tryApplyFilter getter.getStats = .ok .none)
    {x e : ManifestEntry} (hx : x ∈ (unskipped ls (skips.map (!·))).flatten) (he : e ∈ ls.flatten)
    (hdata : isData e = true) (hkey : keyOf x = keyOf e ∨ keyOf x = []) (file : ParquetFile)
    (hopened : builder.openParquet e.dataFile.filePath = .ok file) (pos : Int)
    (hplanned : PlannedRow file (segmentsOfFile e.dataFile) pos) : ¬FilterSelects builder file pos := by
  obtain ⟨entries, hentries, hx⟩ := List.mem_flatten.mp hx
  obtain ⟨i, hi, hflag⟩ := of_mem_unskipped hentries
  have hskip : skips[i]? = some true := by
    rw [List.getElem?_map] at hflag
    obtain ⟨skip, hget, hnot⟩ := Option.map_eq_some_iff.mp hflag
    have htrue : skip = true := by simpa using hnot
    rw [hget, htrue]
  have hlt : i < manifestFiles.length := by
    rw [hlengths]
    exact (List.getElem?_eq_some_iff.mp hi).1
  have hmanifest : manifestFiles[i]? = some manifestFiles[i] := List.getElem?_eq_getElem hlt
  obtain ⟨getter, hgetter, hnone⟩ := hskipped i _ hmanifest hskip
  obtain ⟨table, htable, he⟩ := mem_zip_of_mem_flatten hlengths he
  have hof : (manifestFiles[i], entries) ∈ manifestFiles.zip ls :=
    List.mem_iff_getElem?.mpr ⟨i, List.getElem?_zip_eq_some.mpr ⟨hmanifest, hi⟩⟩
  exact h.not_selected hof hgetter hnone hx htable he hdata hkey hopened hplanned

end

/-- `p < 5`. -/
def prunedFilter : StatsFilter where
  root := some (.function ⟨.lessThan, .bool, [.int4, .int4]⟩
    [.variable .int4 (bytes "p"), .const ⟨.int4, some (toInt32 5)⟩])

/-- A data file in the partition `p = 9`. -/
def farEntry : ManifestEntry where
  sequenceNumber := some 1
  dataFile := { filePath := bytes "z", partitionTuple := ⟨[⟨bytes "p", .int 9, some .int⟩]⟩ }

def prunedManifests : List ManifestFile := [
  { path := bytes "values.avro" },
  { path := bytes "far.avro", partitionSpecId := 1, partitions := [⟨false, none, leBytes 4 9, leBytes 4 9⟩] }]

/-- A manifest of files without a partition, with deletes, and one that is partitioned by `p`. -/
def prunedRequest : ScanRequest where
  avro := memoryAvro
  json := compactJson
  getInt := assertedInt
  readFile path :=
    if path = bytes "list.avro" then writeManifestList memoryAvro prunedManifests
    else if path = bytes "values.avro" then writeManifestEntries memoryAvro ⟨∅, valuesEntries⟩ []
    else writeManifestEntries memoryAvro ⟨∅, [farEntry]⟩ [⟨bytes "p", some .int⟩]
  tableMetadata := {
    currentSchema := ⟨0, [{ name := bytes "p", fieldId := 1, type := .int }]⟩
    partitionSpecs := [⟨0, []⟩, ⟨1, [⟨1, 1000, bytes "p", bytes "identity"⟩]⟩]
    currentManifestListPath := some (bytes "list.avro") }
  useReaderSchema := false
  config := {}

/-- The plan without the second manifest. -/
def prunedPlan : ScanMetadata := { valuesPlan with schema := prunedRequest.tableMetadata.currentSchema }

lemma prunedRequest_files : prunedRequest.getManifestFiles = .ok prunedManifests := by
  rfl

set_option maxRecDepth 8000 in
lemma prunedRequest_entries :
    prunedManifests.mapM (streamEntries prunedRequest) = .ok [valuesEntries, [farEntry]] := by
  rfl

set_option maxRecDepth 8000 in
lemma prunedRequest_plan : prunedRequest.getScanMetadataFiltered (some prunedFilter) = .ok prunedPlan := by
  rfl

/-- The far file has no rows. -/
def prunedBuilder : ScanFileReaderBuilder listRoaring :=
  { valuesBuilder with
    openParquet := fun path => if path = bytes "z" then .ok { fields := valuesFile.fields, rowGroups := [] } else .ok valuesFile }

def prunedRow (path : Bytes) (_ : Int) : Row :=
  columnRow (bytes "p") ⟨.int4, toInt32 (if path = bytes "z" then 9 else 1)⟩

def prunedTypes (name : Bytes) : Option ValueType := if name = bytes "p" then some .int4 else none

lemma prunedFilter_careful (getter : ManifestFileStatsGetter) (row : Row) :
    ∀ root ∈ prunedFilter.root, Careful (returnedStats getter.getStats) prunedFilter.timestampToTimestamptzShiftUs
      (CastSafe prunedFilter.timestampToTimestamptzShiftUs 0) (evalNode 0 (fun _ _ => .error) row) root := by
  intro root hroot
  obtain rfl := Option.some.inj hroot
  simp only [Careful, CarefulAll]
  refine ⟨⟨trivial, fun _ _ => ⟨trivial, fun _ _ => trivial⟩⟩, ?_⟩
  intro l r h _ htimestamp
  obtain ⟨_, -, h⟩ := bind_ok h
  obtain ⟨_, hconst, h⟩ := bind_ok h
  cases hconst
  cases h
  -- no operand is a timestamp
  simp [comparesTimestamps, areTypes] at htimestamp

lemma columnRow_typed {name : Bytes} {x : Scalar} {other : Bytes} {y : Scalar} (h : columnRow name x other = some y) :
    other = name ∧ y = x := by
  unfold columnRow at h
  split_ifs at h with hname
  exact ⟨hname, (Option.some.inj h).symm⟩

/-- The only partition field is the identity of `p`, in the second manifest. -/
lemma prunedRequest_field {table : ManifestFile × List ManifestEntry}
    (htable : table ∈ prunedManifests.zip [valuesEntries, [farEntry]]) {spec : PartitionSpec}
    (hspec : specById prunedRequest.tableMetadata.partitionSpecs table.1.partitionSpecId.toInt = some spec) {i : Nat}
    {field : PartitionField} (hfield : spec.fields[i]? = some field) :
    table = (prunedManifests[1], [farEntry]) ∧ i = 0 ∧ field = ⟨1, 1000, bytes "p", bytes "identity"⟩ := by
  have htables : prunedManifests.zip [valuesEntries, [farEntry]] =
      [(prunedManifests[0], valuesEntries), (prunedManifests[1], [farEntry])] := rfl
  rw [htables] at htable
  rcases List.mem_pair.mp htable with rfl | rfl
  · obtain rfl : (⟨0, []⟩ : PartitionSpec) = spec := Option.some.inj hspec
    cases hfield
  · obtain rfl : (⟨1, [⟨1, 1000, bytes "p", bytes "identity"⟩]⟩ : PartitionSpec) = spec := Option.some.inj hspec
    cases i with
    | zero => exact ⟨rfl, rfl, (Option.some.inj hfield).symm⟩
    | succ i => cases hfield

lemma prunedRequest_table : PrunableTable prunedRequest prunedFilter prunedTypes 0 (fun _ _ => .error) prunedBuilder
    prunedRow (prunedManifests.zip [valuesEntries, [farEntry]]) where
  opened := by
    intro table _ e _ _
    by_cases hpath : e.dataFile.filePath = bytes "z"
    · exact ⟨_, if_pos hpath⟩
    · exact ⟨_, if_neg hpath⟩
  summarized := by
    intro table htable x hx table' htable' e he hdata hkey file hopened pos hplanned spec hspec i field name v hfield hname hv
    obtain ⟨rfl, rfl, rfl⟩ := prunedRequest_field htable hspec hfield
    -- only the far file has the partition of the second manifest
    have hfar : e = farEntry := by
      obtain rfl := List.mem_singleton.mp hx
      have hkey' : keyOf e = keyOf farEntry := (hkey.resolve_right (by decide)).symm
      have hnone : ∀ e ∈ valuesEntries, keyOf e ≠ keyOf farEntry := by decide
      have htables : prunedManifests.zip [valuesEntries, [farEntry]] =
          [(prunedManifests[0], valuesEntries), (prunedManifests[1], [farEntry])] := rfl
      rw [htables] at htable'
      rcases List.mem_pair.mp htable' with rfl | rfl
      · exact absurd hkey' (hnone e he)
      · exact List.mem_singleton.mp he
    rw [hfar] at hv
    obtain ⟨rfl, rfl⟩ := columnRow_typed hv
    refine ⟨_, rfl, .inl ⟨rfl, .int, rfl, rfl, 9, 9, rfl, rfl, ?_, ?_⟩⟩
    · decide
    · decide
  pruning := by
    intro table htable getter hgetter path pos
    refine ⟨?_, prunedFilter_careful getter _⟩
    intro name type field summary t lo hi hused ht
    obtain ⟨position, -, hfield, -⟩ := hused
    obtain ⟨-, -, rfl⟩ := prunedRequest_field htable (manifestStatsGetter_spec hgetter).1 hfield
    exact absurd rfl (ofText_temporal ht).1
  typed := by
    intro path pos name x hx
    obtain ⟨rfl, rfl⟩ := columnRow_typed hx
    rfl
  asks := by
    intro root hroot
    obtain rfl := Option.some.inj hroot
    exact ⟨rfl, trivial, trivial⟩
  selects := by
    intro path file hfile pos hselects root hroot
    obtain rfl := Option.some.inj hroot
    by_cases hpath : path = bytes "z"
    · obtain rfl := Except.ok.inj ((if_pos hpath).symm.trans hfile)
      obtain ⟨i, batch, hbatch, -⟩ := hselects
      cases hbatch
    · have hrow : prunedRow path pos = columnRow (bytes "p") ⟨.int4, toInt32 1⟩ := by
        unfold prunedRow
        rw [if_neg hpath]
      rw [hrow]
      rfl

lemma prunedPlan_readable :
    ReadablePlan valuesContext prunedBuilder (fun _ => threeDeletes) (fun _ => .int16) prunedPlan where
  batchSize := valuesPlan_sound.batchSize
  files := by
    intro path hpath
    have hpaths : planEntries prunedPlan = [valuesPath] := rfl
    rw [hpaths] at hpath
    obtain rfl := List.mem_singleton.mp hpath
    obtain ⟨file, hfile⟩ := valuesPlan_sound.files valuesPath List.mem_cons_self
    have hreadable := hfile.readable
    obtain rfl : valuesFile = file := Except.ok.inj hreadable.opened
    exact ⟨valuesFile, ⟨rfl, hreadable.fieldIds, hreadable.offsets, hreadable.segments, hreadable.rows⟩,
      ⟨hfile.filters.answers, hfile.filters.skipped⟩,
      fun i f d hpair => hfile.keys i f d ⟨hpair.aligned, hpair.filter, hpair.data⟩⟩
  collected := rfl
  equalityDeletes := by
    intro path hpath
    have hpaths : planEntries prunedPlan = [valuesPath] := rfl
    rw [hpaths] at hpath
    obtain rfl := List.mem_singleton.mp hpath
    exact valuesPlan_equalityDeletes
  positionalDeletes := threeDeletes_sound _

lemma prunedEntries_sound : SoundEntries [valuesEntries, [farEntry]].flatten where
  sequenceNumbers := by decide
  bounds := by
    have hnone : ∀ e ∈ [valuesEntries, [farEntry]].flatten, minMaxReferencedPath e.dataFile = none := by decide
    intro e he min max hbounds
    rw [hnone e he] at hbounds
    cases hbounds
  named := by decide
  distinct := by decide

lemma prunedEntries_vectors : VectorsDiffer [valuesEntries, [farEntry]].flatten := by
  have hnone : ∀ x ∈ [valuesEntries, [farEntry]].flatten, isVector x = false := by decide
  intro e x y hx _ hfor
  have hkind := hfor.1
  rw [hnone x hx] at hkind
  cases hkind

lemma prunedEntries_deletes : SoundDeletes (fun _ => threeDeletes) [valuesEntries, [farEntry]].flatten where
  bounded := by
    have hcovers : ∀ x ∈ [valuesEntries, [farEntry]].flatten, (positionalOf x).minMaxReferencedPath = none := by decide
    intro x hx _ path pos _
    rw [covers, hcovers x hx]
  annotated := by
    have hnone : ∀ x ∈ [valuesEntries, [farEntry]].flatten, x.dataFile.referencedDataFile = none := by decide
    intro x hx _ path pos _ referenced hreferenced
    rw [hnone x hx] at hreferenced
    cases hreferenced
  vectors := by
    rintro e x y hx hy ⟨hxfor, -, hxnewest⟩ ⟨hyfor, -, hynewest⟩
    exact prunedEntries_vectors e x y hx hy hxfor hyfor (le_antisymm (hynewest x hx hxfor) (hxnewest y hy hyfor))

end IcebergCxx.Proofs

import IcebergCxx.Proofs.ScanRows
import IcebergCxx.Proofs.StatsFilterLaw
import IcebergCxx.Proofs.StatsGetters
import IcebergCxx.RowGroupFilter

/-!
# Pushing a filter down to the row groups

A row group that `RowGroupFilter` skips has no row that the row filter selects, so a scan that skips row groups returns the
rows of the scan that reads all of them.
-/

namespace IcebergCxx.Proofs

open Lib

/-! ### The types of columns -/

mutual

/-- The expression asks for every column by its type. -/
def TypedBy (types : Bytes → Option ValueType) : Node → Prop
  | .variable type name => types name = some type
  | .const _ => True
  | .function _ arguments => TypedByAll types arguments
  | .scalarOverArray _ _ scalar _ => TypedBy types scalar
  | .ifNode c t e => TypedBy types c ∧ TypedBy types t ∧ TypedBy types e
  | .logical _ arguments => TypedByAll types arguments

def TypedByAll (types : Bytes → Option ValueType) : List Node → Prop
  | [] => True
  | a :: arguments => TypedBy types a ∧ TypedByAll types arguments

end

/-- The statistics of the columns, by their types only. -/
def typedStats (types : Bytes → Option ValueType) (getter : StatsGetter) : StatsGetter := fun name type =>
  if types name = some type then getter name type else none

section
variable {types : Bytes → Option ValueType} {getter : StatsGetter} {shift : Option (SignedInt 64)}
  {castSafe : GenericStats → Prop} {eval : Node → Outcome}

mutual

/-- The visitor asks for nothing else. -/
theorem visitStats_typed : ∀ node : Node, TypedBy types node →
    visitStats (typedStats types getter) shift node = visitStats getter shift node
  | .variable type name, h => by
    have htype : types name = some type := h
    simp only [visitStats, typedStats]
    rw [if_pos htype]
  | .const ⟨_, none⟩, _ => by simp only [visitStats]
  | .const ⟨_, some _⟩, _ => by simp only [visitStats]
  | .function signature arguments, h => by
    simp only [visitStats]
    rw [visitStatsAll_typed arguments h]
  | .scalarOverArray signature useOr scalar array, h => by
    simp only [visitStats]
    rw [visitStats_typed scalar h]
  | .ifNode c t e, h => by
    simp only [visitStats]
    rw [visitStats_typed c h.1, visitStats_typed t h.2.1, visitStats_typed e h.2.2]
  | .logical .not [a], h => by
    simp only [visitStats]
    rw [visitStats_typed a h.1]
  | .logical .not [], _ => by simp only [visitStats]
  | .logical .not (_ :: _ :: _), _ => by simp only [visitStats]
  | .logical .or arguments, h => by
    simp only [visitStats]
    exact visitStatsLogical_typed true _ arguments h
  | .logical .and arguments, h => by
    simp only [visitStats]
    exact visitStatsLogical_typed false _ arguments h

theorem visitStatsAll_typed : ∀ arguments : List Node, TypedByAll types arguments →
    visitStatsAll (typedStats types getter) shift arguments = visitStatsAll getter shift arguments
  | [], _ => by simp only [visitStatsAll]
  | a :: arguments, h => by
    simp only [visitStatsAll]
    rw [visitStats_typed a h.1, visitStatsAll_typed arguments h.2]

theorem visitStatsLogical_typed (useOr : Bool) (current : BoolStats) : ∀ arguments : List Node,
    TypedByAll types arguments → visitStatsLogical (typedStats types getter) shift useOr current arguments =
      visitStatsLogical getter shift useOr current arguments
  | [], _ => by simp only [visitStatsLogical]
  | a :: arguments, h => by
    simp only [visitStatsLogical]
    rw [visitStats_typed a h.1]
    simp only [visitStatsLogical_typed useOr _ arguments h.2]

end

mutual

theorem careful_typed : ∀ node : Node, TypedBy types node → Careful getter shift castSafe eval node →
    Careful (typedStats types getter) shift castSafe eval node
  | .variable _ _, _, _ => by simp only [Careful]
  | .const _, _, _ => by simp only [Careful]
  | .function signature arguments, h, hc => by
    simp only [Careful] at hc ⊢
    rw [visitStatsAll_typed arguments h]
    exact ⟨carefulAll_typed arguments h hc.1, hc.2⟩
  | .scalarOverArray signature useOr scalar array, h, hc => by
    simp only [Careful] at hc ⊢
    rw [visitStats_typed scalar h]
    exact ⟨careful_typed scalar h hc.1, hc.2⟩
  | .ifNode c t e, h, hc => by
    simp only [Careful] at hc ⊢
    rw [visitStats_typed c h.1]
    refine ⟨careful_typed c h.1 hc.1, ?_⟩
    intro stats b hstats hb
    obtain ⟨hthen, helse, hboth⟩ := hc.2 stats b hstats hb
    refine ⟨?_, ?_, ?_⟩
    · intro hmin
      exact ⟨(hthen hmin).1, careful_typed t h.2.1 (hthen hmin).2⟩
    · intro hmin hmax
      exact careful_typed e h.2.2 (helse hmin hmax)
    · intro hmin hmax
      exact ⟨careful_typed t h.2.1 (hboth hmin hmax).1, careful_typed e h.2.2 (hboth hmin hmax).2⟩
  | .logical .not [a], h, hc => by
    simp only [Careful] at hc ⊢
    exact careful_typed a h.1 hc
  | .logical .not [], _, _ => by simp only [Careful]
  | .logical .not (_ :: _ :: _), _, _ => by simp only [Careful]
  | .logical .or arguments, h, hc => by
    simp only [Careful] at hc ⊢
    exact carefulLogical_typed true _ arguments h hc
  | .logical .and arguments, h, hc => by
    simp only [Careful] at hc ⊢
    exact carefulLogical_typed false _ arguments h hc

theorem carefulAll_typed : ∀ arguments : List Node, TypedByAll types arguments →
    CarefulAll getter shift castSafe eval arguments → CarefulAll (typedStats types getter) shift castSafe eval arguments
  | [], _, _ => by simp only [CarefulAll]
  | a :: arguments, h, hc => by
    simp only [CarefulAll] at hc ⊢
    rw [visitStats_typed a h.1]
    exact ⟨careful_typed a h.1 hc.1, fun stats hstats => carefulAll_typed arguments h.2 (hc.2 stats hstats)⟩

theorem carefulLogical_typed (useOr : Bool) (current : BoolStats) : ∀ arguments : List Node,
    TypedByAll types arguments → CarefulLogical getter shift castSafe eval useOr current arguments →
      CarefulLogical (typedStats types getter) shift castSafe eval useOr current arguments
  | [], _, _ => by simp only [CarefulLogical]
  | a :: arguments, h, hc => by
    simp only [CarefulLogical] at hc ⊢
    rw [visitStats_typed a h.1]
    refine ⟨careful_typed a h.1 hc.1, ?_, ?_⟩
    · intro e he
      exact carefulLogical_typed useOr _ arguments h.2 (hc.2.1 e he)
    · intro stats b hstats hb hfinal
      exact carefulLogical_typed useOr _ arguments h.2 (hc.2.2 stats b hstats hb hfinal)

end

end

/-! ### The bounds of a row group -/

instance instLinearOrderValues : (type : ParquetPhysicalType) → LinearOrder type.Values
  | .boolean => inferInstanceAs (LinearOrder Bool)
  | .int32 => inferInstanceAs (LinearOrder (SignedInt 32))
  | .int64 => inferInstanceAs (LinearOrder (SignedInt 64))
  | .byteArray => inferInstanceAs (LinearOrder Bytes)
  | .int96 | .fixedLenByteArray => inferInstanceAs (LinearOrder Unit)

/-- 32-bit bounds that are 16-bit integers. -/
def FitsInt16 : (type : ParquetPhysicalType) → MinMaxStats type.Values → Prop
  | .int32, (bounds : MinMaxStats (SignedInt 32)) => InInt16 bounds.min.val ∧ InInt16 bounds.max.val
  | _, _ => True

/-- The bounds and the counts of a chunk are right for a value of it, which may be null. -/
structure DescribesCell (chunk : ColumnChunkMetaData) (type : ValueType) (cell : Option Scalar) : Prop where
  null : ∀ stats ∈ chunk.statistics, cell = none → ∀ nullCount ∈ stats.nullCount, 0 < nullCount
  counted : ∀ stats ∈ chunk.statistics, cell ≠ none → stats.nullCount ≠ none → 0 < stats.numValues
  between : ∀ stats ∈ chunk.statistics, ∀ bounds ∈ stats.minMax, ∀ convert ∈ parquetConversion stats.physicalType type,
    ∀ x ∈ cell, ∃ stored, x = ⟨type, convert stored⟩ ∧ bounds.min ≤ stored ∧ stored ≤ bounds.max
  small : type = .int2 → ∀ stats ∈ chunk.statistics, ∀ bounds ∈ stats.minMax, FitsInt16 stats.physicalType bounds

/-- The conversions keep the order. -/
lemma parquetConversion_mono {parquetType : ParquetPhysicalType} {type : ValueType}
    {convert : parquetType.Values → PhysicalType type} (h : parquetConversion parquetType type = some convert)
    {bounds : MinMaxStats parquetType.Values} (hsmall : type = .int2 → FitsInt16 parquetType bounds)
    {stored : parquetType.Values} (hmin : bounds.min ≤ stored) (hmax : stored ≤ bounds.max) :
    convert bounds.min ≤ convert stored ∧ convert stored ≤ convert bounds.max := by
  cases parquetType <;> cases type <;> first
    | (cases h; done)
    | (obtain rfl := Option.some.inj h; exact ⟨hmin, hmax⟩)
    | skip
  obtain rfl := Option.some.inj h
  obtain ⟨hlower, hupper⟩ := hsmall rfl
  have hlow : bounds.min.val ≤ stored.val := hmin
  have hhigh : stored.val ≤ bounds.max.val := hmax
  have hstored : InInt16 stored.val := ⟨hlower.1.trans hlow, hhigh.trans_lt hupper.2⟩
  constructor
  · apply Subtype.coe_le_coe.mp
    rw [toInt16_val hlower, toInt16_val hstored]
    exact hlow
  · apply Subtype.coe_le_coe.mp
    rw [toInt16_val hupper, toInt16_val hstored]
    exact hhigh

/-- What the getter returns for a column is sound for its values. -/
lemma parquetStats_sound {getter : ParquetStatsGetter} {name : Bytes} {type : ValueType} {stats : GenericStats}
    (h : getter.getStats name type = some stats) {cell : Option Scalar}
    (hcell : ∀ chunk ∈ getter.columnChunk name, DescribesCell chunk type cell) : Sound stats (.ofOption cell) := by
  obtain ⟨chunk, hchunk, h⟩ := Option.bind_eq_some_iff.mp h
  obtain ⟨statistics, hstatistics, h⟩ := Option.bind_eq_some_iff.mp h
  obtain ⟨bounds, hbounds, h⟩ := Option.bind_eq_some_iff.mp h
  obtain ⟨convert, hconvert, h⟩ := Option.bind_eq_some_iff.mp h
  have hdescribes := hcell chunk hchunk
  split_ifs at h
  obtain rfl := Option.some.inj h
  cases cell with
  | none =>
    change statistics.countStats.containsNull = true
    unfold ParquetStatistics.countStats
    cases hcount : statistics.nullCount with
    | none => rfl
    | some nullCount => exact decide_eq_true (hdescribes.null statistics hstatistics rfl nullCount hcount)
  | some x =>
    obtain ⟨stored, rfl, hmin, hmax⟩ := hdescribes.between statistics hstatistics bounds hbounds convert hconvert x rfl
    constructor
    · unfold ParquetStatistics.countStats
      cases hcount : statistics.nullCount with
      | none => rfl
      | some nullCount =>
        apply decide_eq_true
        exact hdescribes.counted statistics hstatistics (Option.some_ne_none _) (by rw [hcount]; exact Option.some_ne_none _)
    · have hmono := parquetConversion_mono hconvert (fun hsmall =>
        hdescribes.small hsmall statistics hstatistics bounds hbounds) hmin hmax
      exact .mk hmono.1 hmono.2

/-! ### The row group filter -/

variable {filter : RowGroupFilter} {types : Bytes → Option ValueType}

/-- The chunk at the position of a root field is right for the values of its column in the row. -/
def FooterDescribes (filter : RowGroupFilter) (types : Bytes → Option ValueType) (footer : RowGroupFooter) (row : Row) :
    Prop :=
  ∀ (p : Nat) field name type chunk, footer.fields[p]? = some field →
    filter.fieldIdToName.find? field.fieldId = some name → types name = some type → footer.columns[p]? = some chunk →
      DescribesCell chunk type (row name)

/-- A name stands for the position of a root field with its id. -/
lemma nameToParquetIndex_spec {fieldIdToName : OrdMap Int Bytes} {fields : List ParquetNode} {name : Bytes} {p : Nat}
    (h : (nameToParquetIndex fieldIdToName fields).find? name = some p) :
    ∃ field, fields[p]? = some field ∧ fieldIdToName.find? field.fieldId = some name := by
  induction fields using List.reverseRecOn with
  | nil => cases h
  | append_singleton fields field ih =>
    have hbefore : (nameToParquetIndex fieldIdToName fields).find? name = some p →
        ∃ field', (fields ++ [field])[p]? = some field' ∧ fieldIdToName.find? field'.fieldId = some name := by
      intro hfind
      obtain ⟨field', hget, hname⟩ := ih hfind
      refine ⟨field', ?_, hname⟩
      rw [List.getElem?_append_left (List.getElem?_eq_some_iff.mp hget).1]
      exact hget
    have hlast : nameToParquetIndex fieldIdToName (fields ++ [field]) =
        addNameIndex fieldIdToName (nameToParquetIndex fieldIdToName fields) (field, fields.length) := by
      unfold nameToParquetIndex
      rw [List.zipIdx_append, List.foldl_append, Nat.zero_add]
      rfl
    rw [hlast, addNameIndex] at h
    split_ifs at h with hid
    · exact hbefore h
    · cases hfound : fieldIdToName.find? field.fieldId with
      | none =>
        rw [hfound] at h
        exact hbefore h
      | some found =>
        rw [hfound] at h
        replace h : ((nameToParquetIndex fieldIdToName fields).insert found fields.length).find? name = some p := h
        rw [OrdMap.find?_insert] at h
        split_ifs at h with hsame
        · obtain rfl := Option.some.inj h
          refine ⟨field, List.getElem?_concat_length, ?_⟩
          rw [hsame]
          exact hfound
        · exact hbefore h

/-- The statistics of a row group describe its rows. -/
lemma describesRow_of_footer {footer : RowGroupFooter} {row : Row} (h : FooterDescribes filter types footer row) :
    DescribesRow (typedStats types (filter.getCurrentParquetStatsGetter footer).getStats) row := by
  intro name type stats hstats
  unfold typedStats at hstats
  split_ifs at hstats with htype
  apply parquetStats_sound hstats
  intro chunk hchunk
  unfold ParquetStatsGetter.columnChunk RowGroupFilter.getCurrentParquetStatsGetter at hchunk
  rw [OrdMap.find?_map] at hchunk
  cases hindex : (nameToParquetIndex filter.fieldIdToName footer.fields).find? name with
  | none =>
    rw [hindex] at hchunk
    cases hchunk
  | some p =>
    obtain ⟨field, hfield, hname⟩ := nameToParquetIndex_spec hindex
    rw [hindex] at hchunk
    exact h p field name type chunk hfield hname htype hchunk

/-- An expression that no row may match is not true on a row that the statistics describe. -/
lemma not_true_of_none {getter : StatsGetter} {shift : Option (SignedInt 64)} {delta : Int} {root : Node}
    (hnone : StatsFilter.applyFilter getter shift (some root) = .none) (htyped : TypedBy types root)
    {interp : FunctionID → List Outcome → Outcome} {row : Row} (hrow : DescribesRow (typedStats types getter) row)
    (hcareful : Careful getter shift (CastSafe shift delta) (evalNode delta interp row) root) :
    evalNode delta interp row root ≠ .truth true := by
  have hanswers := @answersFor_of_careful (typedStats types getter) shift delta _ (evalNode delta interp) [row] root
    (fun _ => evalNode_semantics) (fun row' hmem => List.mem_singleton.mp hmem ▸ hrow) (fun _ hsafe => hsafe)
    (fun row' hmem => List.mem_singleton.mp hmem ▸ careful_typed root htyped hcareful)
  have hsame : StatsFilter.applyFilter (typedStats types getter) shift (some root) = .none := by
    obtain ⟨stats, hvisit, hbool⟩ := applyFilter_eq_none_iff.mp hnone
    rw [← visitStats_typed root htyped] at hvisit
    exact applyFilter_eq_none_iff.mpr ⟨stats, hvisit, hbool⟩
  exact hanswers.1 hsame row (List.mem_singleton.mpr rfl)

/-- A row group that is skipped has no row on which the expression is true. -/
lemma not_true_of_canSkip {footer : RowGroupFooter} (hskip : filter.canSkipRowGroup footer = true) {root : Node}
    (hroot : filter.extractedFilterRepresentation = some root) (htyped : TypedBy types root)
    {interp : FunctionID → List Outcome → Outcome} {row : Row} (hrow : FooterDescribes filter types footer row)
    (hcareful : Careful (filter.getCurrentParquetStatsGetter footer).getStats
      (some filter.timestampToTimestamptzShiftUs)
      (CastSafe (some filter.timestampToTimestamptzShiftUs) filter.timestampToTimestamptzShiftUs.val)
      (evalNode filter.timestampToTimestamptzShiftUs.val interp row) root) :
    evalNode filter.timestampToTimestamptzShiftUs.val interp row root ≠ .truth true := by
  unfold RowGroupFilter.canSkipRowGroup at hskip
  rw [hroot, decide_eq_true_eq] at hskip
  exact not_true_of_none hskip htyped (describesRow_of_footer hrow) hcareful

/-! ### Scans with and without the row group filter -/

variable {roaring : RoaringLibrary} {ctx : EqualityDeleteContext} {builder : ScanFileReaderBuilder roaring}
  {cb : Bytes → DeleteFile} {keyTypes : Int → KeyType} {footer : ParquetRowGroup → RowGroupFooter}
  {interp : FunctionID → List Outcome → Outcome}

/-- Reading without and with a row group filter, by the footers of the row groups. -/
def readingAll (builder : ScanFileReaderBuilder roaring) : ScanFileReaderBuilder roaring :=
  { builder with canSkipRowGroup := none }

def pushingDown (builder : ScanFileReaderBuilder roaring) (filter : RowGroupFilter)
    (footer : ParquetRowGroup → RowGroupFooter) : ScanFileReaderBuilder roaring :=
  { builder with canSkipRowGroup := some (fun rowGroup => filter.canSkipRowGroup (footer rowGroup)) }

/-- What the code needs of the filter over a file: the footers describe the rows, the expression asks for every column by
its type, its visits are careful, and it is true on the rows that the row filter selects. -/
structure SoundPushdown (filter : RowGroupFilter) (footer : ParquetRowGroup → RowGroupFooter)
    (types : Bytes → Option ValueType) (interp : FunctionID → List Outcome → Outcome)
    (builder : ScanFileReaderBuilder roaring) (file : ParquetFile) (rowAt : Int → Row) : Prop where
  footers : ∀ i rowGroup, file.rowGroups[i]? = some rowGroup → ∀ pos, RowGroupHolds file i pos →
    FooterDescribes filter types (footer rowGroup) (rowAt pos)
  typed : ∀ root ∈ filter.extractedFilterRepresentation, TypedBy types root
  careful : ∀ root ∈ filter.extractedFilterRepresentation, ∀ i rowGroup, file.rowGroups[i]? = some rowGroup →
    ∀ pos, RowGroupHolds file i pos →
      Careful (filter.getCurrentParquetStatsGetter (footer rowGroup)).getStats
        (some filter.timestampToTimestamptzShiftUs)
        (CastSafe (some filter.timestampToTimestamptzShiftUs) filter.timestampToTimestamptzShiftUs.val)
        (evalNode filter.timestampToTimestamptzShiftUs.val interp (rowAt pos)) root
  selects : ∀ root ∈ filter.extractedFilterRepresentation, ∀ pos, FilterSelects builder file pos →
    evalNode filter.timestampToTimestamptzShiftUs.val interp (rowAt pos) root = .truth true

lemma SoundPushdown.filtersFile {file : ParquetFile} {rowAt : Int → Row}
    (h : SoundPushdown filter footer types interp builder file rowAt) (hfilter : FiltersFile (readingAll builder) file) :
    FiltersFile (pushingDown builder filter footer) file where
  answers := hfilter.answers
  skipped := by
    intro canSkip hcanSkip i rowGroup hrowGroup hskip pos hholds hselects
    obtain rfl := Option.some.inj hcanSkip
    cases hroot : filter.extractedFilterRepresentation with
    | none =>
      unfold RowGroupFilter.canSkipRowGroup at hskip
      rw [hroot] at hskip
      cases hskip
    | some root =>
      exact not_true_of_canSkip hskip hroot (h.typed root hroot) (h.footers i rowGroup hrowGroup pos hholds)
        (h.careful root hroot i rowGroup hrowGroup pos hholds) (h.selects root hroot pos hselects)

/-- The rows that the batches return: the place of the file, the batch and the row in it. -/
def returnedRows (batches : List FilteredBatch) : List (PartitionLayerFile × ArrowBatchWithRowPosition × Nat) :=
  batches.flatMap (fun batch => batch.selectionVector.map (fun row =>
    (batch.toPartitionLayerFile, batch.withRowPosition, row)))

def positionOf (returned : PartitionLayerFile × ArrowBatchWithRowPosition × Nat) : Int :=
  returned.2.1.rowPosition + returned.2.2

lemma mem_returnedRows {batches : List FilteredBatch} {returned : PartitionLayerFile × ArrowBatchWithRowPosition × Nat} :
    returned ∈ returnedRows batches ↔ ∃ batch ∈ batches, ∃ row ∈ batch.selectionVector,
      (batch.toPartitionLayerFile, batch.withRowPosition, row) = returned := by
  unfold returnedRows
  simp only [List.mem_flatMap, List.mem_map]

/-- The rows of a file are returned in the order of their positions. -/
lemma EmitsFiltered.returnedRows_pairwise {path : AnnotatedDataPath} {file : ParquetFile}
    {Deleted : ArrowBatchWithRowPosition → Nat → Prop} {batches : List FilteredBatch}
    (h : EmitsFiltered builder path file Deleted batches) :
    (returnedRows batches).Pairwise (fun a b => positionOf a < positionOf b) := by
  have hmap : (returnedRows batches).map positionOf =
      batches.flatMap (fun batch => batch.selectionVector.map (fun row : Nat => batch.rowPosition + row)) := by
    unfold returnedRows
    rw [List.map_flatMap]
    simp only [List.map_map]
    rfl
  rw [← List.pairwise_map, hmap]
  have honce := h.once
  have hincreasing := h.increasing
  have hinBatch : ∀ batch ∈ batches, ∀ row ∈ batch.selectionVector, row < batch.numRows :=
    fun batch hbatch row hrow => ((h.selected batch hbatch row).mp hrow).1
  clear hmap h
  induction batches with
  | nil => exact .nil
  | cons batch batches ih =>
    rw [List.flatMap_cons, List.pairwise_append] at honce ⊢
    have hmem : ∀ batch ∈ batches, ∀ row ∈ batch.selectionVector, row < batch.numRows →
        batch.rowPosition + (row : Int) ∈ batches.flatMap batchPositions := by
      intro batch hbatch row hrow hlt
      refine List.mem_flatMap.mpr ⟨batch, hbatch, ?_⟩
      rw [batchPositions, mem_shapePositions]
      dsimp only
      omega
    refine ⟨?_, ih honce.2.1 (fun b hb => hincreasing b (List.mem_cons_of_mem _ hb))
      (fun b hb => hinBatch b (List.mem_cons_of_mem _ hb)), ?_⟩
    · rw [List.pairwise_map]
      apply (hincreasing batch List.mem_cons_self).imp
      intro a b hab
      omega
    · intro x hx y hy
      obtain ⟨row, hrow, rfl⟩ := List.mem_map.mp hx
      obtain ⟨batch', hbatch', hy⟩ := List.mem_flatMap.mp hy
      obtain ⟨row', hrow', rfl⟩ := List.mem_map.mp hy
      apply honce.2.2
      · rw [batchPositions, mem_shapePositions]
        dsimp only
        have hlt := hinBatch batch List.mem_cons_self row hrow
        omega
      · exact hmem batch' hbatch' row' hrow' (hinBatch batch' (List.mem_cons_of_mem _ hbatch') row' hrow')

/-- Batches of the same file with a row in common have the same columns. -/
lemma ReadOf.unique {place : PartitionLayerFile} {file : ParquetFile} {fieldIdToIndex : OrdMap Int Nat}
    (hids : makeFieldIdToIndexMap builder.schemaNameMapper file.fields = .ok fieldIdToIndex) {a b : FilteredBatch}
    (ha : ReadOf builder place file a) (hb : ReadOf builder place file b) {pos : Int} (hpos : pos ∈ batchPositions a)
    (hpos' : pos ∈ batchPositions b) : a.withRowPosition = b.withRowPosition := by
  obtain ⟨i, filterA, dataA, hpairA, hshapeA, hcolumnsA⟩ := ha
  obtain ⟨j, filterB, dataB, hpairB, hshapeB, hcolumnsB⟩ := hb
  have hdataA : pos ∈ shapePositions (shapeOf dataA) := by
    rw [hshapeA]
    exact hpos
  have hdataB : pos ∈ shapePositions (shapeOf dataB) := by
    rw [hshapeB]
    exact hpos'
  have hfilterA : pos ∈ shapePositions (shapeOf filterA) := by
    rw [hpairA.aligned.1]
    exact hdataA
  have hfilterB : pos ∈ shapePositions (shapeOf filterB) := by
    rw [hpairB.aligned.1]
    exact hdataB
  obtain rfl := rowGroupHolds_unique (rowGroupHolds_of_mem hids hpairA.data hdataA)
    (rowGroupHolds_of_mem hids hpairB.data hdataB)
  obtain rfl := batch_unique hids hpairA.data hpairB.data hdataA hdataB
  obtain rfl := batch_unique hids hpairA.filter hpairB.filter hfilterA hfilterB
  obtain ⟨hposition, hrows⟩ := Prod.mk.inj (hshapeA.symm.trans hshapeB)
  unfold FilteredBatch.withRowPosition
  rw [hcolumnsA, hcolumnsB, hposition, hrows]

/-- A row that one reader of a file returns is returned by the other. -/
lemma mem_returnedRows_of_mem {builder' : ScanFileReaderBuilder roaring} {path : AnnotatedDataPath} {file : ParquetFile}
    {fieldIdToIndex : OrdMap Int Nat} {Deleted : ArrowBatchWithRowPosition → Nat → Prop}
    {batches batches' : List FilteredBatch} (h : EmitsFiltered builder path file Deleted batches)
    (h' : EmitsFiltered builder' path file Deleted batches')
    (hids : makeFieldIdToIndexMap builder'.schemaNameMapper file.fields = .ok fieldIdToIndex)
    (hread : ∀ batch, ReadOf builder path.toPartitionLayerFile file batch →
      ReadOf builder' path.toPartitionLayerFile file batch)
    (hselects : ∀ pos, FilterSelects builder file pos → FilterSelects builder' file pos)
    {returned : PartitionLayerFile × ArrowBatchWithRowPosition × Nat} (hreturned : returned ∈ returnedRows batches) :
    returned ∈ returnedRows batches' := by
  obtain ⟨batch, hbatch, row, hrow, rfl⟩ := mem_returnedRows.mp hreturned
  obtain ⟨hlt, hfilter, hkept⟩ := (h.selected batch hbatch row).mp hrow
  have hpos : batch.rowPosition + (row : Int) ∈ batchPositions batch := by
    rw [batchPositions, mem_shapePositions]
    dsimp only
    omega
  have hplanned := h.planned _ (List.mem_flatMap.mpr ⟨batch, hbatch, hpos⟩)
  obtain ⟨batch', hbatch', hpos'⟩ := List.mem_flatMap.mp (h'.covered _ hplanned (hselects _ hfilter))
  have hsame := (hread batch (h.read batch hbatch)).unique hids (h'.read batch' hbatch') hpos hpos'
  have hrows : batch.numRows = batch'.numRows := congrArg ArrowBatchWithRowPosition.numRows hsame
  have hposition : batch.rowPosition = batch'.rowPosition := congrArg ArrowBatchWithRowPosition.rowPosition hsame
  have hselected : row ∈ batch'.selectionVector := by
    apply (h'.selected batch' hbatch' row).mpr
    rw [← hsame, ← hposition, ← hrows]
    exact ⟨hlt, hselects _ hfilter, hkept⟩
  apply mem_returnedRows.mpr
  refine ⟨batch', hbatch', row, hselected, ?_⟩
  rw [h.tagged batch hbatch, h'.tagged batch' hbatch', hsame]

lemma pairOf_readingAll {place : PartitionLayerFile} {file : ParquetFile} {i : Nat}
    {batchFilter batchData : ArrowBatchWithRowPosition} :
    PairOf (readingAll builder) place file i batchFilter batchData ↔
      PairOf (pushingDown builder filter footer) place file i batchFilter batchData :=
  ⟨fun h => ⟨h.aligned, h.filter, h.data⟩, fun h => ⟨h.aligned, h.filter, h.data⟩⟩

lemma readOf_readingAll {place : PartitionLayerFile} {file : ParquetFile} {batch : FilteredBatch} :
    ReadOf (readingAll builder) place file batch ↔ ReadOf (pushingDown builder filter footer) place file batch := by
  constructor
  · rintro ⟨i, batchFilter, batchData, hpair, hshape, hcolumns⟩
    exact ⟨i, batchFilter, batchData, pairOf_readingAll.mp hpair, hshape, hcolumns⟩
  · rintro ⟨i, batchFilter, batchData, hpair, hshape, hcolumns⟩
    exact ⟨i, batchFilter, batchData, pairOf_readingAll.mpr hpair, hshape, hcolumns⟩

/-- Both readers of a file return the same rows. -/
lemma returnedRows_eq {path : AnnotatedDataPath} {file : ParquetFile} {fieldIdToIndex : OrdMap Int Nat}
    {Deleted : ArrowBatchWithRowPosition → Nat → Prop} {batches batches' : List FilteredBatch}
    (hids : makeFieldIdToIndexMap builder.schemaNameMapper file.fields = .ok fieldIdToIndex)
    (h : EmitsFiltered (readingAll builder) path file Deleted batches)
    (h' : EmitsFiltered (pushingDown builder filter footer) path file Deleted batches') :
    returnedRows batches = returnedRows batches' := by
  have hirreflexive : Std.Irrefl (fun a b : PartitionLayerFile × ArrowBatchWithRowPosition × Nat =>
      positionOf a < positionOf b) := ⟨fun a => lt_irrefl _⟩
  have hantisymmetric : Std.Antisymm (fun a b : PartitionLayerFile × ArrowBatchWithRowPosition × Nat =>
      positionOf a < positionOf b) := ⟨fun a b hab hba => absurd hba hab.asymm⟩
  apply h.returnedRows_pairwise.eq_of_mem_iff h'.returnedRows_pairwise
  intro returned
  constructor
  · exact mem_returnedRows_of_mem h h' hids (fun batch => readOf_readingAll.mp) (fun pos hpos => hpos)
  · exact mem_returnedRows_of_mem h' h hids (fun batch => readOf_readingAll.mpr) (fun pos hpos => hpos)

/-- A scan that skips row groups is as sound as one that reads all of them. -/
lemma SoundScan.pushingDown {plan : ScanMetadata} {paths : List AnnotatedDataPath}
    (h : SoundScan ctx (readingAll builder) cb keyTypes plan paths)
    (hpushdown : ∀ path ∈ paths, ∀ file, builder.openParquet path.path = .ok file →
      ∃ rowAt, SoundPushdown filter footer types interp builder file rowAt) :
    SoundScan ctx (pushingDown builder filter footer) cb keyTypes plan paths where
  batchSize := h.batchSize
  files := by
    intro path hpath
    obtain ⟨file, hfile⟩ := h.files path hpath
    have hreadable := hfile.readable
    obtain ⟨rowAt, hrows⟩ := hpushdown path hpath file hreadable.opened
    exact ⟨file, ⟨hreadable.opened, hreadable.fieldIds, hreadable.offsets, hreadable.segments, hreadable.rows⟩,
      hrows.filtersFile hfile.filters, fun i f d hpair => hfile.keys i f d (pairOf_readingAll.mpr hpair)⟩
  vectors := ⟨h.vectors.first, h.vectors.neighbours⟩
  collected := h.collected
  equalityDeletes := h.equalityDeletes
  positionalDeletes := h.positionalDeletes

lemma returnedRows_flatten (emitted : List (List FilteredBatch)) :
    returnedRows emitted.flatten = emitted.flatMap returnedRows := by
  induction emitted with
  | nil => rfl
  | cons batches emitted ih =>
    rw [List.flatten_cons, List.flatMap_cons, ← ih]
    exact List.flatMap_append

/-- `b < 7`, in the footers of two row groups with the values 5, 6 and 8, 9. -/
def valuesFilter : RowGroupFilter where
  extractedFilterRepresentation := some (.function ⟨.lessThan, .bool, [.int4, .int4]⟩
    [.variable .int4 (bytes "b"), .const ⟨.int4, some (toInt32 7)⟩])
  fieldIdToName := (∅ : OrdMap Int Bytes).insert 2 (bytes "b")
  timestampToTimestamptzShiftUs := toInt64 0

def valuesChunk (min max : Int) : ColumnChunkMetaData where
  logicalType := .none
  statistics := some ⟨.int32, some ⟨toInt32 min, toInt32 max⟩, 2, some 0⟩

def valuesFooter (rowGroup : ParquetRowGroup) : RowGroupFooter where
  fields := valuesFile.fields
  columns := [if rowGroup.metadata.fileOffset = 100 then valuesChunk 8 9 else valuesChunk 5 6]

def valuesTypes (name : Bytes) : Option ValueType := if name = bytes "b" then some .int4 else none

def valuesRow (pos : Int) : Row := columnRow (bytes "b") ⟨.int4, toInt32 (if pos < 2 then pos + 5 else pos + 6)⟩

example : (valuesFile.rowGroups.map (fun rowGroup => valuesFilter.canSkipRowGroup (valuesFooter rowGroup))) =
    [false, true] := by decide

lemma valuesChunk_describes {min max x : Int} (hmin : (toInt32 min).val ≤ (toInt32 x).val)
    (hmax : (toInt32 x).val ≤ (toInt32 max).val) : DescribesCell (valuesChunk min max) .int4 (some ⟨.int4, toInt32 x⟩) where
  null := by
    intro stats _ hnull
    cases hnull
  counted := by
    intro stats hstats _ _
    obtain rfl := Option.some.inj hstats
    change (0 : Int) < 2
    decide
  between := by
    intro stats hstats bounds hbounds convert hconvert cell hcell
    obtain rfl := Option.some.inj hstats
    obtain rfl := Option.some.inj hbounds
    obtain rfl := Option.some.inj hconvert
    obtain rfl := Option.some.inj hcell
    exact ⟨toInt32 x, rfl, hmin, hmax⟩
  small := by
    intro htype
    cases htype

lemma valuesFilter_sound : SoundPushdown valuesFilter valuesFooter valuesTypes (fun _ _ => .error) valuesBuilder valuesFile
    valuesRow where
  footers := by
    intro i rowGroup hrowGroup pos hholds p field name type chunk hfield hname htype hchunk
    obtain ⟨rowGroup', hrowGroup', hle, hlt⟩ := hholds
    obtain rfl := Option.some.inj (hrowGroup.symm.trans hrowGroup')
    -- the only column is `b`
    rcases p with _ | p
    · obtain rfl := Option.some.inj hfield
      obtain rfl := Option.some.inj hname
      obtain rfl := Option.some.inj htype
      obtain rfl := Option.some.inj hchunk
      rcases i with _ | _ | i
      · obtain rfl := Option.some.inj hrowGroup
        have hpos : 0 ≤ pos ∧ pos < 2 := ⟨hle, hlt⟩
        obtain rfl | rfl : pos = 0 ∨ pos = 1 := by omega
        · exact valuesChunk_describes (by decide) (by decide)
        · exact valuesChunk_describes (by decide) (by decide)
      · obtain rfl := Option.some.inj hrowGroup
        have hpos : 2 ≤ pos ∧ pos < 4 := ⟨hle, hlt⟩
        obtain rfl | rfl : pos = 2 ∨ pos = 3 := by omega
        · exact valuesChunk_describes (by decide) (by decide)
        · exact valuesChunk_describes (by decide) (by decide)
      · cases hrowGroup
    · cases hfield
  typed := by
    intro root hroot
    obtain rfl := Option.some.inj hroot
    exact ⟨rfl, trivial, trivial⟩
  careful := by
    intro root hroot i rowGroup _ pos _
    obtain rfl := Option.some.inj hroot
    simp only [Careful, CarefulAll]
    refine ⟨⟨trivial, fun _ _ => ⟨trivial, fun _ _ => trivial⟩⟩, ?_⟩
    intro l r h _ htimestamp
    obtain ⟨_, -, h⟩ := bind_ok h
    obtain ⟨_, hconst, h⟩ := bind_ok h
    cases hconst
    cases h
    -- no operand is a timestamp
    simp [comparesTimestamps, areTypes] at htimestamp
  selects := by
    intro root hroot pos hselects
    obtain rfl := Option.some.inj hroot
    obtain ⟨i, batch, hbatch, rows, hrows, row, hrow, rfl⟩ := hselects
    rw [valuesFile_filterBatches] at hbatch
    split_ifs at hbatch
    · obtain rfl := List.mem_singleton.mp hbatch
      obtain rfl : rows = [0, 1] := (Except.ok.inj hrows).symm
      rcases List.mem_pair.mp hrow with rfl | rfl
      · rfl
      · rfl
    · obtain rfl := List.mem_singleton.mp hbatch
      obtain rfl : rows = [] := (Except.ok.inj hrows).symm
      cases hrow
    · cases hbatch

lemma SoundScan.readingAll {plan : ScanMetadata} {paths : List AnnotatedDataPath}
    (h : SoundScan ctx builder cb keyTypes plan paths) : SoundScan ctx (readingAll builder) cb keyTypes plan paths where
  batchSize := h.batchSize
  files := by
    intro path hpath
    obtain ⟨file, hfile⟩ := h.files path hpath
    have hreadable := hfile.readable
    refine ⟨file, ⟨hreadable.opened, hreadable.fieldIds, hreadable.offsets, hreadable.segments, hreadable.rows⟩,
      ⟨hfile.filters.answers, ?_⟩, fun i f d hpair => hfile.keys i f d ⟨hpair.aligned, hpair.filter, hpair.data⟩⟩
    intro canSkip hcanSkip
    cases hcanSkip
  vectors := ⟨h.vectors.first, h.vectors.neighbours⟩
  collected := h.collected
  equalityDeletes := h.equalityDeletes
  positionalDeletes := h.positionalDeletes

end IcebergCxx.Proofs

import IcebergCxx.Failure
import IcebergCxx.Lib.Bytes

/-!
# Column statistics

`analyzer.cpp`: the chunks of a column feed a distinct counter, a quantile sketch and a frequent items sketch. A chunk
whose pages are all dictionary encoded can be read as the indices of its values, which are then counted, or kept in a
sketch of indices, before the dictionary turns them into values. Sketches are exact here.
-/

namespace IcebergCxx.Analyzer

open Lib

/-- `ParquetType`, as far as a column of it can be analyzed. -/
inductive ParquetType
  | int32
  | int64
  | byteArray
  deriving DecidableEq

/-- `Traits::PhysicalType`. -/
def Traits.PhysicalType : ParquetType → Type
  | .int32 => Int32
  | .int64 => Int64
  | .byteArray => Bytes

/-- `parquet::Encoding`. -/
inductive Encoding
  | plain
  | plainDictionary
  | rle
  | bitPacked
  | deltaBinaryPacked
  | deltaLengthByteArray
  | deltaByteArray
  | rleDictionary
  | byteStreamSplit
  | undefined
  | unknown
  deriving DecidableEq

/-- The number of an encoding. -/
def Encoding.toNat : Encoding → Nat
  | .plain => 0
  | .plainDictionary => 2
  | .rle => 3
  | .bitPacked => 4
  | .deltaBinaryPacked => 5
  | .deltaLengthByteArray => 6
  | .deltaByteArray => 7
  | .rleDictionary => 8
  | .byteStreamSplit => 9
  | .undefined => 10
  | .unknown => 999

/-- `parquet::PageType`. -/
inductive PageType
  | dataPage
  | indexPage
  | dictionaryPage
  | dataPageV2
  | undefined
  deriving DecidableEq

inductive ExposedEncoding
  | noEncoding
  | dictionary
  deriving DecidableEq

/-- A page with its encoding, in the statistics of a chunk and in the chunk. -/
structure Page where
  pageType : PageType
  encoding : Encoding

/-- A column chunk and what the readers give for it: its first page, the encoding that a reader agrees to expose, the
values of the dictionary page, and the batches of indices and of values, without the nulls. -/
structure ColumnChunk (type : ParquetType) where
  col : Nat
  colName : String
  hasDictionaryPage : Bool
  encodingStats : List Page
  firstPage : Option Page
  exposedEncoding : ExposedEncoding
  dictionary : List (Traits.PhysicalType type)
  indexBatches : List (List ℕ)
  valueBatches : List (List (Traits.PhysicalType type))

structure Settings where
  useDictionaryOptimization : Bool := false
  usePrecalculationOptimization : Bool := false
  useStringViewHeuristic : Bool := false
  evaluateDistinct : Bool := false
  evaluateQuantiles : Bool := false
  evaluateFrequentItems : Bool := false
  readAllData : Bool := false

/-! ### Sketches -/

/-- What a sketch is fed with. -/
inductive Item
  | int64 (value : Int64)
  | string (value : Bytes)
  deriving DecidableEq

/-- Integers are widened and byte arrays copied. -/
def item : (type : ParquetType) → Traits.PhysicalType type → Item
  | .int32, value => .int64 (Int32.toInt64 value)
  | .int64, value => .int64 value
  | .byteArray, value => .string value

variable {type : ParquetType}

/-- `SketchUpdater::AppendValues`. -/
def appendValues {Sketch : Type} (appendValue : Item → Sketch → Sketch) (sketch : Sketch)
    (data : List (Traits.PhysicalType type)) : Sketch :=
  data.foldl (fun sketch value => appendValue (item type value) sketch) sketch

/-- `FromDictionary`, which reads the dictionary only for an index of the sketch. -/
def fromDictionary (sketch : Multiset ℕ) (dictionary : Option (List (Traits.PhysicalType type))) :
    Except Failure (Multiset Item) :=
  let values := (dictionary.getD []).map (item type)
  if ∀ index ∈ sketch, index < values.length then .ok (sketch.filterMap fun index => values[index]?)
  else .error .undefined

/-- Feed a sketch, or a temporary one of string views that is merged into it. -/
def feed (temporary : Bool) (update : Multiset Item → Except Failure (Multiset Item)) (sketch : Multiset Item) :
    Except Failure (Multiset Item) := do
  if temporary then
    let tempSketch ← update 0
    return sketch + tempSketch
  else
    update sketch

/-! ### Columns -/

/-- What the analyzer keeps of a column: `AnalyzeColumnResult`, whose sketches stay empty when they are not enabled, and
the entries of `dictionary_buffers` and `count_buffers`. The buffer has no dictionary before the first batch. -/
structure ColumnState (type : ParquetType) where
  distinct : Finset Item := ∅
  quantileSketch : Multiset Item := 0
  frequentItemsSketch : Multiset Item := 0
  frequentItemsSketchDictionary : Multiset ℕ := 0
  dictionaryBuffer : Option (List (Traits.PhysicalType type)) := none
  countBuffer : List ℕ := []

def isDictionaryEncoding : Encoding → Bool
  | .plainDictionary | .rleDictionary => true
  | _ => false

/-- The loop of `AllDataPagesAreEncodedWithDictionary`. -/
def pageIsEncodedWithDictionary (stat : Page) : Bool :=
  match stat.pageType with
  | .indexPage | .undefined => false
  | .dataPage | .dataPageV2 => isDictionaryEncoding stat.encoding
  | .dictionaryPage => true

def allDataPagesAreEncodedWithDictionary (chunk : ColumnChunk type) : Bool :=
  chunk.hasDictionaryPage && chunk.encodingStats.all pageIsEncodedWithDictionary

/-- `EvaluateStatsFromDictionaryPage`. -/
def evaluateStatsFromDictionaryPage (chunk : ColumnChunk type) (s : ColumnState type) :
    Except Failure (Bool × ColumnState type) := do
  if !allDataPagesAreEncodedWithDictionary chunk then
    return (false, s)
  let page ← match chunk.firstPage with
    | none => .error (.thrown ("No page for col " ++ toString chunk.col))
    | some page => .ok page
  require (page.pageType == .dictionaryPage) ("Expected dictionary page fol col " ++ toString chunk.col)
  require (page.encoding == .plain || page.encoding == .plainDictionary)
    ("Expected dictionary page fol col " ++ toString chunk.col ++ ", but found page with type " ++
      toString page.encoding.toNat)
  return (true, { s with distinct := appendValues insert s.distinct chunk.dictionary })

/-- `++count_buffer[index]`, in 32 bits. -/
def incrementCount (countBuffer : List ℕ) (index : ℕ) : Except Failure (List ℕ) :=
  match countBuffer[index]? with
  | none => .error .undefined
  | some count => if count + 1 < 2 ^ 31 then .ok (countBuffer.set index (count + 1)) else .error .undefined

/-- The counting of a batch of indices. -/
def countIndices (countBuffer : List ℕ) (dictionaryLength : ℕ) (indices : List ℕ) : Except Failure (List ℕ) :=
  let countBuffer := if countBuffer.length = 0 then List.replicate dictionaryLength 0 else countBuffer
  indices.foldlM incrementCount countBuffer

/-- The loop over the batches of a chunk that is read as indices. -/
def readIndexBatch (settings : Settings) (chunk : ColumnChunk type) (s : ColumnState type) (indices : List ℕ) :
    Except Failure (ColumnState type) := do
  let countBuffer ← if settings.usePrecalculationOptimization then
      countIndices s.countBuffer chunk.dictionary.length indices
    else .ok s.countBuffer
  return { s with
    dictionaryBuffer := some chunk.dictionary
    countBuffer := countBuffer
    frequentItemsSketchDictionary :=
      if settings.evaluateFrequentItems && !settings.usePrecalculationOptimization then
        indices.foldl (fun sketch index => index ::ₘ sketch) s.frequentItemsSketchDictionary
      else s.frequentItemsSketchDictionary }

/-- One value of the dictionary with its entry of `count_buffer`. -/
def appendEntry (countBuffer : List ℕ) (append : Item → ℕ → Multiset Item → Multiset Item) (sketch : Multiset Item)
    (entry : Traits.PhysicalType type × ℕ) : Except Failure (Multiset Item) :=
  match countBuffer[entry.2]? with
  | none => .error .undefined
  | some count => .ok (append (item type entry.1) count sketch)

/-- The loop over the dictionary in the buffer. -/
def forEachCounted (s : ColumnState type) (append : Item → ℕ → Multiset Item → Multiset Item)
    (sketch : Multiset Item) : Except Failure (Multiset Item) :=
  match s.dictionaryBuffer with
  | none => .error .undefined
  | some dictionary => dictionary.zipIdx.foldlM (appendEntry s.countBuffer append) sketch

/-- A weighted append is as many appends. -/
def appendWeightedValue (value : Item) (weight : ℕ) (sketch : Multiset Item) : Multiset Item :=
  sketch + Multiset.replicate weight value

/-- The inner loop for a quantile sketch, which takes no weights. -/
def appendRepeatedly (value : Item) (count : ℕ) (sketch : Multiset Item) : Multiset Item :=
  (List.range count).foldl (fun sketch _ => value ::ₘ sketch) sketch

/-- After the batches: the indices of the sketch become values. -/
def materializeFrequentItems (s : ColumnState type) : Except Failure (ColumnState type) := do
  let materializedSketch ← fromDictionary s.frequentItemsSketchDictionary s.dictionaryBuffer
  return { s with
    frequentItemsSketch := s.frequentItemsSketch + materializedSketch
    frequentItemsSketchDictionary := 0 }

/-- After the batches: what was counted. -/
def appendCounts (settings : Settings) (s : ColumnState type) : Except Failure (ColumnState type) := do
  let frequentItemsSketch ← if settings.evaluateFrequentItems then
      feed (type == .byteArray && settings.useStringViewHeuristic) (forEachCounted s appendWeightedValue)
        s.frequentItemsSketch
    else .ok s.frequentItemsSketch
  let quantileSketch ← if settings.evaluateQuantiles then
      feed (type == .byteArray) (forEachCounted s appendRepeatedly) s.quantileSketch
    else .ok s.quantileSketch
  return { s with frequentItemsSketch := frequentItemsSketch, quantileSketch := quantileSketch }

/-- `AnalyzeColumn`, from where it opens the column for its indices. -/
def readPages (settings : Settings) (s : ColumnState type) (chunk : ColumnChunk type) :
    Except Failure (ColumnState type) := do
  require (chunk.exposedEncoding == .dictionary)
    ("Column " ++ chunk.colName ++ " is not completely dictionary encoded")
  let s ← chunk.indexBatches.foldlM (readIndexBatch settings chunk) { s with countBuffer := [] }
  -- no branch takes the quantiles from the indices when they are not counted
  if settings.usePrecalculationOptimization then
    appendCounts settings s
  else if settings.evaluateFrequentItems then
    materializeFrequentItems s
  else
    return s

/-- `AnalyzeColumn`, for a chunk that is read as indices. -/
def analyzeIndices (settings : Settings) (s : ColumnState type) (chunk : ColumnChunk type) :
    Except Failure (ColumnState type) := do
  let s ← if settings.evaluateDistinct then do
      let (distinctIsEvaluated, s) ← evaluateStatsFromDictionaryPage chunk s
      require distinctIsEvaluated ("Column " ++ chunk.colName ++ " is not completely dictionary encoded")
      pure s
    else .ok s
  if !settings.evaluateFrequentItems && !settings.evaluateQuantiles && !settings.readAllData then
    return s
  readPages settings s chunk

/-- `AnalyzeColumn`, for a batch of a chunk that is read as values. -/
def readValueBatch (settings : Settings) (s : ColumnState type) (data : List (Traits.PhysicalType type)) :
    Except Failure (ColumnState type) := do
  let temporary := type == .byteArray && settings.useStringViewHeuristic
  let append (sketch : Multiset Item) : Except Failure (Multiset Item) := .ok (appendValues Multiset.cons sketch data)
  let distinct := if settings.evaluateDistinct then appendValues insert s.distinct data else s.distinct
  let quantileSketch ← if settings.evaluateQuantiles then feed temporary append s.quantileSketch
    else .ok s.quantileSketch
  let frequentItemsSketch ← if settings.evaluateFrequentItems then feed temporary append s.frequentItemsSketch
    else .ok s.frequentItemsSketch
  return { s with
    distinct := distinct
    quantileSketch := quantileSketch
    frequentItemsSketch := frequentItemsSketch }

def analyzeColumn (settings : Settings) (s : ColumnState type) (chunk : ColumnChunk type) :
    Except Failure (ColumnState type) :=
  if settings.useDictionaryOptimization && allDataPagesAreEncodedWithDictionary chunk then
    analyzeIndices settings s chunk
  else
    chunk.valueBatches.foldlM (readValueBatch settings) s

/-- The chunks of a column in the row groups of the files that are analyzed. -/
def analyze (settings : Settings) (chunks : List (ColumnChunk type)) : Except Failure (ColumnState type) :=
  chunks.foldlM (analyzeColumn settings) {}

end IcebergCxx.Analyzer

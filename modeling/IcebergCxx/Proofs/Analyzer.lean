import IcebergCxx.Proofs.IndexCounts
import IcebergCxx.Lib.Run

/-!
# Two ways to analyze a column

A chunk that is read as indices feeds the sketches as its values would, when the indices can be counted and the buffer
of the dictionary is not one of an earlier chunk. The quantile sketch is fed only from counts.
-/

namespace IcebergCxx.Proofs

open Lib Analyzer

variable {type : Analyzer.ParquetType} {settings : Settings} {s s' : ColumnState type}
  {chunk : DictionaryEncodedChunk type}

/-! ### The indices of a chunk -/

/-- Some setting needs the pages of a column. -/
def readsPages (settings : Settings) : Bool :=
  settings.evaluateFrequentItems || settings.evaluateQuantiles || settings.readAllData

/-- The dictionary in the buffer after a chunk. -/
def nextBuffer (settings : Settings) (buffer : Option (List (Traits.PhysicalType type))) (chunk : ColumnChunk type) :
    Option (List (Traits.PhysicalType type)) :=
  if readsPages settings ∧ allDataPagesAreEncodedWithDictionary chunk ∧ chunk.indexBatches ≠ [] then
    some chunk.dictionary
  else buffer

/-- A chunk can be read as indices: the reader exposes them, the counts stay within 32 bits, and where they are looked
up for a chunk without a batch, the dictionary that is still in the buffer is empty. -/
structure ReadableIndices (settings : Settings) (buffer : Option (List (Traits.PhysicalType type)))
    (chunk : ColumnChunk type) : Prop where
  exposed : readsPages settings = true → chunk.exposedEncoding = .dictionary
  counted : settings.usePrecalculationOptimization = true → readsPages settings = true →
    ∀ i, chunk.indexBatches.flatten.count i < 2 ^ 31
  buffered : settings.usePrecalculationOptimization = true →
    settings.evaluateFrequentItems = true ∨ settings.evaluateQuantiles = true → chunk.indexBatches = [] →
    buffer = some []

/-- What the pages of a chunk leave when they have been read as indices. -/
structure ReadAsIndices (settings : Settings) (chunk : ColumnChunk type) (s s' : ColumnState type) : Prop where
  frequent : s'.frequentItemsSketch = (fedWith settings s (itemsOf chunk)).frequentItemsSketch
  quantile : s'.quantileSketch = if settings.usePrecalculationOptimization then
    (fedWith settings s (itemsOf chunk)).quantileSketch else s.quantileSketch
  indexSketch : s'.frequentItemsSketchDictionary = 0
  buffer : s'.dictionaryBuffer = nextBuffer settings s.dictionaryBuffer chunk

lemma fromDictionary_decodes {dictionary : List (Traits.PhysicalType type)} {indices : List ℕ} {items : List Item}
    (h : Decodes (dictionary.map (item type)) indices items) :
    fromDictionary (indices : Multiset ℕ) (some dictionary) = .ok (items : Multiset Item) := by
  have hlt : ∀ index ∈ (indices : Multiset ℕ), index < (dictionary.map (item type)).length :=
    fun index hindex => h.lt index (Multiset.mem_coe.mp hindex)
  rw [fromDictionary, Option.getD_some]
  simp only [if_pos hlt, Multiset.filterMap_coe, h.filterMap]

lemma fromDictionary_zero (dictionary : Option (List (Traits.PhysicalType type))) :
    fromDictionary 0 dictionary = .ok 0 := by
  simp [fromDictionary]

/-- The counts of a chunk stand for its items. -/
lemma counted_items {counts : List ℕ} (chunk : DictionaryEncodedChunk type)
    (h : chunk.indexBatches.flatten.foldlM incrementCount (List.replicate chunk.dictionary.length 0) = .ok counts) :
    CountsTo { s with dictionaryBuffer := some chunk.dictionary, countBuffer := counts }
      (itemsOf chunk.toColumnChunk : Multiset Item) := by
  have hexpand := counted_expand (decodes_items chunk) h
  rw [expand_replicate_zero, zero_add] at hexpand
  rw [← hexpand]
  refine countsTo_expand rfl ?_
  rw [counted_length h, List.length_replicate]

lemma counted_chunk_iff (chunk : DictionaryEncodedChunk type) :
    (∃ counts, chunk.indexBatches.flatten.foldlM incrementCount (List.replicate chunk.dictionary.length 0) =
      .ok counts) ↔ ∀ i, chunk.indexBatches.flatten.count i < 2 ^ 31 := by
  have hlt : ∀ i ∈ chunk.indexBatches.flatten, i < (List.replicate chunk.dictionary.length 0).length := by
    rw [List.length_replicate]
    exact chunk.decodes.lt
  rw [counted_iff hlt]
  constructor
  · intro h i
    by_cases hi : i ∈ chunk.indexBatches.flatten
    · have hcount := h i hi
      omega
    · rw [List.count_eq_zero_of_not_mem hi]
      decide
  · intro h i hi
    have hlength := chunk.decodes.lt i hi
    rw [List.getD_eq_getElem?_getD, List.getElem?_replicate, if_pos hlength, Option.getD_some, zero_add]
    exact h i

lemma readPages_exposed (h : chunk.exposedEncoding = .dictionary) :
    readPages settings s chunk.toColumnChunk = (do
      let s ← chunk.indexBatches.foldlM (readIndexBatch settings chunk.toColumnChunk) { s with countBuffer := [] }
      if settings.usePrecalculationOptimization then appendCounts settings s
      else if settings.evaluateFrequentItems then materializeFrequentItems s
      else return s) := by
  rw [readPages, h]
  rfl

lemma readPages_counting (hprecalculation : settings.usePrecalculationOptimization = true)
    (hs : s.frequentItemsSketchDictionary = 0) (hreads : readsPages settings = true)
    (hcondition : allDataPagesAreEncodedWithDictionary chunk.toColumnChunk = true)
    (h : ReadableIndices settings s.dictionaryBuffer chunk.toColumnChunk) :
    ∃ s', readPages settings s chunk.toColumnChunk = .ok s' ∧ s'.distinct = s.distinct ∧
      ReadAsIndices settings chunk.toColumnChunk s s' := by
  rw [readPages_exposed (h.exposed hreads)]
  by_cases hbatches : chunk.indexBatches = []
  · have hitems : itemsOf chunk.toColumnChunk = [] := itemsOf_eq_nil hbatches
    have hbuffer : nextBuffer settings s.dictionaryBuffer chunk.toColumnChunk = s.dictionaryBuffer := by
      simp [nextBuffer, hbatches]
    rw [hbatches, List.foldlM_nil, pure_bind, if_pos hprecalculation]
    by_cases hfed : settings.evaluateFrequentItems = true ∨ settings.evaluateQuantiles = true
    · have hempty : s.dictionaryBuffer = some [] := h.buffered hprecalculation hfed hbatches
      have hcounts : CountsTo { s with countBuffer := [] } (expand (([] : List (Traits.PhysicalType type)).map
          (item type)) []) := countsTo_expand hempty rfl
      refine ⟨_, appendCounts_of_countsTo hcounts, rfl, ?_, ?_, hs, hbuffer.symm⟩
      · simp [fedWith, hitems]
      · simp [fedWith, hitems, hprecalculation]
    · simp only [not_or, Bool.not_eq_true] at hfed
      refine ⟨_, appendCounts_idle hfed.1 hfed.2, rfl, ?_, ?_, hs, hbuffer.symm⟩
      · simp [fedWith, hitems]
      · simp [fedWith, hitems]
  · obtain ⟨counts, hcounts⟩ := (counted_chunk_iff chunk).mpr (h.counted hprecalculation hreads)
    rw [indexBatches_counted hprecalculation hbatches, hcounts, ok_bind, ok_bind, if_pos hprecalculation]
    refine ⟨_, appendCounts_of_countsTo (counted_items chunk hcounts), rfl, rfl, ?_, hs, ?_⟩
    · simp [fedWith, hprecalculation]
    · simp [nextBuffer, hbatches, hreads, hcondition]

lemma readPages_collecting (hprecalculation : settings.usePrecalculationOptimization = false)
    (hs : s.frequentItemsSketchDictionary = 0) (hreads : readsPages settings = true)
    (hcondition : allDataPagesAreEncodedWithDictionary chunk.toColumnChunk = true)
    (hexposed : chunk.exposedEncoding = .dictionary) :
    ∃ s', readPages settings s chunk.toColumnChunk = .ok s' ∧ s'.distinct = s.distinct ∧
      ReadAsIndices settings chunk.toColumnChunk s s' := by
  have hprecalculation' : ¬settings.usePrecalculationOptimization = true := by simp [hprecalculation]
  have hbuffer : (if chunk.indexBatches = [] then s.dictionaryBuffer else some chunk.dictionary) =
      nextBuffer settings s.dictionaryBuffer chunk.toColumnChunk := by
    by_cases hbatches : chunk.indexBatches = []
    · simp [nextBuffer, hbatches]
    · simp [nextBuffer, hbatches, hreads, hcondition]
  rw [readPages_exposed hexposed, indexBatches_collected hprecalculation, ok_bind, if_neg hprecalculation']
  by_cases hf : settings.evaluateFrequentItems
  · have hmaterialized : fromDictionary (chunk.indexBatches.flatten : Multiset ℕ)
        (if chunk.indexBatches = [] then s.dictionaryBuffer else some chunk.dictionary) =
        .ok (itemsOf chunk.toColumnChunk : Multiset Item) := by
      by_cases hbatches : chunk.indexBatches = []
      · rw [itemsOf_eq_nil hbatches, hbatches]
        exact fromDictionary_zero _
      · rw [if_neg hbatches]
        exact fromDictionary_decodes (decodes_items chunk)
    rw [if_pos hf]
    simp only [materializeFrequentItems, withIndices, hf, if_true, hs, zero_add, hmaterialized, ok_bind]
    refine ⟨_, rfl, rfl, ?_, ?_, rfl, hbuffer⟩
    · simp [fedWith, hf]
    · simp [hprecalculation]
  · rw [if_neg hf]
    refine ⟨_, rfl, rfl, ?_, ?_, ?_, hbuffer⟩
    · simp [fedWith, withIndices, hf]
    · simp [withIndices, hprecalculation]
    · simp [withIndices, hf, hs]

lemma readPages_readable (hs : s.frequentItemsSketchDictionary = 0) (hreads : readsPages settings = true)
    (hcondition : allDataPagesAreEncodedWithDictionary chunk.toColumnChunk = true)
    (h : ReadableIndices settings s.dictionaryBuffer chunk.toColumnChunk) :
    ∃ s', readPages settings s chunk.toColumnChunk = .ok s' ∧ s'.distinct = s.distinct ∧
      ReadAsIndices settings chunk.toColumnChunk s s' := by
  cases hp : settings.usePrecalculationOptimization with
  | true => exact readPages_counting hp hs hreads hcondition h
  | false => exact readPages_collecting hp hs hreads hcondition (h.exposed hreads)

lemma readable_of_readPages (h : readPages settings s chunk.toColumnChunk = .ok s') :
    ReadableIndices settings s.dictionaryBuffer chunk.toColumnChunk := by
  have hexposed : chunk.exposedEncoding = .dictionary := by
    rw [readPages] at h
    obtain ⟨_, hrequired, -⟩ := bind_eq_ok_iff.mp h
    cases hencoding : chunk.exposedEncoding with
    | dictionary => rfl
    | noEncoding =>
      rw [hencoding] at hrequired
      cases hrequired
  rw [readPages_exposed hexposed] at h
  refine ⟨fun _ => hexposed, fun hprecalculation _ => ?_, fun hprecalculation hfed hbatches => ?_⟩
  · by_cases hbatches : chunk.indexBatches = []
    · simp [hbatches]
    · rw [indexBatches_counted hprecalculation hbatches, bind_assoc] at h
      obtain ⟨counts, hcounts, -⟩ := bind_eq_ok_iff.mp h
      exact (counted_chunk_iff chunk).mp ⟨counts, hcounts⟩
  · by_contra hbuffer
    have hundefined := appendCounts_undefined (s := { s with countBuffer := [] }) rfl hbuffer hfed
    rw [hbatches, List.foldlM_nil, pure_bind, if_pos hprecalculation, hundefined] at h
    cases h

/-! ### Chunks in two ways -/

def withDictionary (settings : Settings) (enabled : Bool) : Settings :=
  { settings with useDictionaryOptimization := enabled }

lemma analyzeColumn_values {chunk : ColumnChunk type}
    (h : (settings.useDictionaryOptimization && allDataPagesAreEncodedWithDictionary chunk) = false) :
    analyzeColumn settings s chunk = .ok (fedWith settings s (itemsOf chunk)) := by
  rw [analyzeColumn, h, if_neg Bool.false_ne_true, valueBatches_fed]

/-- The dictionary page feeds the distinct counter with the values of the chunk. -/
lemma evaluateStats_dictionary (hcondition : allDataPagesAreEncodedWithDictionary chunk.toColumnChunk = true) :
    evaluateStatsFromDictionaryPage chunk.toColumnChunk s =
      .ok (true, { s with distinct := s.distinct ∪ (itemsOf chunk.toColumnChunk).toFinset }) := by
  have hpage : chunk.hasDictionaryPage = true := (Bool.and_eq_true_iff.mp hcondition).1
  obtain ⟨page, hfirst, htype, hencoding⟩ := chunk.firstPage_dictionary hpage
  have hplain : (page.encoding == .plain || page.encoding == .plainDictionary) = true := by
    rcases hencoding with h | h
    · simp [h]
    · simp [h]
  simp only [evaluateStatsFromDictionaryPage, hcondition, hfirst, htype, hplain, appendValues_insert,
    dictionary_toFinset, ok_bind]
  rfl

lemma analyzeIndices_eq (hcondition : allDataPagesAreEncodedWithDictionary chunk.toColumnChunk = true) :
    analyzeIndices settings s chunk.toColumnChunk =
      let s := { s with distinct := (fedWith settings s (itemsOf chunk.toColumnChunk)).distinct }
      if readsPages settings then readPages settings s chunk.toColumnChunk else .ok s := by
  have hearly : (!settings.evaluateFrequentItems && !settings.evaluateQuantiles && !settings.readAllData) =
      !readsPages settings := by
    simp [readsPages]
  rw [analyzeIndices, evaluateStats_dictionary hcondition, hearly]
  cases hd : settings.evaluateDistinct with
  | true =>
    have hrequired (message : String) : require true message = .ok () := rfl
    simp only [if_true, ok_bind, hrequired, fedWith, hd]
    cases readsPages settings with
    | true => rfl
    | false => rfl
  | false =>
    simp only [Bool.false_eq_true, if_false, ok_bind, fedWith, hd]
    cases readsPages settings with
    | true => rfl
    | false => rfl

/-- A state of the analyzer that uses dictionaries, beside one of the analyzer that does not: the quantile sketch has
lost some items. -/
structure Simulates (lost : Multiset Item) (on off : ColumnState type) : Prop where
  distinct : on.distinct = off.distinct
  frequent : on.frequentItemsSketch = off.frequentItemsSketch
  quantile : on.quantileSketch + lost = off.quantileSketch
  indexSketch : on.frequentItemsSketchDictionary = 0

/-- The items of a chunk that no branch gives to the quantile sketch. -/
def lostItems (settings : Settings) (chunk : ColumnChunk type) : Multiset Item :=
  if allDataPagesAreEncodedWithDictionary chunk && settings.evaluateQuantiles &&
      !settings.usePrecalculationOptimization then itemsOf chunk
  else 0

variable {lost : Multiset Item} {on on' off : ColumnState type}

lemma fedWith_simulates (settings : Settings) (h : Simulates lost on off) (items : List Item) :
    Simulates lost (fedWith settings on items) (fedWith settings off items) := by
  refine ⟨?_, ?_, ?_, h.indexSketch⟩
  · simp only [fedWith, h.distinct]
  · simp only [fedWith, h.frequent]
  · simp only [fedWith, ← h.quantile]
    split
    · rw [add_right_comm]
    · rfl

/-- A chunk that is read as indices keeps the simulation, up to what the quantile sketch loses. -/
lemma readAsIndices_simulates (h : Simulates lost on off)
    (hcondition : allDataPagesAreEncodedWithDictionary chunk.toColumnChunk = true)
    (hdistinct : on'.distinct = (fedWith settings on (itemsOf chunk.toColumnChunk)).distinct)
    (hread : ReadAsIndices settings chunk.toColumnChunk on on') :
    Simulates (lost + lostItems settings chunk.toColumnChunk) on'
      (fedWith settings off (itemsOf chunk.toColumnChunk)) := by
  have hfed := fedWith_simulates settings h (itemsOf chunk.toColumnChunk)
  refine ⟨hdistinct.trans hfed.distinct, hread.frequent.trans hfed.frequent, ?_, hread.indexSketch⟩
  rw [hread.quantile, lostItems, hcondition]
  cases hp : settings.usePrecalculationOptimization with
  | true =>
    simp only [if_true, Bool.not_true, Bool.and_false, Bool.false_eq_true, if_false, add_zero]
    exact hfed.quantile
  | false =>
    cases hq : settings.evaluateQuantiles with
    | true => simp [fedWith, hq, ← h.quantile, add_assoc]
    | false => simp [fedWith, hq, h.quantile]

lemma analyzeColumn_simulates (huse : settings.useDictionaryOptimization = true) (h : Simulates lost on off)
    (hreadable : allDataPagesAreEncodedWithDictionary chunk.toColumnChunk = true →
      ReadableIndices settings on.dictionaryBuffer chunk.toColumnChunk) :
    ∃ on', analyzeColumn settings on chunk.toColumnChunk = .ok on' ∧
      on'.dictionaryBuffer = nextBuffer settings on.dictionaryBuffer chunk.toColumnChunk ∧
      Simulates (lost + lostItems settings chunk.toColumnChunk) on'
        (fedWith settings off (itemsOf chunk.toColumnChunk)) := by
  cases hcondition : allDataPagesAreEncodedWithDictionary chunk.toColumnChunk with
  | false =>
    refine ⟨fedWith settings on (itemsOf chunk.toColumnChunk), ?_, ?_, ?_⟩
    · exact analyzeColumn_values (by rw [hcondition, Bool.and_false])
    · simp [fedWith, nextBuffer, hcondition]
    · simpa [lostItems, hcondition] using fedWith_simulates settings h (itemsOf chunk.toColumnChunk)
  | true =>
    rw [analyzeColumn, huse, hcondition, Bool.and_true, if_pos rfl, analyzeIndices_eq hcondition]
    cases hreads : readsPages settings with
    | false =>
      have hidle : settings.evaluateFrequentItems = false ∧ settings.evaluateQuantiles = false := by
        simp only [readsPages, Bool.or_eq_false_iff] at hreads
        exact hreads.1
      have hbuffer : nextBuffer settings on.dictionaryBuffer chunk.toColumnChunk = on.dictionaryBuffer := by
        simp [nextBuffer, hreads]
      refine ⟨_, rfl, hbuffer.symm, readAsIndices_simulates h hcondition rfl
        ⟨?_, ?_, h.indexSketch, hbuffer.symm⟩⟩
      · simp [fedWith, hidle.1]
      · simp [fedWith, hidle.2]
    | true =>
      obtain ⟨on', hok, hdistinct, hread⟩ := readPages_readable
        (s := { on with distinct := (fedWith settings on (itemsOf chunk.toColumnChunk)).distinct })
        h.indexSketch hreads hcondition (hreadable hcondition)
      refine ⟨on', hok, hread.buffer, readAsIndices_simulates h hcondition hdistinct ?_⟩
      exact ⟨hread.frequent, hread.quantile, hread.indexSketch, hread.buffer⟩

lemma readable_of_analyzeColumn (huse : settings.useDictionaryOptimization = true)
    (hcondition : allDataPagesAreEncodedWithDictionary chunk.toColumnChunk = true)
    (h : analyzeColumn settings s chunk.toColumnChunk = .ok s') :
    ReadableIndices settings s.dictionaryBuffer chunk.toColumnChunk := by
  rw [analyzeColumn, huse, hcondition, Bool.and_true, if_pos rfl, analyzeIndices_eq hcondition] at h
  cases hreads : readsPages settings with
  | true =>
    rw [hreads] at h
    exact readable_of_readPages
      (s := { s with distinct := (fedWith settings s (itemsOf chunk.toColumnChunk)).distinct }) h
  | false =>
    refine ⟨?_, ?_, fun _ hfed => ?_⟩
    · simp [hreads]
    · simp [hreads]
    · rcases hfed with hfed | hfed
      · simp [readsPages, hfed] at hreads
      · simp [readsPages, hfed] at hreads

/-- Every chunk of a column that takes the branch for dictionaries can be read there. -/
def AllReadable (settings : Settings) (buffer : Option (List (Traits.PhysicalType type)))
    (chunks : List (DictionaryEncodedChunk type)) : Prop :=
  ∀ before chunk after, chunks = before ++ chunk :: after →
    allDataPagesAreEncodedWithDictionary chunk.toColumnChunk = true →
    ReadableIndices settings (before.foldl (fun buffer chunk => nextBuffer settings buffer chunk.toColumnChunk) buffer)
      chunk.toColumnChunk

variable {chunks : List (DictionaryEncodedChunk type)}

lemma allReadable_cons_iff {buffer : Option (List (Traits.PhysicalType type))} :
    AllReadable settings buffer (chunk :: chunks) ↔
      (allDataPagesAreEncodedWithDictionary chunk.toColumnChunk = true →
        ReadableIndices settings buffer chunk.toColumnChunk) ∧
      AllReadable settings (nextBuffer settings buffer chunk.toColumnChunk) chunks :=
  forall_split_cons_iff
    (f := fun buffer (chunk : DictionaryEncodedChunk type) => nextBuffer settings buffer chunk.toColumnChunk)
    (P := fun buffer chunk => allDataPagesAreEncodedWithDictionary chunk.toColumnChunk = true →
      ReadableIndices settings buffer chunk.toColumnChunk)

lemma allReadable_withDictionary {enabled : Bool} {buffer : Option (List (Traits.PhysicalType type))} :
    AllReadable (withDictionary settings enabled) buffer chunks ↔ AllReadable settings buffer chunks := by
  constructor
  · intro h before chunk after heq hcondition
    have hreadable := h before chunk after heq hcondition
    exact ⟨hreadable.exposed, hreadable.counted, hreadable.buffered⟩
  · intro h before chunk after heq hcondition
    have hreadable := h before chunk after heq hcondition
    exact ⟨hreadable.exposed, hreadable.counted, hreadable.buffered⟩

lemma run_simulates (settings : Settings) (huse : settings.useDictionaryOptimization = true)
    (h : Simulates lost on off)
    (hreadable : AllReadable settings on.dictionaryBuffer chunks) :
    ∃ on', chunks.foldlM (fun s chunk => analyzeColumn settings s chunk.toColumnChunk) on = .ok on' ∧
      Simulates (lost + (chunks.map fun chunk => lostItems settings chunk.toColumnChunk).sum) on'
        (chunks.foldl (fun s chunk => fedWith settings s (itemsOf chunk.toColumnChunk)) off) := by
  induction chunks generalizing lost on off with
  | nil => exact ⟨on, rfl, by simpa using h⟩
  | cons chunk chunks ih =>
    obtain ⟨hfirst, hrest⟩ := allReadable_cons_iff.mp hreadable
    obtain ⟨on₁, hok, hbuffer, hsimulates⟩ := analyzeColumn_simulates huse h hfirst
    rw [← hbuffer] at hrest
    obtain ⟨on', hrun, hfinal⟩ := ih hsimulates hrest
    refine ⟨on', ?_, ?_⟩
    · rw [List.foldlM_cons, hok, ok_bind, hrun]
    · rw [List.map_cons, List.sum_cons, ← add_assoc]
      exact hfinal

lemma allReadable_of_run (settings : Settings) (huse : settings.useDictionaryOptimization = true)
    (h : Simulates lost on off)
    (hrun : chunks.foldlM (fun s chunk => analyzeColumn settings s chunk.toColumnChunk) on = .ok on') :
    AllReadable settings on.dictionaryBuffer chunks := by
  induction chunks generalizing lost on off with
  | nil =>
    intro before chunk after heq
    simp at heq
  | cons chunk chunks ih =>
    rw [List.foldlM_cons] at hrun
    obtain ⟨on₁, hok, hrest⟩ := bind_eq_ok_iff.mp hrun
    have hfirst (hcondition : allDataPagesAreEncodedWithDictionary chunk.toColumnChunk = true) :=
      readable_of_analyzeColumn huse hcondition hok
    obtain ⟨on₂, hok₂, hbuffer, hsimulates⟩ := analyzeColumn_simulates huse h hfirst
    obtain rfl : on₁ = on₂ := Except.ok.inj (hok.symm.trans hok₂)
    refine allReadable_cons_iff.mpr ⟨hfirst, ?_⟩
    rw [← hbuffer]
    exact ih hsimulates hrest

lemma run_values (settings : Settings) (huse : settings.useDictionaryOptimization = false) (s : ColumnState type)
    (chunks : List (DictionaryEncodedChunk type)) :
    chunks.foldlM (fun s chunk => analyzeColumn settings s chunk.toColumnChunk) s =
      .ok (chunks.foldl (fun s chunk => fedWith settings s (itemsOf chunk.toColumnChunk)) s) := by
  induction chunks generalizing s with
  | nil => rfl
  | cons chunk chunks ih =>
    rw [List.foldlM_cons, analyzeColumn_values (by rw [huse, Bool.false_and]), ok_bind, ih]
    rfl

/-- Nothing is lost when quantiles are not evaluated, or are evaluated from counts, or have no values. -/
lemma lost_eq_zero_iff : (chunks.map fun chunk => lostItems settings chunk.toColumnChunk).sum = 0 ↔
    (settings.evaluateQuantiles = true → settings.usePrecalculationOptimization = false → ∀ chunk ∈ chunks,
      allDataPagesAreEncodedWithDictionary chunk.toColumnChunk = true → chunk.valueBatches.flatten = []) := by
  have hchunk (chunk : DictionaryEncodedChunk type) : lostItems settings chunk.toColumnChunk = 0 ↔
      (settings.evaluateQuantiles = true → settings.usePrecalculationOptimization = false →
        allDataPagesAreEncodedWithDictionary chunk.toColumnChunk = true → chunk.valueBatches.flatten = []) := by
    rw [lostItems]
    split
    · next hlost =>
      simp only [Bool.and_eq_true, Bool.not_eq_true'] at hlost
      rw [Multiset.coe_eq_zero, itemsOf, List.map_eq_nil_iff]
      exact ⟨fun h _ _ _ => h, fun h => h hlost.1.2 hlost.2 hlost.1.1⟩
    · next hlost =>
      refine iff_of_true rfl fun hq hp hcondition => absurd ?_ hlost
      simp [hq, hp, hcondition]
  rw [List.sum_eq_zero_iff]
  simp only [List.mem_map, forall_exists_index, and_imp, forall_apply_eq_imp_iff₂, hchunk]
  exact ⟨fun h hq hp chunk hmem => h chunk hmem hq hp, fun h chunk hmem hq hp => h hq hp chunk hmem⟩

/-- Both ways of analyzing the chunks of a column succeed, and they feed the sketches that are enabled with the same
items. -/
def DictionaryAgrees (settings : Settings) (chunks : List (ColumnChunk type)) : Prop :=
  ∃ on off : ColumnState type, analyze (withDictionary settings true) chunks = .ok on ∧
    analyze (withDictionary settings false) chunks = .ok off ∧
    (settings.evaluateDistinct = true → on.distinct = off.distinct) ∧
    (settings.evaluateQuantiles = true → on.quantileSketch = off.quantileSketch) ∧
    (settings.evaluateFrequentItems = true → on.frequentItemsSketch = off.frequentItemsSketch)

/-- The two ways agree when every chunk in the branch for dictionaries can be read as indices, and has no values if the
quantiles are evaluated without counting. -/
theorem dictionary_agrees_iff (settings : Settings) (chunks : List (DictionaryEncodedChunk type)) :
    DictionaryAgrees settings (chunks.map DictionaryEncodedChunk.toColumnChunk) ↔
      AllReadable settings none chunks ∧
      (settings.evaluateQuantiles = true → settings.usePrecalculationOptimization = false → ∀ chunk ∈ chunks,
        allDataPagesAreEncodedWithDictionary chunk.toColumnChunk = true → chunk.valueBatches.flatten = []) := by
  have hstart : Simulates 0 ({} : ColumnState type) {} := ⟨rfl, rfl, rfl, rfl⟩
  have hoff := run_values (withDictionary settings false) rfl {} chunks
  rw [DictionaryAgrees, analyze, analyze, List.foldlM_map, List.foldlM_map, hoff]
  constructor
  · rintro ⟨on, off, hon, hvalues, -, hquantiles, -⟩
    have hreadable := allReadable_of_run (withDictionary settings true) rfl hstart hon
    obtain ⟨on', hon', hsimulates⟩ := run_simulates (withDictionary settings true) rfl hstart hreadable
    obtain rfl : on = on' := Except.ok.inj (hon.symm.trans hon')
    refine ⟨allReadable_withDictionary.mp hreadable, fun hq => lost_eq_zero_iff.mp ?_ hq⟩
    have hquantile := hsimulates.quantile
    rw [hquantiles hq, ← Except.ok.inj hvalues, zero_add] at hquantile
    exact left_eq_add.mp hquantile.symm
  · rintro ⟨hreadable, hlost⟩
    obtain ⟨on, hon, hsimulates⟩ := run_simulates (withDictionary settings true) rfl hstart
      (allReadable_withDictionary.mpr hreadable)
    refine ⟨on, _, hon, rfl, fun _ => hsimulates.distinct, fun _ => ?_, fun _ => hsimulates.frequent⟩
    have hquantile := hsimulates.quantile
    have hnone : (chunks.map fun chunk => lostItems (withDictionary settings true) chunk.toColumnChunk).sum = 0 :=
      lost_eq_zero_iff.mpr hlost
    rw [hnone, add_zero, add_zero] at hquantile
    exact hquantile

/-- A chunk of one number. -/
def sevenChunk : DictionaryEncodedChunk .int32 where
  col := 0
  colName := "f1"
  hasDictionaryPage := true
  encodingStats := [⟨.dictionaryPage, .plain⟩, ⟨.dataPage, .rleDictionary⟩]
  firstPage := some ⟨.dictionaryPage, .plain⟩
  exposedEncoding := .dictionary
  dictionary := [(7 : Int32)]
  indexBatches := [[0]]
  valueBatches := [[(7 : Int32)]]
  firstPage_dictionary := fun _ => ⟨_, rfl, rfl, .inl rfl⟩
  decodes := rfl
  referenced := by decide

/-- The quantiles of a column are lost when its indices are not counted. -/
theorem sevenQuantiles_lost :
    ¬DictionaryAgrees { evaluateQuantiles := true } [sevenChunk.toColumnChunk] := by
  rintro ⟨on, off, hon, hoff, -, hquantiles, -⟩
  have hempty : on.quantileSketch = 0 := by
    cases hon
    rfl
  have hseven : off.quantileSketch = {.int64 7} := by
    cases hoff
    rfl
  have hequal := hquantiles rfl
  rw [hempty, hseven] at hequal
  exact absurd hequal.symm (Multiset.singleton_ne_zero _)

/-- The chunk of an empty row group. -/
def emptyChunk : DictionaryEncodedChunk .int32 where
  col := 0
  colName := "f1"
  hasDictionaryPage := true
  encodingStats := [⟨.dictionaryPage, .plain⟩]
  firstPage := some ⟨.dictionaryPage, .plain⟩
  exposedEncoding := .dictionary
  dictionary := []
  indexBatches := []
  valueBatches := []
  firstPage_dictionary := fun _ => ⟨_, rfl, rfl, .inl rfl⟩
  decodes := rfl
  referenced := by decide

-- the counts of an empty row group are looked up for the dictionary of the one before
example :
    analyze { useDictionaryOptimization := true, usePrecalculationOptimization := true, evaluateFrequentItems := true }
      [sevenChunk.toColumnChunk, emptyChunk.toColumnChunk] = .error .undefined := rfl

end IcebergCxx.Proofs

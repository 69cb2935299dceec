import IcebergCxx.Analyzer
import IcebergCxx.Lib.Histogram

/-!
# Counting the indices of a column

The values of a chunk feed the sketches as one list, however they are split into batches. The counts of its indices are
a histogram of the same values, from which the loops over the dictionary feed the sketches.
-/

namespace IcebergCxx.Proofs

open Lib Analyzer

variable {type : Analyzer.ParquetType} {settings : Settings} {s s' : ColumnState type}

/-! ### Values -/

lemma appendValues_cons (sketch : Multiset Item) (data : List (Traits.PhysicalType type)) :
    appendValues Multiset.cons sketch data = sketch + (data.map (item type) : Multiset Item) := by
  induction data generalizing sketch with
  | nil => simp [appendValues]
  | cons value data ih =>
    have hstep : appendValues Multiset.cons sketch (value :: data) =
        appendValues Multiset.cons (item type value ::ₘ sketch) data := rfl
    rw [hstep, ih, List.map_cons, ← Multiset.cons_coe, Multiset.cons_add, Multiset.add_cons]

lemma appendValues_insert (sketch : Finset Item) (data : List (Traits.PhysicalType type)) :
    appendValues insert sketch data = sketch ∪ (data.map (item type)).toFinset := by
  induction data generalizing sketch with
  | nil => simp [appendValues]
  | cons value data ih =>
    have hstep : appendValues insert sketch (value :: data) =
        appendValues insert (insert (item type value) sketch) data := rfl
    rw [hstep, ih, List.map_cons, List.toFinset_cons, Finset.insert_union, Finset.union_insert]

lemma feed_ok {temporary : Bool} {update : Multiset Item → Except Failure (Multiset Item)} {added : Multiset Item}
    (hupdate : ∀ sketch, update sketch = .ok (sketch + added)) (sketch : Multiset Item) :
    feed temporary update sketch = .ok (sketch + added) := by
  cases temporary with
  | false => exact hupdate sketch
  | true =>
    have htemp : update 0 = .ok added := by rw [hupdate, zero_add]
    simp only [feed, if_true, htemp, ok_bind]
    rfl

/-- The sketches that are enabled are fed with the items. -/
def fedWith (settings : Settings) (s : ColumnState type) (items : List Item) : ColumnState type :=
  { s with
    distinct := if settings.evaluateDistinct then s.distinct ∪ items.toFinset else s.distinct
    quantileSketch := if settings.evaluateQuantiles then s.quantileSketch + (items : Multiset Item)
      else s.quantileSketch
    frequentItemsSketch := if settings.evaluateFrequentItems then s.frequentItemsSketch + (items : Multiset Item)
      else s.frequentItemsSketch }

lemma fedWith_nil (settings : Settings) (s : ColumnState type) : fedWith settings s [] = s := by
  simp [fedWith]

lemma fedWith_append (items items' : List Item) :
    fedWith settings s (items ++ items') = fedWith settings (fedWith settings s items) items' := by
  simp only [fedWith, List.toFinset_append, ← Multiset.coe_add]
  congr 1
  · split <;> simp [Finset.union_assoc]
  · split <;> simp [add_assoc]
  · split <;> simp [add_assoc]

lemma readValueBatch_eq (data : List (Traits.PhysicalType type)) :
    readValueBatch settings s data = .ok (fedWith settings s (data.map (item type))) := by
  have hfeed (sketch : Multiset Item) : feed (type == .byteArray && settings.useStringViewHeuristic)
      (fun sketch => .ok (appendValues Multiset.cons sketch data)) sketch =
      .ok (sketch + (data.map (item type) : Multiset Item)) :=
    feed_ok (fun sketch => by rw [appendValues_cons]) sketch
  simp only [readValueBatch, hfeed, appendValues_insert, ok_bind, fedWith]
  cases settings.evaluateQuantiles with
  | true =>
    cases settings.evaluateFrequentItems with
    | true => rfl
    | false => rfl
  | false =>
    cases settings.evaluateFrequentItems with
    | true => rfl
    | false => rfl

def itemsOf (chunk : ColumnChunk type) : List Item := chunk.valueBatches.flatten.map (item type)

lemma valueBatches_fed (settings : Settings) (s : ColumnState type) (chunk : ColumnChunk type) :
    chunk.valueBatches.foldlM (readValueBatch settings) s = .ok (fedWith settings s (itemsOf chunk)) := by
  rw [itemsOf]
  induction chunk.valueBatches generalizing s with
  | nil =>
    rw [List.flatten_nil, List.map_nil, fedWith_nil]
    rfl
  | cons data batches ih =>
    rw [List.foldlM_cons, readValueBatch_eq, ok_bind, ih, List.flatten_cons, List.map_append, fedWith_append]

/-! ### Counts -/

lemma incrementCount_eq_ok_iff {counts counts' : List ℕ} {i : ℕ} :
    incrementCount counts i = .ok counts' ↔
      ∃ count, counts[i]? = some count ∧ count + 1 < 2 ^ 31 ∧ counts.set i (count + 1) = counts' := by
  rw [incrementCount]
  cases hcount : counts[i]? with
  | none => simp
  | some count =>
    by_cases hfits : count + 1 < 2 ^ 31
    · simp only [hfits, if_true, Option.some.injEq, exists_eq_left', true_and, Except.ok.injEq]
    · simp only [hfits, if_false, Option.some.injEq, exists_eq_left', false_and, reduceCtorEq]

lemma counted_length {indices counts counts' : List ℕ} (h : indices.foldlM incrementCount counts = .ok counts') :
    counts'.length = counts.length := by
  induction indices generalizing counts with
  | nil =>
    cases h
    rfl
  | cons i indices ih =>
    rw [List.foldlM_cons] at h
    obtain ⟨counts₁, hcounts₁, htail⟩ := bind_eq_ok_iff.mp h
    obtain ⟨count, -, -, rfl⟩ := incrementCount_eq_ok_iff.mp hcounts₁
    rw [ih htail, List.length_set]

/-- Indices that have been counted are in the histogram with their values. -/
lemma counted_expand {values decoded : List Item} {indices counts counts' : List ℕ}
    (hdecodes : Decodes values indices decoded) (h : indices.foldlM incrementCount counts = .ok counts') :
    expand values counts' = expand values counts + (decoded : Multiset Item) := by
  induction indices generalizing counts decoded with
  | nil =>
    obtain rfl := decodes_nil_iff.mp hdecodes
    cases h
    simp
  | cons i indices ih =>
    obtain ⟨value, rest, rfl, hvalue, hrest⟩ := decodes_cons_iff.mp hdecodes
    rw [List.foldlM_cons] at h
    obtain ⟨counts₁, hcounts₁, htail⟩ := bind_eq_ok_iff.mp h
    obtain ⟨count, hcount, -, rfl⟩ := incrementCount_eq_ok_iff.mp hcounts₁
    rw [ih hrest htail, expand_set hvalue hcount, ← Multiset.cons_coe, Multiset.cons_add, Multiset.add_cons]

/-- An index that has been counted moves from the indices that are left to the counts. -/
lemma getD_set_add_count {indices counts : List ℕ} {i : ℕ} (hi : i < counts.length) (j : ℕ) :
    (counts.set i (counts.getD i 0 + 1)).getD j 0 + indices.count j = counts.getD j 0 + (i :: indices).count j := by
  rw [List.getD_eq_getElem?_getD, List.getElem?_set, List.count_cons]
  by_cases hij : i = j
  · subst hij
    simp only [if_true, if_pos hi, Option.getD_some, beq_self_eq_true]
    omega
  · have hbeq : (i == j) = false := beq_false_of_ne hij
    simp only [if_neg hij, hbeq, Bool.false_eq_true, if_false, ← List.getD_eq_getElem?_getD, Nat.add_zero]

/-- Indices can be counted when no count leaves its 32 bits. -/
lemma counted_iff {indices counts : List ℕ} (hlt : ∀ i ∈ indices, i < counts.length) :
    (∃ counts', indices.foldlM incrementCount counts = .ok counts') ↔
      ∀ i ∈ indices, counts.getD i 0 + indices.count i < 2 ^ 31 := by
  induction indices generalizing counts with
  | nil => simp [pure, Except.pure]
  | cons i indices ih =>
    have hi : i < counts.length := hlt i List.mem_cons_self
    have hget : counts[i]? = some (counts.getD i 0) := by
      rw [List.getD_eq_getElem?_getD, List.getElem?_eq_getElem hi, Option.getD_some]
    have hrest : ∀ j ∈ indices, j < (counts.set i (counts.getD i 0 + 1)).length := by
      intro j hj
      rw [List.length_set]
      exact hlt j (List.mem_cons_of_mem _ hj)
    have hsplit : (∃ counts', (i :: indices).foldlM incrementCount counts = .ok counts') ↔
        counts.getD i 0 + 1 < 2 ^ 31 ∧
          ∃ counts', indices.foldlM incrementCount (counts.set i (counts.getD i 0 + 1)) = .ok counts' := by
      simp only [List.foldlM_cons, bind_eq_ok_iff, incrementCount_eq_ok_iff, hget, Option.some.injEq]
      constructor
      · rintro ⟨counts', _, ⟨_, rfl, hfits, rfl⟩, h⟩
        exact ⟨hfits, counts', h⟩
      · rintro ⟨hfits, counts', h⟩
        exact ⟨counts', _, ⟨_, rfl, hfits, rfl⟩, h⟩
    rw [hsplit, ih hrest]
    simp only [getD_set_add_count hi]
    constructor
    · rintro ⟨hfits, h⟩ j hj
      by_cases hmem : j ∈ indices
      · exact h j hmem
      · obtain rfl : j = i := (List.mem_cons.mp hj).resolve_right hmem
        rw [List.count_cons_self, List.count_eq_zero_of_not_mem hmem]
        exact hfits
    · intro h
      have hfirst := h i List.mem_cons_self
      rw [List.count_cons_self] at hfirst
      exact ⟨by omega, fun j hj => h j (List.mem_cons_of_mem _ hj)⟩

/-! ### Chunks -/

/-- A chunk whose pages are all encoded with its dictionary, every entry of which is referenced. -/
structure DictionaryEncodedChunk (type : Analyzer.ParquetType) extends ColumnChunk type where
  firstPage_dictionary : hasDictionaryPage = true → ∃ page, firstPage = some page ∧
    page.pageType = .dictionaryPage ∧ (page.encoding = .plain ∨ page.encoding = .plainDictionary)
  decodes : Decodes dictionary indexBatches.flatten valueBatches.flatten
  referenced : ∀ i < dictionary.length, i ∈ indexBatches.flatten

variable {chunk : DictionaryEncodedChunk type}

lemma decodes_items (chunk : DictionaryEncodedChunk type) :
    Decodes (chunk.dictionary.map (item type)) chunk.indexBatches.flatten (itemsOf chunk.toColumnChunk) :=
  chunk.decodes.map (item type)

lemma itemsOf_eq_nil (h : chunk.indexBatches = []) : itemsOf chunk.toColumnChunk = [] := by
  have hdecodes := decodes_items chunk
  rw [h, List.flatten_nil] at hdecodes
  exact decodes_nil_iff.mp hdecodes

/-- The dictionary page has the values of the chunk. -/
lemma dictionary_toFinset (chunk : DictionaryEncodedChunk type) :
    (chunk.dictionary.map (item type)).toFinset = (itemsOf chunk.toColumnChunk).toFinset := by
  have hall : ∀ i < (chunk.dictionary.map (item type)).length, i ∈ chunk.indexBatches.flatten := by
    rw [List.length_map]
    exact chunk.referenced
  ext value
  rw [List.mem_toFinset, List.mem_toFinset]
  exact (decodes_items chunk).mem_iff hall

/-- The loops over the dictionary feed a sketch with some items. -/
def CountsTo (s : ColumnState type) (items : Multiset Item) : Prop :=
  ∀ append : Item → ℕ → Multiset Item → Multiset Item,
    (∀ value count sketch, append value count sketch = sketch + Multiset.replicate count value) →
    ∀ sketch, forEachCounted s append sketch = .ok (sketch + items)

lemma appendRepeatedly_eq (value : Item) (count : ℕ) (sketch : Multiset Item) :
    appendRepeatedly value count sketch = sketch + Multiset.replicate count value := by
  rw [appendRepeatedly]
  induction count with
  | zero => simp
  | succ count ih =>
    rw [List.range_succ, List.foldl_append, ih, List.foldl_cons, List.foldl_nil, Multiset.replicate_succ,
      Multiset.add_cons]

/-- With a count for every value, the histogram is fed. -/
lemma countsTo_expand {dictionary : List (Traits.PhysicalType type)} (hbuffer : s.dictionaryBuffer = some dictionary)
    (hlength : s.countBuffer.length = dictionary.length) :
    CountsTo s (expand (dictionary.map (item type)) s.countBuffer) := by
  intro append happend sketch
  have hloop : ∀ (values : List (Traits.PhysicalType type)) (start : ℕ) (sketch : Multiset Item),
      start + values.length = s.countBuffer.length →
      (values.zipIdx start).foldlM (appendEntry s.countBuffer append) sketch =
        .ok (sketch + expand (values.map (item type)) (s.countBuffer.drop start)) := by
    intro values
    induction values with
    | nil =>
      intro start sketch _
      simp [pure, Except.pure]
    | cons value values ih =>
      intro start sketch hstart
      rw [List.length_cons] at hstart
      have hlt : start < s.countBuffer.length := by omega
      have hentry : appendEntry s.countBuffer append sketch (value, start) =
          .ok (sketch + Multiset.replicate s.countBuffer[start] (item type value)) := by
        simp only [appendEntry, List.getElem?_eq_getElem hlt, happend]
      rw [List.zipIdx_cons, List.foldlM_cons, hentry, ok_bind, ih (start + 1) _ (by omega),
        List.drop_eq_getElem_cons hlt, List.map_cons, expand_cons, add_assoc]
  rw [forEachCounted, hbuffer]
  have hall := hloop dictionary 0 sketch (by omega)
  rw [List.drop_zero] at hall
  exact hall

/-- Without counts, the loops only end for a buffer with an empty dictionary. -/
lemma forEachCounted_undefined (hcounts : s.countBuffer = []) (hbuffer : s.dictionaryBuffer ≠ some [])
    (append : Item → ℕ → Multiset Item → Multiset Item) (sketch : Multiset Item) :
    forEachCounted s append sketch = .error .undefined := by
  rw [forEachCounted]
  cases hdictionary : s.dictionaryBuffer with
  | none => rfl
  | some dictionary =>
    cases dictionary with
    | nil => exact absurd hdictionary hbuffer
    | cons value dictionary => simp [hcounts, List.zipIdx_cons, appendEntry]

lemma appendCounts_of_countsTo {items : Multiset Item} (h : CountsTo s items) :
    appendCounts settings s = .ok { s with
      frequentItemsSketch := if settings.evaluateFrequentItems then s.frequentItemsSketch + items
        else s.frequentItemsSketch
      quantileSketch := if settings.evaluateQuantiles then s.quantileSketch + items else s.quantileSketch } := by
  have hfrequent (temporary : Bool) (sketch : Multiset Item) :
      feed temporary (forEachCounted s appendWeightedValue) sketch = .ok (sketch + items) :=
    feed_ok (h appendWeightedValue fun _ _ _ => rfl) sketch
  have hquantile (temporary : Bool) (sketch : Multiset Item) :
      feed temporary (forEachCounted s appendRepeatedly) sketch = .ok (sketch + items) :=
    feed_ok (h appendRepeatedly appendRepeatedly_eq) sketch
  simp only [appendCounts, hfrequent, hquantile, ok_bind]
  cases settings.evaluateQuantiles with
  | true =>
    cases settings.evaluateFrequentItems with
    | true => rfl
    | false => rfl
  | false =>
    cases settings.evaluateFrequentItems with
    | true => rfl
    | false => rfl

lemma appendCounts_idle (hf : settings.evaluateFrequentItems = false) (hq : settings.evaluateQuantiles = false) :
    appendCounts settings s = .ok s := by
  simp only [appendCounts, hf, hq, Bool.false_eq_true, if_false, ok_bind]
  rfl

lemma feed_undefined {temporary : Bool} {update : Multiset Item → Except Failure (Multiset Item)}
    (hupdate : ∀ sketch, update sketch = .error .undefined) (sketch : Multiset Item) :
    feed temporary update sketch = .error .undefined := by
  cases temporary with
  | false => exact hupdate sketch
  | true => simp only [feed, if_true, hupdate, error_bind]

lemma appendCounts_undefined (hcounts : s.countBuffer = []) (hbuffer : s.dictionaryBuffer ≠ some [])
    (hfed : settings.evaluateFrequentItems = true ∨ settings.evaluateQuantiles = true) :
    appendCounts settings s = .error .undefined := by
  have hfeed (temporary : Bool) (append : Item → ℕ → Multiset Item → Multiset Item) (sketch : Multiset Item) :
      feed temporary (forEachCounted s append) sketch = .error .undefined :=
    feed_undefined (forEachCounted_undefined hcounts hbuffer append) sketch
  simp only [appendCounts, hfeed]
  by_cases hf : settings.evaluateFrequentItems
  · simp only [hf, if_true, error_bind]
  · have hq : settings.evaluateQuantiles = true := hfed.resolve_left hf
    simp only [hf, hq, if_true, if_false, ok_bind, error_bind, Bool.false_eq_true]

/-! ### Batches of indices -/

lemma readIndexBatch_counting (hprecalculation : settings.usePrecalculationOptimization = true)
    (chunk : ColumnChunk type) (indices : List ℕ) :
    readIndexBatch settings chunk s indices = (do
      let counts ← countIndices s.countBuffer chunk.dictionary.length indices
      .ok { s with dictionaryBuffer := some chunk.dictionary, countBuffer := counts }) := by
  simp only [readIndexBatch, hprecalculation, if_true, Bool.not_true, Bool.and_false, Bool.false_eq_true, if_false]
  rfl

lemma countIndices_of_length {counts indices : List ℕ} {n : ℕ} (h : counts.length = n) :
    countIndices counts n indices = indices.foldlM incrementCount counts := by
  rw [countIndices]
  split
  · next hzero =>
    obtain rfl := List.length_eq_zero_iff.mp hzero
    rw [← h]
    rfl
  · rfl

lemma batches_counted (hprecalculation : settings.usePrecalculationOptimization = true) (chunk : ColumnChunk type)
    {counts : List ℕ} (hlength : counts.length = chunk.dictionary.length) (batches : List (List ℕ)) :
    batches.foldlM (readIndexBatch settings chunk)
        { s with dictionaryBuffer := some chunk.dictionary, countBuffer := counts } = (do
      let counts ← batches.flatten.foldlM incrementCount counts
      .ok { s with dictionaryBuffer := some chunk.dictionary, countBuffer := counts }) := by
  induction batches generalizing counts with
  | nil => rfl
  | cons indices batches ih =>
    rw [List.foldlM_cons, readIndexBatch_counting hprecalculation, countIndices_of_length hlength, List.flatten_cons,
      List.foldlM_append]
    cases hcounts : indices.foldlM incrementCount counts with
    | error e => rfl
    | ok counts' => exact ih ((counted_length hcounts).trans hlength)

lemma indexBatches_counted (hprecalculation : settings.usePrecalculationOptimization = true)
    {chunk : ColumnChunk type} (hbatches : chunk.indexBatches ≠ []) :
    chunk.indexBatches.foldlM (readIndexBatch settings chunk) { s with countBuffer := [] } = (do
      let counts ← chunk.indexBatches.flatten.foldlM incrementCount (List.replicate chunk.dictionary.length 0)
      .ok { s with dictionaryBuffer := some chunk.dictionary, countBuffer := counts }) := by
  have hlength : (List.replicate chunk.dictionary.length 0).length = chunk.dictionary.length := List.length_replicate
  rw [← batches_counted hprecalculation chunk hlength]
  cases hb : chunk.indexBatches with
  | nil => exact absurd hb hbatches
  | cons indices batches =>
    rw [List.foldlM_cons, List.foldlM_cons, readIndexBatch_counting hprecalculation,
      readIndexBatch_counting hprecalculation, countIndices_of_length hlength]
    rfl

lemma foldl_cons_eq (sketch : Multiset ℕ) (indices : List ℕ) :
    indices.foldl (fun sketch index => index ::ₘ sketch) sketch = sketch + (indices : Multiset ℕ) := by
  induction indices generalizing sketch with
  | nil => simp
  | cons index indices ih => rw [List.foldl_cons, ih, ← Multiset.cons_coe, Multiset.cons_add, Multiset.add_cons]

/-- The sketch of indices with more indices, when it is enabled. -/
def withIndices (settings : Settings) (s : ColumnState type) (indices : List ℕ) : ColumnState type :=
  { s with frequentItemsSketchDictionary := if settings.evaluateFrequentItems then
      s.frequentItemsSketchDictionary + (indices : Multiset ℕ) else s.frequentItemsSketchDictionary }

lemma readIndexBatch_collecting (hprecalculation : settings.usePrecalculationOptimization = false)
    (chunk : ColumnChunk type) (indices : List ℕ) :
    readIndexBatch settings chunk s indices =
      .ok { withIndices settings s indices with dictionaryBuffer := some chunk.dictionary } := by
  simp only [readIndexBatch, withIndices, hprecalculation, Bool.not_false, Bool.and_true, Bool.false_eq_true,
    if_false, foldl_cons_eq]
  rfl

/-- Without counting, the batches only add their indices to the sketch of them. -/
lemma indexBatches_collected (hprecalculation : settings.usePrecalculationOptimization = false)
    (chunk : ColumnChunk type) (batches : List (List ℕ)) :
    batches.foldlM (readIndexBatch settings chunk) s = .ok { withIndices settings s batches.flatten with
      dictionaryBuffer := if batches = [] then s.dictionaryBuffer else some chunk.dictionary } := by
  induction batches generalizing s with
  | nil => simp [withIndices, pure, Except.pure]
  | cons indices batches ih =>
    rw [List.foldlM_cons, readIndexBatch_collecting hprecalculation, ok_bind, ih, if_neg (List.cons_ne_nil _ _)]
    have hbuffer : (if batches = [] then some chunk.dictionary else some chunk.dictionary) = some chunk.dictionary :=
      ite_self _
    simp only [withIndices, hbuffer, List.flatten_cons, ← Multiset.coe_add, Except.ok.injEq]
    by_cases hf : settings.evaluateFrequentItems
    · simp only [hf, if_true, add_assoc]
    · simp only [hf, if_false, Bool.false_eq_true]

end IcebergCxx.Proofs

import IcebergCxx.Lib.OrderStatistics
import IcebergCxx.Validation

/-!
# When the validation of manifests is exact

The last row group is taken to end at the file size plus the first split offset, and a file without split offsets has
no last row group. The verdict is right exactly if no such file occurs and the longer last row groups do not decide it.
-/

namespace IcebergCxx.Proofs

open Lib IcebergMetadataValidator ManifestEntryHelper

/-! ### The log -/

/-- A message that is remembered was logged. -/
def LogConsistent (log : ErrorLog) : Prop := log.errors = "" → log.was = []

lemma checkOnce_spec {log : ErrorLog} (h : LogConsistent log) (condition : Bool) (message : String)
    (hm : message ≠ "") :
    LogConsistent (log.checkOnce condition message).2 ∧
      ((log.checkOnce condition message).2.errors = "" ↔ log.errors = "" ∧ condition = true) := by
  unfold ErrorLog.checkOnce
  cases condition with
  | true => exact ⟨h, by simp⟩
  | false =>
    by_cases hwas : log.was.contains message = true
    · have hlogged : log.errors ≠ "" := by
        intro hempty
        rw [h hempty] at hwas
        simp at hwas
      simp only [hwas]
      exact ⟨h, by simp [hlogged]⟩
    · simp only [hwas]
      exact ⟨by simp [LogConsistent, hm], by simp [hm]⟩

lemma check_errors (log : ErrorLog) (condition : Bool) {message : String} (hm : message ≠ "") :
    (log.check condition message).2.errors = "" ↔ log.errors = "" ∧ condition = true := by
  cases condition <;> simp [ErrorLog.check, ErrorLog.add, hm]

lemma throwIfWasError_eq_ok_iff (log : ErrorLog) : log.throwIfWasError = .ok () ↔ log.errors = "" := by
  unfold ErrorLog.throwIfWasError ensure
  split_ifs with h
  · simpa using h
  · simpa using h

/-! ### Counts -/

/-- How many files of a kind there are. -/
def filesCount (content : FileContent) (entries : List ManifestEntry) : Nat :=
  entries.countP (fun entry => entry.dataFile.content = content)

/-- The counters after some entries. -/
def countsAfter (counts : FileCounts) (entries : List ManifestEntry) : FileCounts where
  equalityDeletesCount := counts.equalityDeletesCount + filesCount .equalityDeletes entries
  positionDeletesCount := counts.positionDeletesCount + filesCount .positionDeletes entries
  dataFilesCount := counts.dataFilesCount + filesCount .data entries
  deleteFilesCount := counts.deleteFilesCount +
    (filesCount .equalityDeletes entries + filesCount .positionDeletes entries)

/-- No counter is above the greatest `int32_t`. -/
structure CountsFit (counts : FileCounts) : Prop where
  equalityDeletes : counts.equalityDeletesCount < 2 ^ 31
  positionDeletes : counts.positionDeletesCount < 2 ^ 31
  dataFiles : counts.dataFilesCount < 2 ^ 31
  deleteFiles : counts.deleteFilesCount < 2 ^ 31

@[simp] lemma countsAfter_nil (counts : FileCounts) : countsAfter counts [] = counts := by
  simp [countsAfter, filesCount]

lemma countsAfter_cons (counts : FileCounts) (entry : ManifestEntry) (entries : List ManifestEntry) :
    countsAfter counts (entry :: entries) = countsAfter (countsAfter counts [entry]) entries := by
  simp only [countsAfter, filesCount, List.countP_cons, List.countP_nil, FileCounts.mk.injEq]
  push_cast
  omega

lemma CountsFit.of_after {counts : FileCounts} {entries : List ManifestEntry}
    (h : CountsFit (countsAfter counts entries)) : CountsFit counts := by
  obtain ⟨h1, h2, h3, h4⟩ := h
  simp only [countsAfter] at h1 h2 h3 h4
  constructor <;> omega

lemma increment_ok {count : Int} (h : count + 1 < 2 ^ 31) : increment count = .ok (count + 1) :=
  if_pos (by omega)

lemma increment_undefined {count : Int} (h : ¬count + 1 < 2 ^ 31) : increment count = .error .undefined :=
  if_neg (by omega)

section
variable {counts : FileCounts} {entry : ManifestEntry}

lemma countFile_data (h : entry.dataFile.content = .data) :
    countFile counts entry = increment counts.dataFilesCount >>= fun count =>
      .ok { counts with dataFilesCount := count } := by
  unfold countFile isEqualityDeletes isPositionDeletes ManifestEntryHelper.isData
  simp only [h]
  rfl

lemma countFile_equalityDeletes (h : entry.dataFile.content = .equalityDeletes) :
    countFile counts entry = increment counts.equalityDeletesCount >>= fun count =>
      increment counts.deleteFilesCount >>= fun deleteFiles =>
      .ok { counts with equalityDeletesCount := count, deleteFilesCount := deleteFiles } := by
  unfold countFile isEqualityDeletes isPositionDeletes ManifestEntryHelper.isData
  simp only [h]
  rfl

lemma countFile_positionDeletes (h : entry.dataFile.content = .positionDeletes) :
    countFile counts entry = increment counts.positionDeletesCount >>= fun count =>
      increment counts.deleteFilesCount >>= fun deleteFiles =>
      .ok { counts with positionDeletesCount := count, deleteFilesCount := deleteFiles } := by
  unfold countFile isEqualityDeletes isPositionDeletes ManifestEntryHelper.isData
  simp only [h]
  rfl

lemma countFile_ok (h : CountsFit (countsAfter counts [entry])) :
    countFile counts entry = .ok (countsAfter counts [entry]) := by
  obtain ⟨h1, h2, h3, h4⟩ := h
  simp only [countsAfter, filesCount, List.countP_singleton] at h1 h2 h3 h4 ⊢
  rcases hcontent : entry.dataFile.content with _ | _ | _
  · rw [countFile_data hcontent, increment_ok (by simpa [hcontent] using h3)]
    simp [bind, Except.bind]
  · rw [countFile_positionDeletes hcontent, increment_ok (by simpa [hcontent] using h2),
      increment_ok (by simpa [hcontent] using h4)]
    simp [bind, Except.bind]
  · rw [countFile_equalityDeletes hcontent, increment_ok (by simpa [hcontent] using h1),
      increment_ok (by simpa [hcontent] using h4)]
    simp [bind, Except.bind]

lemma countFile_undefined (hcounts : CountsFit counts) (h : ¬CountsFit (countsAfter counts [entry])) :
    countFile counts entry = .error .undefined := by
  obtain ⟨h1, h2, h3, h4⟩ := hcounts
  rcases hcontent : entry.dataFile.content with _ | _ | _
  · have hover : ¬counts.dataFilesCount + 1 < 2 ^ 31 := by
      intro hlt
      refine h ⟨?_, ?_, ?_, ?_⟩ <;> simp [countsAfter, filesCount, hcontent] <;> omega
    rw [countFile_data hcontent, increment_undefined hover]
    rfl
  · rw [countFile_positionDeletes hcontent]
    by_cases hfirst : counts.positionDeletesCount + 1 < 2 ^ 31
    · have hover : ¬counts.deleteFilesCount + 1 < 2 ^ 31 := by
        intro hlt
        refine h ⟨?_, ?_, ?_, ?_⟩ <;> simp [countsAfter, filesCount, hcontent] <;> omega
      rw [increment_ok hfirst, increment_undefined hover]
      rfl
    · rw [increment_undefined hfirst]
      rfl
  · rw [countFile_equalityDeletes hcontent]
    by_cases hfirst : counts.equalityDeletesCount + 1 < 2 ^ 31
    · have hover : ¬counts.deleteFilesCount + 1 < 2 ^ 31 := by
        intro hlt
        refine h ⟨?_, ?_, ?_, ?_⟩ <;> simp [countsAfter, filesCount, hcontent] <;> omega
      rw [increment_ok hfirst, increment_undefined hover]
      rfl
    · rw [increment_undefined hfirst]
      rfl

end

/-! ### The sizes of row groups -/

/-- The distance of every split offset to the next one or to the end of the file. -/
def distances (dataFile : ContentFile) : List Int :=
  List.zipWith (fun offset next => next - offset) dataFile.splitOffsets
    (dataFile.splitOffsets.tail ++ [dataFile.fileSizeInBytes])

/-- Split offsets that do not decrease, within the file. -/
structure OffsetsValid (dataFile : ContentFile) : Prop where
  increasing : dataFile.splitOffsets.Pairwise (· ≤ ·)
  inFile : ∀ offset ∈ dataFile.splitOffsets, 0 ≤ offset ∧ offset ≤ dataFile.fileSizeInBytes
  size : dataFile.fileSizeInBytes < 2 ^ 63

/-- The distances between the split offsets. -/
def gaps (splitOffsets : List Int) : List Int :=
  List.zipWith (fun offset next => next - offset) splitOffsets splitOffsets.tail

def firstSplitOffset (dataFile : ContentFile) : Int := dataFile.splitOffsets.headD 0

/-- The distance of the last split offset to the end of the file. -/
def lastDistance (dataFile : ContentFile) : Int := dataFile.fileSizeInBytes - dataFile.splitOffsets.getLastD 0

lemma distances_eq {dataFile : ContentFile} (h : dataFile.splitOffsets ≠ []) :
    distances dataFile = gaps dataFile.splitOffsets ++ [lastDistance dataFile] := by
  unfold distances gaps lastDistance
  generalize dataFile.splitOffsets = offsets at h
  induction offsets with
  | nil => exact absurd rfl h
  | cons offset offsets ih =>
    cases offsets with
    | nil => rfl
    | cons next offsets => simpa using ih (List.cons_ne_nil _ _)

lemma subtract_ok {a b : Int} (h : -2 ^ 63 ≤ a - b) (h' : a - b < 2 ^ 63) : subtract a b = .ok (a - b) := if_pos ⟨h, h'⟩

/-- The loop over the split offsets. -/
lemma mapM_subtract {bound : Int} (hbound : bound < 2 ^ 63) {offsets : List Int}
    (h : ∀ o ∈ offsets, 0 ≤ o ∧ o ≤ bound) :
    (offsets.zip offsets.tail).mapM (fun pair => subtract pair.2 pair.1) = .ok (gaps offsets) := by
  induction offsets with
  | nil => rfl
  | cons offset offsets ih =>
    cases offsets with
    | nil => rfl
    | cons next offsets =>
      have h1 := h offset List.mem_cons_self
      have h2 := h next (List.mem_cons_of_mem _ List.mem_cons_self)
      have hrest := ih (fun o ho => h o (List.mem_cons_of_mem _ ho))
      rw [List.tail_cons] at hrest ⊢
      rw [List.zip_cons_cons, List.mapM_cons, subtract_ok (by omega) (by omega), hrest]
      rfl

/-- The last row group is longer by the first offset than it should be. -/
lemma rowGroupSizes_ok {dataFile : ContentFile} (h : OffsetsValid dataFile) (hne : dataFile.splitOffsets ≠ []) :
    rowGroupSizes dataFile =
      .ok (gaps dataFile.splitOffsets ++ [lastDistance dataFile + firstSplitOffset dataFile]) := by
  obtain ⟨hsorted, hfile, hsize⟩ := h
  rw [rowGroupSizes, mapM_subtract hsize hfile]
  unfold lastDistance firstSplitOffset
  generalize dataFile.splitOffsets = offsets at hne hsorted hfile
  cases offsets with
  | nil => exact absurd rfl hne
  | cons first rest =>
    have hlast : back (first :: rest) = .ok ((first :: rest).getLastD 0) := by
      rw [back, List.getLast?_eq_getLast_of_ne_nil hne, List.getLastD_eq_getLast?,
        List.getLast?_eq_getLast_of_ne_nil hne]
      rfl
    have hmem : (first :: rest).getLastD 0 ∈ first :: rest := by
      rw [List.getLastD_eq_getLast?, List.getLast?_eq_getLast_of_ne_nil hne]
      exact List.getLast_mem hne
    have hfirst := hfile first List.mem_cons_self
    have hbounds := hfile _ hmem
    have hle : first ≤ (first :: rest).getLastD 0 := by
      rcases List.mem_cons.mp hmem with heq | hrest
      · exact heq.ge
      · exact (List.pairwise_cons.mp hsorted).1 _ hrest
    have hspan : subtract ((first :: rest).getLastD 0) first = .ok ((first :: rest).getLastD 0 - first) :=
      subtract_ok (by omega) (by omega)
    have hrest : subtract dataFile.fileSizeInBytes ((first :: rest).getLastD 0 - first) =
        .ok (dataFile.fileSizeInBytes - ((first :: rest).getLastD 0 - first)) := subtract_ok (by omega) (by omega)
    have hhead : elementAt (first :: rest) 0 = .ok first := rfl
    rw [hlast, hhead]
    simp only [bind, Except.bind, hspan, hrest, List.headD_cons]
    rw [sub_sub_eq_add_sub, sub_add_eq_add_sub]

lemma rowGroupSizes_undefined {dataFile : ContentFile} (h : dataFile.splitOffsets = []) :
    rowGroupSizes dataFile = .error .undefined := by
  rw [rowGroupSizes, h]
  rfl

/-- How many row groups are shorter than the bound. -/
def shorterThan (dataFile : ContentFile) (bound : Int) : Nat := (distances dataFile).countP (· < bound)

/-- Whether the first offset, added to the size of the last row group, takes it across the bound. -/
def carriedOver (dataFile : ContentFile) (bound : Int) : Nat :=
  if lastDistance dataFile < bound ∧ bound ≤ lastDistance dataFile + firstSplitOffset dataFile then 1 else 0

lemma countP_sizes {dataFile : ContentFile} (hne : dataFile.splitOffsets ≠ []) (hfirst : 0 ≤ firstSplitOffset dataFile)
    (bound : Int) :
    (gaps dataFile.splitOffsets ++ [lastDistance dataFile + firstSplitOffset dataFile]).countP (· < bound) +
      carriedOver dataFile bound = shorterThan dataFile bound := by
  rw [shorterThan, distances_eq hne, List.countP_append, List.countP_append, List.countP_singleton,
    List.countP_singleton, carriedOver]
  simp only [decide_eq_true_eq]
  split_ifs <;> omega

/-! ### The checks of a file -/

/-- The rank of a percentile among so many row groups. -/
def percentileRank (percentile : Int) (numRowGroups : Nat) : Nat := percentile.toNat * (numRowGroups - 1) / 100

lemma percentileIndex_le {percentile : Int} (h : 0 ≤ percentile) (h' : percentile ≤ 100) (numRowGroups : Nat) :
    percentileIndex percentile numRowGroups ≤ percentileRank percentile numRowGroups := by
  have hsize : toSizeT percentile = percentile.toNat := by
    rw [toSizeT, Int.emod_eq_of_lt h (by omega)]
  rw [percentileIndex, percentileRank, hsize]
  exact Nat.div_le_div_right (Nat.mod_le _ _)

lemma percentileRank_lt {percentile : Int} (h' : percentile ≤ 100) {numRowGroups : Nat} (hn : 0 < numRowGroups) :
    percentileRank percentile numRowGroups < numRowGroups := by
  have hle : percentile.toNat * (numRowGroups - 1) ≤ 100 * (numRowGroups - 1) :=
    Nat.mul_le_mul_right _ (by omega)
  rw [percentileRank]
  omega

/-- Non-negative limits and percentiles up to 100. -/
structure RestrictionsValid (restrictions : RestrictionsManifests) : Prop where
  rowGroups : 0 ≤ restrictions.maxRowGroupsPerFile ∧ restrictions.maxRowGroupsPerFile < 2 ^ 31
  minPercentile : 0 ≤ restrictions.minRowGroupSizePercentile ∧ restrictions.minRowGroupSizePercentile ≤ 100
  maxPercentile : 0 ≤ restrictions.maxRowGroupSizePercentile ∧ restrictions.maxRowGroupSizePercentile ≤ 100

/-- The checks of a file with split offsets pass. -/
structure FilePasses (restrictions : RestrictionsManifests) (dataFile : ContentFile) : Prop where
  format : dataFile.fileFormat = bytes "PARQUET"
  rowGroups : (dataFile.splitOffsets.length : Int) ≤ restrictions.maxRowGroupsPerFile
  notSmall : shorterThan dataFile restrictions.minRowGroupSizeBytes ≤
    percentileIndex restrictions.minRowGroupSizePercentile dataFile.splitOffsets.length +
      carriedOver dataFile restrictions.minRowGroupSizeBytes
  notBig : percentileIndex restrictions.maxRowGroupSizePercentile dataFile.splitOffsets.length +
      carriedOver dataFile (restrictions.maxRowGroupSizeBytes + 1) <
    shorterThan dataFile (restrictions.maxRowGroupSizeBytes + 1)

variable {restrictions : RestrictionsManifests} {dataFile : ContentFile}

lemma length_sizes (hne : dataFile.splitOffsets ≠ []) (x : Int) :
    (gaps dataFile.splitOffsets ++ [x]).length = dataFile.splitOffsets.length := by
  have := List.length_pos_of_ne_nil hne
  rw [gaps, List.length_append, List.length_zipWith, List.length_tail, List.length_singleton]
  omega

/-- The element that is compared with a bound, and on which side of it it is. -/
lemma elementAt_percentile (hne : dataFile.splitOffsets ≠ []) (hfirst : 0 ≤ firstSplitOffset dataFile)
    {percentile : Int} (h : 0 ≤ percentile) (h' : percentile ≤ 100) :
    ∃ size, elementAt
        ((gaps dataFile.splitOffsets ++ [lastDistance dataFile + firstSplitOffset dataFile]).insertionSort (· ≤ ·))
        (percentileIndex percentile dataFile.splitOffsets.length) = .ok size ∧
      ∀ bound, size < bound ↔ percentileIndex percentile dataFile.splitOffsets.length + carriedOver dataFile bound <
        shorterThan dataFile bound := by
  set sizes := gaps dataFile.splitOffsets ++ [lastDistance dataFile + firstSplitOffset dataFile] with hsizes
  have hlen : percentileIndex percentile dataFile.splitOffsets.length < (sizes.insertionSort (· ≤ ·)).length := by
    rw [List.length_insertionSort, hsizes, length_sizes hne]
    exact (percentileIndex_le h h' _).trans_lt (percentileRank_lt h' (List.length_pos_of_ne_nil hne))
  refine ⟨_, by rw [elementAt, List.getElem?_eq_getElem hlen]; rfl, fun bound => ?_⟩
  rw [getElem_insertionSort_lt_iff hlen, ← countP_sizes hne hfirst, ← hsizes]
  omega

lemma OffsetsValid.firstSplitOffset_nonneg (h : OffsetsValid dataFile) : 0 ≤ firstSplitOffset dataFile := by
  unfold firstSplitOffset
  cases hoffsets : dataFile.splitOffsets with
  | nil => exact le_rfl
  | cons first rest => exact (h.inFile first (by rw [hoffsets]; exact List.mem_cons_self)).1

lemma checkFile_ok (hr : RestrictionsValid restrictions) (h : OffsetsValid dataFile) (hne : dataFile.splitOffsets ≠ [])
    {log : ErrorLog} (hlog : LogConsistent log) :
    ∃ log', checkFile restrictions log dataFile = .ok log' ∧ LogConsistent log' ∧
      (log'.errors = "" ↔ log.errors = "" ∧ FilePasses restrictions dataFile) := by
  obtain ⟨low, hlow, hsmall⟩ := elementAt_percentile hne h.firstSplitOffset_nonneg hr.minPercentile.1 hr.minPercentile.2
  obtain ⟨high, hhigh, hbig⟩ := elementAt_percentile hne h.firstSplitOffset_nonneg hr.maxPercentile.1 hr.maxPercentile.2
  have hgroups : dataFile.splitOffsets.length ≤ toSizeT restrictions.maxRowGroupsPerFile ↔
      (dataFile.splitOffsets.length : Int) ≤ restrictions.maxRowGroupsPerFile := by
    have := hr.rowGroups
    rw [toSizeT, Int.emod_eq_of_lt (by omega) (by omega)]
    omega
  rw [checkFile, rowGroupSizes_ok h hne]
  simp only [bind, Except.bind, hlow, hhigh]
  have h1 := checkOnce_spec hlog (dataFile.fileFormat = bytes "PARQUET") "Unsupported file format\n" (by decide)
  have h2 := checkOnce_spec h1.1 (dataFile.splitOffsets.length ≤ toSizeT restrictions.maxRowGroupsPerFile)
    "Too many row groups\n" (by decide)
  have h3 := checkOnce_spec h2.1 (restrictions.minRowGroupSizeBytes ≤ low) "row group size is too small\n" (by decide)
  have h4 := checkOnce_spec h3.1 (high ≤ restrictions.maxRowGroupSizeBytes) "row group size is too big\n" (by decide)
  refine ⟨_, rfl, h4.1, ?_⟩
  rw [h4.2, h3.2, h2.2, h1.2]
  simp only [decide_eq_true_eq, hgroups, and_assoc]
  refine and_congr_right (fun _ => ?_)
  constructor
  · rintro ⟨hformat, hcount, hmin, hmax⟩
    refine ⟨hformat, hcount, ?_, (hbig _).mp (by omega)⟩
    exact not_lt.mp (fun hlt => absurd ((hsmall _).mpr hlt) (not_lt.mpr hmin))
  · rintro ⟨hformat, hcount, hmin, hmax⟩
    refine ⟨hformat, hcount, ?_, Int.le_of_lt_add_one ((hbig _).mpr hmax)⟩
    exact not_lt.mp (fun hlt => absurd ((hsmall _).mp hlt) (not_lt.mpr hmin))

lemma checkFile_undefined (h : dataFile.splitOffsets = []) (log : ErrorLog) :
    checkFile restrictions log dataFile = .error .undefined := by
  rw [checkFile, rowGroupSizes_undefined h]
  rfl

/-! ### The loops -/

lemma validateEntry_ok (hr : RestrictionsValid restrictions) {entry : ManifestEntry} {s : FileCounts × ErrorLog}
    (hlog : LogConsistent s.2) (hvalid : OffsetsValid entry.dataFile) (hne : entry.dataFile.splitOffsets ≠ [])
    (hfit : CountsFit (countsAfter s.1 [entry])) :
    ∃ log, IcebergMetadataValidator.validateEntry restrictions s entry = .ok (countsAfter s.1 [entry], log) ∧
      LogConsistent log ∧ (log.errors = "" ↔ s.2.errors = "" ∧ FilePasses restrictions entry.dataFile) := by
  obtain ⟨log, hcheck, hconsistent, herrors⟩ := checkFile_ok hr hvalid hne hlog
  refine ⟨log, ?_, hconsistent, herrors⟩
  rw [IcebergMetadataValidator.validateEntry, countFile_ok hfit]
  simp only [bind, Except.bind, hcheck]

lemma validateEntry_undefined {entry : ManifestEntry} {s : FileCounts × ErrorLog} (hcounts : CountsFit s.1)
    (h : entry.dataFile.splitOffsets = [] ∨ ¬CountsFit (countsAfter s.1 [entry])) :
    IcebergMetadataValidator.validateEntry restrictions s entry = .error .undefined := by
  by_cases hfit : CountsFit (countsAfter s.1 [entry])
  · have hempty := h.resolve_right (not_not.mpr hfit)
    rw [IcebergMetadataValidator.validateEntry, countFile_ok hfit]
    simp only [bind, Except.bind, checkFile_undefined hempty]
  · rw [IcebergMetadataValidator.validateEntry, countFile_undefined hcounts hfit]
    rfl

/-- Every entry has split offsets, and the counters take them all. -/
structure Countable (counts : FileCounts) (entries : List ManifestEntry) : Prop where
  offsets : ∀ entry ∈ entries, entry.dataFile.splitOffsets ≠ []
  fit : CountsFit (countsAfter counts entries)

lemma foldlM_validateEntry_ok (hr : RestrictionsValid restrictions) {entries : List ManifestEntry}
    (hvalid : ∀ entry ∈ entries, OffsetsValid entry.dataFile) {s : FileCounts × ErrorLog} (hlog : LogConsistent s.2)
    (h : Countable s.1 entries) :
    ∃ log, entries.foldlM (IcebergMetadataValidator.validateEntry restrictions) s = .ok (countsAfter s.1 entries, log) ∧
      (log.errors = "" ↔ s.2.errors = "" ∧ ∀ entry ∈ entries, FilePasses restrictions entry.dataFile) := by
  induction entries generalizing s with
  | nil =>
    refine ⟨s.2, ?_, by simp⟩
    rw [countsAfter_nil]
    rfl
  | cons entry entries ih =>
    obtain ⟨hoffsets, hfit⟩ := h
    rw [countsAfter_cons] at hfit ⊢
    obtain ⟨log, hstep, hlog', herrors⟩ := validateEntry_ok hr hlog (hvalid entry List.mem_cons_self)
      (hoffsets entry List.mem_cons_self) hfit.of_after
    obtain ⟨last, hrun, hlast⟩ := ih (fun e he => hvalid e (List.mem_cons_of_mem _ he))
      (s := (countsAfter s.1 [entry], log)) hlog' ⟨fun e he => hoffsets e (List.mem_cons_of_mem _ he), hfit⟩
    refine ⟨last, ?_, ?_⟩
    · rw [List.foldlM_cons, hstep]
      exact hrun
    · rw [hlast, herrors, and_assoc, List.forall_mem_cons]

lemma foldlM_validateEntry_undefined (hr : RestrictionsValid restrictions) {entries : List ManifestEntry}
    (hvalid : ∀ entry ∈ entries, OffsetsValid entry.dataFile) {s : FileCounts × ErrorLog} (hlog : LogConsistent s.2)
    (hcounts : CountsFit s.1) (h : ¬Countable s.1 entries) :
    entries.foldlM (IcebergMetadataValidator.validateEntry restrictions) s = .error .undefined := by
  induction entries generalizing s with
  | nil => exact absurd ⟨by simp, by simpa using hcounts⟩ h
  | cons entry entries ih =>
    rw [List.foldlM_cons]
    by_cases hstep : entry.dataFile.splitOffsets = [] ∨ ¬CountsFit (countsAfter s.1 [entry])
    · rw [validateEntry_undefined hcounts hstep]
      rfl
    · obtain ⟨hne, hfit⟩ := not_or.mp hstep
      obtain ⟨log, hok, hlog', -⟩ :=
        validateEntry_ok hr hlog (hvalid entry List.mem_cons_self) hne (not_not.mp hfit)
      rw [hok]
      refine ih (fun e he => hvalid e (List.mem_cons_of_mem _ he)) (s := (countsAfter s.1 [entry], log)) hlog'
        (not_not.mp hfit) (fun hrest => h ⟨?_, ?_⟩)
      · exact List.forall_mem_cons.mpr ⟨hne, hrest.offsets⟩
      · rw [countsAfter_cons]
        exact hrest.fit

/-! ### The whole call -/

def allEntries (manifests : List Manifest) : List ManifestEntry := manifests.flatMap Manifest.entries

lemma foldlM_allEntries (manifests : List Manifest) (s : FileCounts × ErrorLog) :
    manifests.foldlM
        (fun s manifest => manifest.entries.foldlM (IcebergMetadataValidator.validateEntry restrictions) s) s =
      (allEntries manifests).foldlM (IcebergMetadataValidator.validateEntry restrictions) s := by
  unfold allEntries
  induction manifests generalizing s with
  | nil => rfl
  | cons manifest manifests ih =>
    rw [List.foldlM_cons, List.flatMap_cons, List.foldlM_append]
    exact bind_congr ih

/-- The counts are within their limits. -/
structure CountsAllowed (restrictions : RestrictionsManifests) (counts : FileCounts) : Prop where
  equalityDeletes : counts.equalityDeletesCount ≤ restrictions.maxEqualityDeletesCount
  positionDeletes : counts.positionDeletesCount ≤ restrictions.maxPositionDeletesCount
  deleteFiles : counts.deleteFilesCount ≤ restrictions.maxDeleteFilesCount
  dataFiles : counts.dataFilesCount ≤ restrictions.maxDataFilesCount

lemma countMessage_ne_empty (what : String) (limit actual : Int) : countMessage what limit actual ≠ "" := by
  simp [countMessage]

lemma checkCounts_errors (counts : FileCounts) (log : ErrorLog) :
    (checkCounts restrictions counts log).errors = "" ↔ log.errors = "" ∧ CountsAllowed restrictions counts := by
  unfold checkCounts
  simp only [check_errors _ _ (countMessage_ne_empty _ _ _), decide_eq_true_eq, and_assoc]
  refine and_congr_right (fun _ => ?_)
  constructor
  · rintro ⟨h1, h2, h3, h4⟩
    exact ⟨h1, h2, h3, h4⟩
  · rintro ⟨h1, h2, h3, h4⟩
    exact ⟨h1, h2, h3, h4⟩

/-- The counters of all entries. -/
def countsOf (manifests : List Manifest) : FileCounts := countsAfter {} (allEntries manifests)

lemma validateManifests_ok (hr : RestrictionsValid restrictions) {manifests : List Manifest}
    (hvalid : ∀ entry ∈ allEntries manifests, OffsetsValid entry.dataFile) (h : Countable {} (allEntries manifests)) :
    validateManifests ⟨some restrictions⟩ manifests ≠ .error .undefined ∧
      (Throws (validateManifests ⟨some restrictions⟩ manifests) ↔ ¬(CountsAllowed restrictions (countsOf manifests) ∧
        ∀ entry ∈ allEntries manifests, FilePasses restrictions entry.dataFile)) := by
  obtain ⟨log, hrun, herrors⟩ := foldlM_validateEntry_ok hr hvalid (s := ({}, {})) (fun _ => rfl) h
  have hresult : validateManifests ⟨some restrictions⟩ manifests =
      throwing (checkCounts restrictions (countsOf manifests) log).throwIfWasError := by
    unfold validateManifests
    simp only [foldlM_allEntries, hrun]
    rfl
  have hok : (checkCounts restrictions (countsOf manifests) log).throwIfWasError = .ok () ↔
      CountsAllowed restrictions (countsOf manifests) ∧
        ∀ entry ∈ allEntries manifests, FilePasses restrictions entry.dataFile := by
    rw [throwIfWasError_eq_ok_iff, checkCounts_errors, herrors]
    constructor
    · rintro ⟨⟨-, hfiles⟩, hcounts⟩
      exact ⟨hcounts, hfiles⟩
    · rintro ⟨hcounts, hfiles⟩
      exact ⟨⟨rfl, hfiles⟩, hcounts⟩
  rw [hresult, ← hok]
  refine ⟨throwing_ne_undefined _, ?_⟩
  cases (checkCounts restrictions (countsOf manifests) log).throwIfWasError with
  | ok u => simp [Throws]
  | error message => simp [Throws]

lemma validateManifests_undefined (hr : RestrictionsValid restrictions) {manifests : List Manifest}
    (hvalid : ∀ entry ∈ allEntries manifests, OffsetsValid entry.dataFile) (h : ¬Countable {} (allEntries manifests)) :
    validateManifests ⟨some restrictions⟩ manifests = .error .undefined := by
  have hrun := foldlM_validateEntry_undefined hr hvalid (s := ({}, {})) (fun _ => rfl)
    ⟨by norm_num, by norm_num, by norm_num, by norm_num⟩ h
  unfold validateManifests
  simp only [foldlM_allEntries, hrun]
  rfl

/-! ### Violated limits -/

/-- The size at a percentile of the sorted sizes of the row groups. -/
def sizeAtPercentile (dataFile : ContentFile) (percentile : Int) : Int :=
  ((distances dataFile).insertionSort (· ≤ ·)).getD (percentileRank percentile dataFile.splitOffsets.length) 0

/-- A file violates a limit. -/
inductive FileViolates (restrictions : RestrictionsManifests) (dataFile : ContentFile) : Prop
  | format (h : dataFile.fileFormat ≠ bytes "PARQUET")
  | rowGroups (h : restrictions.maxRowGroupsPerFile < dataFile.splitOffsets.length)
  | small (hne : dataFile.splitOffsets ≠ [])
      (h : sizeAtPercentile dataFile restrictions.minRowGroupSizePercentile < restrictions.minRowGroupSizeBytes)
  | big (hne : dataFile.splitOffsets ≠ [])
      (h : restrictions.maxRowGroupSizeBytes < sizeAtPercentile dataFile restrictions.maxRowGroupSizePercentile)

/-- Some limit is violated. -/
def LimitViolated (restrictions : RestrictionsManifests) (manifests : List Manifest) : Prop :=
  ¬CountsAllowed restrictions (countsOf manifests) ∨
    ∃ entry ∈ allEntries manifests, FileViolates restrictions entry.dataFile

/-- The size at a percentile is below the bound, but is not found to be. -/
def BelowMissed (dataFile : ContentFile) (percentile bound : Int) : Prop :=
  percentileRank percentile dataFile.splitOffsets.length < shorterThan dataFile bound ∧
    shorterThan dataFile bound ≤
      percentileIndex percentile dataFile.splitOffsets.length + carriedOver dataFile bound

/-- The size at a percentile is not below the bound, but is found to be. -/
def BelowInvented (dataFile : ContentFile) (percentile bound : Int) : Prop :=
  percentileIndex percentile dataFile.splitOffsets.length + carriedOver dataFile bound < shorterThan dataFile bound ∧
    shorterThan dataFile bound ≤ percentileRank percentile dataFile.splitOffsets.length

/-- Where the product does not wrap, it takes exactly one row group too few below the bound. -/
lemma belowMissed_iff {percentile bound : Int} (h : 0 ≤ percentile) (h' : percentile ≤ 100)
    (hlen : 100 * dataFile.splitOffsets.length < 2 ^ 64) :
    (BelowMissed dataFile percentile bound ↔ carriedOver dataFile bound = 1 ∧
      shorterThan dataFile bound = percentileRank percentile dataFile.splitOffsets.length + 1) ∧
      ¬BelowInvented dataFile percentile bound := by
  have hsize : toSizeT percentile = percentile.toNat := by
    rw [toSizeT, Int.emod_eq_of_lt h (by omega)]
  have hproduct : percentile.toNat * (dataFile.splitOffsets.length - 1) < 2 ^ 64 := by
    have hle : percentile.toNat * (dataFile.splitOffsets.length - 1) ≤ 100 * dataFile.splitOffsets.length :=
      Nat.mul_le_mul (by omega) (by omega)
    omega
  have hindex : percentileIndex percentile dataFile.splitOffsets.length =
      percentileRank percentile dataFile.splitOffsets.length := by
    rw [percentileIndex, percentileRank, hsize, Nat.mod_eq_of_lt hproduct]
  have hcarried : carriedOver dataFile bound ≤ 1 := by
    unfold carriedOver
    split_ifs <;> simp
  unfold BelowMissed BelowInvented
  rw [hindex]
  omega

lemma sizeAtPercentile_lt_iff (hne : dataFile.splitOffsets ≠ []) {percentile : Int} (h' : percentile ≤ 100)
    (bound : Int) :
    sizeAtPercentile dataFile percentile < bound ↔
      percentileRank percentile dataFile.splitOffsets.length < shorterThan dataFile bound := by
  have hlen : percentileRank percentile dataFile.splitOffsets.length <
      ((distances dataFile).insertionSort (· ≤ ·)).length := by
    rw [List.length_insertionSort, distances_eq hne, length_sizes hne]
    exact percentileRank_lt h' (List.length_pos_of_ne_nil hne)
  rw [sizeAtPercentile, List.getD_eq_getElem?_getD, List.getElem?_eq_getElem hlen, Option.getD_some,
    getElem_insertionSort_lt_iff hlen, shorterThan]

/-- A limit that the file violates whatever is taken for the size of its last row group. -/
inductive PlainlyViolates (restrictions : RestrictionsManifests) (dataFile : ContentFile) : Prop
  | format (h : dataFile.fileFormat ≠ bytes "PARQUET")
  | rowGroups (h : restrictions.maxRowGroupsPerFile < dataFile.splitOffsets.length)
  | small (h : max (percentileRank restrictions.minRowGroupSizePercentile dataFile.splitOffsets.length)
      (percentileIndex restrictions.minRowGroupSizePercentile dataFile.splitOffsets.length +
        carriedOver dataFile restrictions.minRowGroupSizeBytes) <
      shorterThan dataFile restrictions.minRowGroupSizeBytes)
  | big (h : shorterThan dataFile (restrictions.maxRowGroupSizeBytes + 1) ≤
      min (percentileRank restrictions.maxRowGroupSizePercentile dataFile.splitOffsets.length)
        (percentileIndex restrictions.maxRowGroupSizePercentile dataFile.splitOffsets.length +
          carriedOver dataFile (restrictions.maxRowGroupSizeBytes + 1)))

/-- A violation that is missed. -/
def ViolationMissed (restrictions : RestrictionsManifests) (dataFile : ContentFile) : Prop :=
  BelowMissed dataFile restrictions.minRowGroupSizePercentile restrictions.minRowGroupSizeBytes ∨
    BelowInvented dataFile restrictions.maxRowGroupSizePercentile (restrictions.maxRowGroupSizeBytes + 1)

/-- A violation that is found where there is none. -/
def ViolationInvented (restrictions : RestrictionsManifests) (dataFile : ContentFile) : Prop :=
  BelowInvented dataFile restrictions.minRowGroupSizePercentile restrictions.minRowGroupSizeBytes ∨
    BelowMissed dataFile restrictions.maxRowGroupSizePercentile (restrictions.maxRowGroupSizeBytes + 1)

lemma fileViolates_iff (hr : RestrictionsValid restrictions) (hne : dataFile.splitOffsets ≠ []) :
    FileViolates restrictions dataFile ↔
      PlainlyViolates restrictions dataFile ∨ ViolationMissed restrictions dataFile := by
  have hsmall := sizeAtPercentile_lt_iff hne hr.minPercentile.2 restrictions.minRowGroupSizeBytes
  have hbig := sizeAtPercentile_lt_iff hne hr.maxPercentile.2 (restrictions.maxRowGroupSizeBytes + 1)
  constructor
  · rintro (hformat | hgroups | ⟨-, h⟩ | ⟨-, h⟩)
    · exact .inl (.format hformat)
    · exact .inl (.rowGroups hgroups)
    · have hrank := hsmall.mp h
      by_cases hindex : percentileIndex restrictions.minRowGroupSizePercentile dataFile.splitOffsets.length +
          carriedOver dataFile restrictions.minRowGroupSizeBytes <
            shorterThan dataFile restrictions.minRowGroupSizeBytes
      · exact .inl (.small (max_lt hrank hindex))
      · exact .inr (.inl ⟨hrank, not_lt.mp hindex⟩)
    · have hrank := not_lt.mp (fun hlt => absurd (hbig.mpr hlt) (by omega))
      by_cases hindex : percentileIndex restrictions.maxRowGroupSizePercentile dataFile.splitOffsets.length +
          carriedOver dataFile (restrictions.maxRowGroupSizeBytes + 1) <
            shorterThan dataFile (restrictions.maxRowGroupSizeBytes + 1)
      · exact .inr (.inr ⟨hindex, hrank⟩)
      · exact .inl (.big (le_min hrank (not_lt.mp hindex)))
  · rintro ((hformat | hgroups | h | h) | h | h)
    · exact .format hformat
    · exact .rowGroups hgroups
    · exact .small hne (hsmall.mpr ((le_max_left _ _).trans_lt h))
    · refine .big hne (Int.lt_of_add_one_le (not_lt.mp (fun hlt => ?_)))
      exact absurd (hbig.mp hlt) (not_lt.mpr (h.trans (min_le_left _ _)))
    · exact .small hne (hsmall.mpr h.1)
    · refine .big hne (Int.lt_of_add_one_le (not_lt.mp (fun hlt => ?_)))
      exact absurd (hbig.mp hlt) (not_lt.mpr h.2)

lemma not_filePasses_iff : ¬FilePasses restrictions dataFile ↔
    PlainlyViolates restrictions dataFile ∨ ViolationInvented restrictions dataFile := by
  constructor
  · intro h
    by_cases hformat : dataFile.fileFormat = bytes "PARQUET"
    · by_cases hgroups : (dataFile.splitOffsets.length : Int) ≤ restrictions.maxRowGroupsPerFile
      · by_cases hsmall : shorterThan dataFile restrictions.minRowGroupSizeBytes ≤
            percentileIndex restrictions.minRowGroupSizePercentile dataFile.splitOffsets.length +
              carriedOver dataFile restrictions.minRowGroupSizeBytes
        · have hbig := not_lt.mp (fun hbig => h ⟨hformat, hgroups, hsmall, hbig⟩)
          rcases le_or_gt (shorterThan dataFile (restrictions.maxRowGroupSizeBytes + 1))
            (percentileRank restrictions.maxRowGroupSizePercentile dataFile.splitOffsets.length) with hrank | hrank
          · exact .inl (.big (le_min hrank hbig))
          · exact .inr (.inr ⟨hrank, hbig⟩)
        · rcases le_or_gt (shorterThan dataFile restrictions.minRowGroupSizeBytes)
            (percentileRank restrictions.minRowGroupSizePercentile dataFile.splitOffsets.length) with hrank | hrank
          · exact .inr (.inl ⟨not_le.mp hsmall, hrank⟩)
          · exact .inl (.small (max_lt hrank (not_le.mp hsmall)))
      · exact .inl (.rowGroups (not_le.mp hgroups))
    · exact .inl (.format hformat)
  · rintro ((h | h | h | h) | h | h) hpasses
    · exact h hpasses.format
    · exact absurd h (not_lt.mpr hpasses.rowGroups)
    · exact absurd ((le_max_right _ _).trans_lt h) (not_lt.mpr hpasses.notSmall)
    · exact absurd hpasses.notBig (not_lt.mpr (h.trans (min_le_right _ _)))
    · exact absurd h.1 (not_lt.mpr hpasses.notSmall)
    · exact absurd hpasses.notBig (not_lt.mpr h.2)

/-- The validation is defined, and throws exactly if a limit is violated. -/
def ValidatesExactly (restrictions : RestrictionsManifests) (manifests : List Manifest) : Prop :=
  validateManifests ⟨some restrictions⟩ manifests ≠ .error .undefined ∧
    (Throws (validateManifests ⟨some restrictions⟩ manifests) ↔ LimitViolated restrictions manifests)

/-- Some limit is violated whatever the last row groups are taken for. -/
def PlainViolation (restrictions : RestrictionsManifests) (manifests : List Manifest) : Prop :=
  ¬CountsAllowed restrictions (countsOf manifests) ∨
    ∃ entry ∈ allEntries manifests, PlainlyViolates restrictions entry.dataFile

/-- The last row groups do not decide the verdict: there is a violation without them, or a violation is missed only
together with one that is invented, and the other way round. -/
def VerdictUnaffected (restrictions : RestrictionsManifests) (manifests : List Manifest) : Prop :=
  PlainViolation restrictions manifests ∨
    ((∃ entry ∈ allEntries manifests, ViolationMissed restrictions entry.dataFile) ↔
      ∃ entry ∈ allEntries manifests, ViolationInvented restrictions entry.dataFile)

lemma limitViolated_iff (hr : RestrictionsValid restrictions) {manifests : List Manifest}
    (hne : ∀ entry ∈ allEntries manifests, entry.dataFile.splitOffsets ≠ []) :
    LimitViolated restrictions manifests ↔ PlainViolation restrictions manifests ∨
      ∃ entry ∈ allEntries manifests, ViolationMissed restrictions entry.dataFile := by
  unfold LimitViolated PlainViolation
  constructor
  · rintro (hcounts | ⟨entry, hentry, h⟩)
    · exact .inl (.inl hcounts)
    · rcases (fileViolates_iff hr (hne entry hentry)).mp h with h | h
      · exact .inl (.inr ⟨entry, hentry, h⟩)
      · exact .inr ⟨entry, hentry, h⟩
  · rintro ((hcounts | ⟨entry, hentry, h⟩) | ⟨entry, hentry, h⟩)
    · exact .inl hcounts
    · exact .inr ⟨entry, hentry, (fileViolates_iff hr (hne entry hentry)).mpr (.inl h)⟩
    · exact .inr ⟨entry, hentry, (fileViolates_iff hr (hne entry hentry)).mpr (.inr h)⟩

lemma not_allPass_iff {manifests : List Manifest} :
    ¬(CountsAllowed restrictions (countsOf manifests) ∧
      ∀ entry ∈ allEntries manifests, FilePasses restrictions entry.dataFile) ↔
    PlainViolation restrictions manifests ∨
      ∃ entry ∈ allEntries manifests, ViolationInvented restrictions entry.dataFile := by
  unfold PlainViolation
  constructor
  · intro h
    by_cases hcounts : CountsAllowed restrictions (countsOf manifests)
    · have hfile : ∃ entry ∈ allEntries manifests, ¬FilePasses restrictions entry.dataFile := by
        by_contra hall
        exact h ⟨hcounts, by simpa using hall⟩
      obtain ⟨entry, hentry, hfails⟩ := hfile
      rcases not_filePasses_iff.mp hfails with hplain | hinvented
      · exact .inl (.inr ⟨entry, hentry, hplain⟩)
      · exact .inr ⟨entry, hentry, hinvented⟩
    · exact .inl (.inl hcounts)
  · rintro ((hcounts | ⟨entry, hentry, h⟩) | ⟨entry, hentry, h⟩) ⟨hallowed, hall⟩
    · exact hcounts hallowed
    · exact not_filePasses_iff.mpr (.inl h) (hall entry hentry)
    · exact not_filePasses_iff.mpr (.inr h) (hall entry hentry)

/-- The validation is exact exactly if every file has split offsets, the counts fit, and the sizes that are taken for
the last row groups do not decide. -/
theorem validateManifests_exact_iff (restrictions : RestrictionsManifests) (manifests : List Manifest)
    (hr : RestrictionsValid restrictions) (hvalid : ∀ entry ∈ allEntries manifests, OffsetsValid entry.dataFile) :
    ValidatesExactly restrictions manifests ↔
      Countable {} (allEntries manifests) ∧ VerdictUnaffected restrictions manifests := by
  by_cases hcountable : Countable {} (allEntries manifests)
  · obtain ⟨hdefined, hthrows⟩ := validateManifests_ok hr hvalid hcountable
    have hverdict : ∀ plain missed invented : Prop,
        (plain ∨ invented ↔ plain ∨ missed) ↔ plain ∨ (missed ↔ invented) := by tauto
    rw [ValidatesExactly, hthrows, not_allPass_iff, limitViolated_iff hr hcountable.offsets, hverdict]
    exact ⟨fun h => ⟨hcountable, h.2⟩, fun h => ⟨hdefined, h.2⟩⟩
  · exact iff_of_false (fun h => h.1 (validateManifests_undefined hr hvalid hcountable)) (fun h => hcountable h.1)

/-- A file of 104 bytes. -/
def parquetFile (splitOffsets : List Int) : ContentFile :=
  { fileFormat := bytes "PARQUET", fileSizeInBytes := 104, splitOffsets }

def oneManifest (dataFile : ContentFile) : List Manifest := [{ metadata := ∅, entries := [{ dataFile }] }]

lemma forall_oneManifest {dataFile : ContentFile} {P : ContentFile → Prop} (h : P dataFile) :
    ∀ entry ∈ allEntries (oneManifest dataFile), P entry.dataFile := by
  intro entry hentry
  simp only [allEntries, oneManifest, List.flatMap_singleton, List.mem_singleton] at hentry
  rwa [hentry]

lemma restrictions100_valid : RestrictionsValid { maxRowGroupSizeBytes := 100 } :=
  ⟨by decide, by decide, by decide⟩

/-- Two row groups of 50 and 54 bytes. -/
theorem twoRowGroups_validated :
    ValidatesExactly { maxRowGroupSizeBytes := 100 } (oneManifest (parquetFile [0, 50])) := by
  have hvalid : OffsetsValid (parquetFile [0, 50]) := ⟨by decide, by decide, by decide⟩
  refine (validateManifests_exact_iff _ _ restrictions100_valid (forall_oneManifest hvalid)).mpr ⟨⟨?_, ?_⟩, ?_⟩
  · exact forall_oneManifest (P := fun dataFile => dataFile.splitOffsets ≠ []) (by decide)
  · exact ⟨by decide, by decide, by decide, by decide⟩
  · refine .inr (iff_of_false ?_ ?_)
    · rintro ⟨entry, hentry, h⟩
      refine forall_oneManifest (P := fun dataFile => ¬ViolationMissed { maxRowGroupSizeBytes := 100 } dataFile) ?_
        entry hentry h
      unfold ViolationMissed BelowMissed BelowInvented
      decide
    · rintro ⟨entry, hentry, h⟩
      refine forall_oneManifest (P := fun dataFile => ¬ViolationInvented { maxRowGroupSizeBytes := 100 } dataFile)
        ?_ entry hentry h
      unfold ViolationInvented BelowMissed BelowInvented
      decide

/-- One row group of 100 bytes, after the four bytes that every Parquet file starts with, is taken for one of 104. -/
theorem oneRowGroup_rejected :
    (OffsetsValid (parquetFile [4]) ∧
      ¬LimitViolated { maxRowGroupSizeBytes := 100 } (oneManifest (parquetFile [4])) ∧
      validateManifests ⟨some { maxRowGroupSizeBytes := 100 }⟩ (oneManifest (parquetFile [4])) =
        .error (.thrown "The following restrictions have been violated:\nrow group size is too big\n")) ∧
    OffsetsValid (parquetFile []) ∧ ¬LimitViolated {} (oneManifest (parquetFile [])) ∧
    validateManifests ⟨some {}⟩ (oneManifest (parquetFile [])) = .error .undefined := by
  refine ⟨⟨⟨by decide, by decide, by decide⟩, ?_, by decide⟩, ⟨by decide, by decide, by decide⟩, ?_, by decide⟩
  · rintro (hcounts | ⟨entry, hentry, h⟩)
    · exact hcounts ⟨by decide, by decide, by decide, by decide⟩
    · refine forall_oneManifest (P := fun dataFile => ¬FileViolates { maxRowGroupSizeBytes := 100 } dataFile) ?_
        entry hentry h
      rintro (h | h | ⟨-, h⟩ | ⟨-, h⟩) <;> exact absurd h (by decide)
  · rintro (hcounts | ⟨entry, hentry, h⟩)
    · exact hcounts ⟨by decide, by decide, by decide, by decide⟩
    · refine forall_oneManifest (P := fun dataFile => ¬FileViolates {} dataFile) ?_ entry hentry h
      rintro (h | h | ⟨hne, -⟩ | ⟨hne, -⟩)
      · exact absurd h (by decide)
      · exact absurd h (by decide)
      · exact absurd rfl hne
      · exact absurd rfl hne

end IcebergCxx.Proofs

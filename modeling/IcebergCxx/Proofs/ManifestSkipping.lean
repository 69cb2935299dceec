import IcebergCxx.Proofs.TemporalBounds

/-!
# Which manifests may be skipped

The stats of a column contain the values of its rows exactly when 16 bits hold the years of the
summary's bounds, or no value lies between them; then a sound filter skips only manifests without a
matching row.
-/

namespace IcebergCxx.Proofs

open Lib

/-! ### Columns -/

lemma deserialize_four {b : Bytes} {x : Int} (h : signedLe 4 b = some x) :
    deserializeInt 4 b = some x ∧ -2 ^ 31 ≤ x ∧ x < 2 ^ 31 := by
  have hb := signedLe_bounds h
  unfold int32Min int32Max at hb
  rw [signedLe_eq 4 b (by decide)] at h
  exact ⟨h, by omega, by omega⟩

lemma deserialize_eight {b : Bytes} {x : Int} (h : signedLe 8 b = some x) :
    deserializeInt 8 b = some x ∧ InInt64 x := by
  rw [signedLe_eq 8 b (by decide)] at h
  refine ⟨h, ?_⟩
  unfold deserializeInt at h
  split_ifs at h
  have hbounds := bmod_bounds (8 * 8) (by decide) (ofLeBytes b)
  rw [Option.some.inj h] at hbounds
  unfold InInt64 int64Min int64Max
  omega

section
variable {summary : PartitionFieldSummary} {stats : GenericStats}

/-- The stats of a column that is partitioned by its own values. -/
lemma identityStats_eq {iceType : IceType} {type : ValueType}
    (h : ManifestFileStatsGetter.getStatsFromIdentityTransform iceType type summary = some stats) :
    ∃ lo hi, deserializeValue iceType type summary.lowerBound = some lo ∧
      deserializeValue iceType type summary.upperBound = some hi ∧ stats = { minMax := ⟨type, ⟨lo, hi⟩⟩ } := by
  unfold ManifestFileStatsGetter.getStatsFromIdentityTransform genericStatsFromTypedStats at h
  cases hlo : deserializeValue iceType type summary.lowerBound with
  | none => simp [hlo] at h
  | some lo =>
    cases hhi : deserializeValue iceType type summary.upperBound with
    | none => simp [hlo, hhi] at h
    | some hi =>
      rw [hlo, hhi] at h
      exact ⟨lo, hi, rfl, rfl, (Option.some.inj h).symm⟩

/-- A bounded 32-bit column. -/
lemma inStats_int32 {x lo hi : SignedInt 32} (hb : IntBetween 4 summary x.val)
    (hlo : (deserializeInt 4 summary.lowerBound).map toInt32 = some lo)
    (hhi : (deserializeInt 4 summary.upperBound).map toInt32 = some hi) : lo ≤ x ∧ x ≤ hi := by
  obtain ⟨a, b, ha, hb, h1, h2⟩ := hb
  obtain ⟨ha, hra⟩ := deserialize_four ha
  obtain ⟨hb, hrb⟩ := deserialize_four hb
  rw [ha] at hlo
  rw [hb] at hhi
  rw [← Option.some.inj hlo, ← Option.some.inj hhi]
  change (toInt32 a).val ≤ x.val ∧ x.val ≤ (toInt32 b).val
  rw [toInt32_val hra, toInt32_val hrb]
  exact ⟨h1, h2⟩

/-- A bounded 64-bit column. -/
lemma inStats_int64 {x lo hi : SignedInt 64} (hb : IntBetween 8 summary x.val)
    (hlo : (deserializeInt 8 summary.lowerBound).map toInt64 = some lo)
    (hhi : (deserializeInt 8 summary.upperBound).map toInt64 = some hi) : lo ≤ x ∧ x ≤ hi := by
  obtain ⟨a, b, ha, hb, h1, h2⟩ := hb
  obtain ⟨ha, hra⟩ := deserialize_eight ha
  obtain ⟨hb, hrb⟩ := deserialize_eight hb
  rw [ha] at hlo
  rw [hb] at hhi
  rw [← Option.some.inj hlo, ← Option.some.inj hhi]
  change (toInt64 a).val ≤ x.val ∧ x.val ≤ (toInt64 b).val
  rw [toInt64_val hra, toInt64_val hrb]
  exact ⟨h1, h2⟩

/-- A 32-bit column that the filter takes for a 16-bit one. -/
lemma inStats_int16 {x lo hi : SignedInt 16} (hb : IntBetween 4 summary x.val)
    (hlo : deserializeValue .int .int2 summary.lowerBound = some lo)
    (hhi : deserializeValue .int .int2 summary.upperBound = some hi) : lo ≤ x ∧ x ≤ hi := by
  obtain ⟨a, b, ha, hb, h1, h2⟩ := hb
  obtain ⟨ha, -⟩ := deserialize_four ha
  obtain ⟨hb, -⟩ := deserialize_four hb
  simp only [deserializeValue, ha] at hlo
  simp only [deserializeValue, hb] at hhi
  split_ifs at hlo hhi with hra hrb
  rw [← Option.some.inj hlo, ← Option.some.inj hhi]
  exact ⟨h1, h2⟩

lemma identityStats_sound {iceType : IceType} {type : ValueType} {x : PhysicalType type}
    (h : ManifestFileStatsGetter.getStatsFromIdentityTransform iceType type summary = some stats)
    (hb : IdentityBetween iceType summary ⟨type, x⟩) : InStats stats.minMax ⟨type, x⟩ := by
  obtain ⟨lo, hi, hlo, hhi, rfl⟩ := identityStats_eq h
  cases type with
  | bool =>
    obtain ⟨rfl, a, b, ha, hb, h1, h2⟩ := hb
    rw [ha] at hlo
    rw [hb] at hhi
    rw [← Option.some.inj hlo, ← Option.some.inj hhi]
    refine .mk (Bool.le_iff_imp.mpr fun h => h1 (of_decide_eq_true h)) (Bool.le_iff_imp.mpr fun h => ?_)
    by_contra hbyte
    rw [h2 (by simpa using hbyte)] at h
    cases h
  | int2 =>
    obtain ⟨rfl, hb⟩ := hb
    obtain ⟨h1, h2⟩ := inStats_int16 hb hlo hhi
    exact .mk h1 h2
  | int4 =>
    obtain ⟨rfl, hb⟩ := hb
    obtain ⟨h1, h2⟩ := inStats_int32 hb hlo hhi
    exact .mk h1 h2
  | int8 =>
    obtain ⟨rfl, hb⟩ := hb
    obtain ⟨h1, h2⟩ := inStats_int64 hb hlo hhi
    exact .mk h1 h2
  | numeric => exact hb.elim
  | string =>
    obtain ⟨rfl, h1, h2⟩ := hb
    rw [← Option.some.inj hlo, ← Option.some.inj hhi]
    exact .mk h1 h2
  | date =>
    obtain ⟨rfl, hb⟩ := hb
    obtain ⟨h1, h2⟩ := inStats_int32 hb hlo hhi
    exact .mk h1 h2
  | timestamp =>
    obtain ⟨rfl, hb⟩ := hb
    obtain ⟨h1, h2⟩ := inStats_int64 hb hlo hhi
    exact .mk h1 h2
  | timestamptz =>
    obtain ⟨rfl, hb⟩ := hb
    obtain ⟨h1, h2⟩ := inStats_int64 hb hlo hhi
    exact .mk h1 h2
  | time =>
    obtain ⟨rfl, hb⟩ := hb
    obtain ⟨h1, h2⟩ := inStats_int64 hb hlo hhi
    exact .mk h1 h2
  | interval => exact hb.elim

end

/-! ### Temporal columns -/

section
variable {t : TemporalTransform} {transform : Bytes} {summary : PartitionFieldSummary}

lemma getStatsFromTemporalTransform_of_bounds {lo hi : Int} (hlo : signedLe 4 summary.lowerBound = some lo)
    (hhi : signedLe 4 summary.upperBound = some hi) (type : ValueType) :
    ManifestFileStatsGetter.getStatsFromTemporalTransform summary transform type =
      if hi = int32Max then .ok none
      else
        match type with
        | .date => ManifestFileStatsGetter.getStatsFromTemporalForDate lo hi transform
        | .timestamp => ManifestFileStatsGetter.getStatsFromTemporalForTimestamp lo hi transform false
        | .timestamptz => ManifestFileStatsGetter.getStatsFromTemporalForTimestamp lo hi transform true
        | _ => .ok none := by
  have h1 := convertToInt_ok_iff.mpr hlo
  have h2 := convertToInt_ok_iff.mpr hhi
  cases type <;> simp [ManifestFileStatsGetter.getStatsFromTemporalTransform, h1, h2]

lemma ne_int32Max_of_wraps {lo hi : Int} (h : YearWraps t lo hi) : hi ≠ int32Max := by
  unfold int32Max
  cases t with
  | year => have := h.2.1; omega
  | month => have := h.2.1; omega
  | day => exact h.elim
  | hour => exact h.elim

lemma temporalStats_sound (ht : TemporalTransform.ofText transform = some t) {type : ValueType} {stats : GenericStats}
    {x : PhysicalType type}
    (h : ManifestFileStatsGetter.getStatsFromTemporalTransform summary transform type = .ok (some stats))
    (hw : ∀ lo hi, signedLe 4 summary.lowerBound = some lo → signedLe 4 summary.upperBound = some hi →
      ¬ YearWraps t lo hi)
    (hb : TemporalBetween t summary ⟨type, x⟩) : InStats stats.minMax ⟨type, x⟩ := by
  obtain ⟨lo, hi, u, hlo, hhi, hu1, hu2, hu⟩ := hb
  have hw := hw lo hi hlo hhi
  rw [getStatsFromTemporalTransform_of_bounds hlo hhi] at h
  split_ifs at h with hmax
  · cases h
  · cases type with
    | date => exact dateStats_sound (signedLe_bounds hlo) (signedLe_bounds hhi) ht h hw hu1 hu2 hu
    | timestamp => exact timestampStats_sound (signedLe_bounds hlo) (signedLe_bounds hhi) ht h hw hu1 hu2 hu
    | timestamptz =>
      obtain ⟨y, hxy, hu⟩ := hu
      exact timestamptzStats_sound (signedLe_bounds hlo) (signedLe_bounds hhi) ht h hw hxy hu1 hu2 hu
    | bool => exact hu.elim
    | int2 => exact hu.elim
    | int4 => exact hu.elim
    | int8 => exact hu.elim
    | numeric => exact hu.elim
    | string => exact hu.elim
    | time => exact hu.elim
    | interval => exact hu.elim

lemma temporalStats_unsound (ht : TemporalTransform.ofText transform = some t) {type : ValueType} {lo hi : Int}
    (hlo : signedLe 4 summary.lowerBound = some lo) (hhi : signedLe 4 summary.upperBound = some hi)
    (hw : YearWraps t lo hi) {x : PhysicalType type} (hb : TemporalBetween t summary ⟨type, x⟩) :
    ∃ stats, ManifestFileStatsGetter.getStatsFromTemporalTransform summary transform type = .ok (some stats) ∧
      ∃ y : PhysicalType type, TemporalBetween t summary ⟨type, y⟩ ∧ ¬ InStats stats.minMax ⟨type, y⟩ := by
  obtain ⟨lo', hi', u, hlo', hhi', hu1, hu2, hu⟩ := hb
  rw [hlo] at hlo'
  rw [hhi] at hhi'
  rw [← Option.some.inj hlo'] at hu1
  rw [← Option.some.inj hhi'] at hu2
  rw [getStatsFromTemporalTransform_of_bounds hlo hhi, if_neg (ne_int32Max_of_wraps hw)]
  cases type with
  | date =>
    obtain ⟨stats, hstats, w, y, hw1, hw2, hy, hout⟩ :=
      dateStats_unsound (signedLe_bounds hlo) (signedLe_bounds hhi) ht hw hu1 hu2 hu
    exact ⟨stats, hstats, y, ⟨lo, hi, w, hlo, hhi, hw1, hw2, hy⟩, hout⟩
  | timestamp =>
    obtain ⟨stats, hstats, w, y, hw1, hw2, hy, hout⟩ :=
      timestampStats_unsound (signedLe_bounds hlo) (signedLe_bounds hhi) ht hw hu1 hu2 hu
    exact ⟨stats, hstats, y, ⟨lo, hi, w, hlo, hhi, hw1, hw2, hy⟩, hout⟩
  | timestamptz =>
    obtain ⟨x', -, hu⟩ := hu
    obtain ⟨stats, hstats, w, y, z, hw1, hw2, hy, hzy, hout⟩ :=
      timestamptzStats_unsound (signedLe_bounds hlo) (signedLe_bounds hhi) ht hw hu1 hu2 hu
    exact ⟨stats, hstats, z, ⟨lo, hi, w, hlo, hhi, hw1, hw2, y, hzy, hy⟩, hout⟩
  | bool => exact hu.elim
  | int2 => exact hu.elim
  | int4 => exact hu.elim
  | int8 => exact hu.elim
  | numeric => exact hu.elim
  | string => exact hu.elim
  | time => exact hu.elim
  | interval => exact hu.elim

end

/-! ### The getter of a manifest -/

/-- The partition field and the summary that the getter uses for a column. -/
def UsedFor (getter : ManifestFileStatsGetter) (name : Bytes) (field : PartitionField) (summary : PartitionFieldSummary) :
    Prop :=
  ∃ position, getter.nameToPosition.find? name = some position ∧ getter.spec.fields[position]? = some field ∧
    getter.partitions[position]? = some summary

/-- The stats of a column contain every value of it that lies between the bounds of the summary. -/
def ColumnCovered (getter : ManifestFileStatsGetter) (name : Bytes) (type : ValueType) : Prop :=
  ∀ (stats : GenericStats) (x : PhysicalType type) (field : PartitionField) (summary : PartitionFieldSummary),
    getter.getStats name type = .ok (some stats) → UsedFor getter name field summary →
    Between (getter.nameToType.find? name) field.transform summary ⟨type, x⟩ → InStats stats.minMax ⟨type, x⟩

/-- If 16 bits do not hold the year of a bound, no value of the type lies between the bounds. -/
def YearsFit (getter : ManifestFileStatsGetter) (name : Bytes) (type : ValueType) : Prop :=
  ∀ (field : PartitionField) (summary : PartitionFieldSummary) (t : TemporalTransform) (lo hi : Int),
    UsedFor getter name field summary → TemporalTransform.ofText field.transform = some t →
    signedLe 4 summary.lowerBound = some lo → signedLe 4 summary.upperBound = some hi → YearWraps t lo hi →
    ∀ x : PhysicalType type, ¬ TemporalBetween t summary ⟨type, x⟩

lemma ofText_temporal {transform : Bytes} {t : TemporalTransform} (h : TemporalTransform.ofText transform = some t) :
    transform ≠ bytes "identity" ∧ ManifestFileStatsGetter.isTemporal transform = true := by
  rcases ofText_cases h with ⟨-, rfl⟩ | ⟨-, rfl⟩ | ⟨-, rfl⟩ | ⟨-, rfl⟩ <;> decide

lemma getStats_identity {getter : ManifestFileStatsGetter} {name : Bytes} {type : ValueType} {field : PartitionField}
    {summary : PartitionFieldSummary} (hused : UsedFor getter name field summary)
    (hid : field.transform = bytes "identity") {iceType : IceType} (htype : getter.nameToType.find? name = some iceType) :
    getter.getStats name type = .ok (ManifestFileStatsGetter.getStatsFromIdentityTransform iceType type summary) := by
  obtain ⟨position, hpos, hfield, hsummary⟩ := hused
  unfold ManifestFileStatsGetter.getStats
  simp only [hpos, hfield, hsummary, hid, htype, if_true]

lemma getStats_temporal {getter : ManifestFileStatsGetter} {name : Bytes} {type : ValueType} {field : PartitionField}
    {summary : PartitionFieldSummary} (hused : UsedFor getter name field summary) {t : TemporalTransform}
    (ht : TemporalTransform.ofText field.transform = some t) :
    getter.getStats name type = ManifestFileStatsGetter.getStatsFromTemporalTransform summary field.transform type := by
  obtain ⟨position, hpos, hfield, hsummary⟩ := hused
  obtain ⟨hne, htemporal⟩ := ofText_temporal ht
  unfold ManifestFileStatsGetter.getStats
  simp only [hpos, hfield, hsummary, hne, htemporal, if_true, if_false]

/-- The stats of a column are right exactly when the years fit. -/
lemma columnCovered_iff {getter : ManifestFileStatsGetter} {name : Bytes} {type : ValueType} :
    ColumnCovered getter name type ↔ YearsFit getter name type := by
  constructor
  · intro h field summary t lo hi hused ht hlo hhi hw x hx
    obtain ⟨stats, hstats, y, hy, hout⟩ := temporalStats_unsound ht hlo hhi hw hx
    exact hout (h stats y field summary ((getStats_temporal hused ht).trans hstats) hused (.inr ⟨t, ht, hy⟩))
  · intro h stats x field summary hstats hused hbetween
    rcases hbetween with ⟨hid, iceType, htype, hb⟩ | ⟨t, ht, hb⟩
    · rw [getStats_identity hused hid htype] at hstats
      exact identityStats_sound (Except.ok.inj hstats) hb
    · rw [getStats_temporal hused ht] at hstats
      exact temporalStats_sound ht hstats (fun lo hi hlo hhi hw => h field summary t lo hi hused ht hlo hhi hw x hb) hb

/-! ### Skipping -/

/-- The stats that a getter returns describe the row, for columns asked by the type of their value. -/
def DescribesValues (getter : ThrowingStatsGetter) (row : Row) : Prop :=
  ∀ name type stats, getter name type = .ok (some stats) →
    (row name = none → Sound stats .null) ∧ ∀ x, row name = some ⟨type, x⟩ → Sound stats (.value ⟨type, x⟩)

/-- A statistics filter that answers "none" only when the filter is not true on any row the stats
describe. -/
structure SoundStatsFilter where
  applyFilter : ThrowingStatsGetter → Except String MatchedRows
  IsTrue : Row → Prop
  sound : ∀ getter row, DescribesValues getter row → applyFilter getter = .ok .none → ¬ IsTrue row

/-- Stats of columns are right, and a skipped manifest has no row on which the filter is true. -/
def SkippingSound (schema : Schema) (partitionSpecs : List PartitionSpec) (manifests : List ManifestFile) : Prop :=
  (∀ manifest ∈ manifests, ∀ getter, manifestStatsGetter schema partitionSpecs manifest = .ok (some getter) →
    ∀ name type, ColumnCovered getter name type) ∧
  ∀ (filter : SoundStatsFilter) (canSkip : List Bool),
    filterManifests filter.applyFilter schema partitionSpecs manifests = .ok canSkip →
    ∀ (i : Nat) (manifest : ManifestFile) (spec : PartitionSpec), manifests[i]? = some manifest →
      canSkip[i]? = some true → specById partitionSpecs manifest.partitionSpecId.toInt = some spec →
      ∀ row : Row, InManifest schema spec manifest.partitions row → ¬ filter.IsTrue row

/-- A property that every step of a loop keeps. -/
lemma foldlM_ok_invariant {σ α : Type} {f : σ → α → Except String σ} {P : σ → Prop} {l : List α}
    (h : ∀ a ∈ l, ∀ s s', P s → f s a = .ok s' → P s') {s s' : σ} (hs : P s) (hf : l.foldlM f s = .ok s') : P s' := by
  induction l generalizing s with
  | nil =>
    rw [← Except.ok.inj hf]
    exact hs
  | cons a l ih =>
    rw [List.foldlM_cons] at hf
    obtain ⟨s₁, h1, hf⟩ := bind_ok hf
    exact ih (fun b hb => h b (List.mem_cons_of_mem _ hb)) (h a List.mem_cons_self s s₁ hs h1) hf

/-- A position belongs to a field whose source column has the name. -/
lemma nameToPositionOf_spec {schema : Schema} {spec : PartitionSpec} {positions : OrdMap Bytes Nat}
    (h : nameToPositionOf schema spec = .ok positions) :
    ∀ name i, positions.find? name = some i →
      ∃ field, spec.fields[i]? = some field ∧ (fieldIdToName schema).find? field.sourceId = some name := by
  have hempty : ∀ name i, (∅ : OrdMap Bytes Nat).find? name = some i →
      ∃ field, spec.fields[i]? = some field ∧ (fieldIdToName schema).find? field.sourceId = some name := by
    intro name i hi
    cases hi
  refine @foldlM_ok_invariant _ _ _ (fun positions : OrdMap Bytes Nat => ∀ name i, positions.find? name = some i →
    ∃ field, spec.fields[i]? = some field ∧ (fieldIdToName schema).find? field.sourceId = some name) _ ?_ _ _ hempty h
  rintro ⟨field, j⟩ hmem start result hstart hstep name i hi
  have hfield : spec.fields[j]? = some field := List.mem_zipIdx_iff_getElem?.mp hmem
  cases hname : (fieldIdToName schema).find? field.sourceId with
  | none =>
    simp only [hname] at hstep
    cases hstep
  | some m =>
    simp only [hname] at hstep
    rw [← Except.ok.inj hstep, OrdMap.find?_insert] at hi
    split_ifs at hi with hn
    · rw [← Option.some.inj hi, hn]
      exact ⟨field, hfield, hname⟩
    · exact hstart name i hi

/-- What is known of the getter of a manifest. -/
lemma manifestStatsGetter_spec {schema : Schema} {partitionSpecs : List PartitionSpec} {manifest : ManifestFile}
    {getter : ManifestFileStatsGetter} (h : manifestStatsGetter schema partitionSpecs manifest = .ok (some getter)) :
    specById partitionSpecs manifest.partitionSpecId.toInt = some getter.spec ∧
      getter.nameToType = nameToTypeOf schema ∧ getter.partitions = manifest.partitions ∧
      nameToPositionOf schema getter.spec = .ok getter.nameToPosition := by
  unfold manifestStatsGetter at h
  cases hspec : specById partitionSpecs manifest.partitionSpecId.toInt with
  | none =>
    rw [hspec] at h
    cases h
  | some spec =>
    rw [hspec] at h
    simp only at h
    split_ifs at h
    · obtain ⟨positions, hpositions, h⟩ := bind_ok h
      rw [← Option.some.inj (Except.ok.inj h)]
      exact ⟨rfl, rfl, rfl, hpositions⟩
    · cases h

lemma temporalStats_count {summary : PartitionFieldSummary} {transform : Bytes} {type : ValueType} {stats : GenericStats}
    (h : ManifestFileStatsGetter.getStatsFromTemporalTransform summary transform type = .ok (some stats)) :
    stats.count = { containsNull := true, containsNonNull := true } := by
  have hts : ∀ lo hi isTimestamptz,
      ManifestFileStatsGetter.getStatsFromTemporalForTimestamp lo hi transform isTimestamptz = .ok (some stats) →
      stats.count = { containsNull := true, containsNonNull := true } := by
    intro lo hi isTimestamptz h
    obtain ⟨⟨a, b⟩, -, h⟩ := bind_ok h
    simp only at h
    split_ifs at h
    · cases h
    · cases h
    · rw [← Option.some.inj (Except.ok.inj h)]
    · rw [← Option.some.inj (Except.ok.inj h)]
  obtain ⟨lo, -, h⟩ := bind_ok h
  obtain ⟨hi, -, h⟩ := bind_ok h
  split_ifs at h
  · cases h
  · split at h
    · obtain ⟨a, b, -, rfl⟩ := getStatsFromTemporalForDate_ok h
      rfl
    · exact hts _ _ _ h
    · exact hts _ _ _ h
    · cases h

/-- Stats come from a partition field and its summary, and allow nulls. -/
lemma getStats_spec {getter : ManifestFileStatsGetter} {name : Bytes} {type : ValueType} {stats : GenericStats}
    (h : getter.getStats name type = .ok (some stats)) :
    (∃ field summary, UsedFor getter name field summary) ∧
      stats.count = { containsNull := true, containsNonNull := true } := by
  unfold ManifestFileStatsGetter.getStats at h
  cases hpos : getter.nameToPosition.find? name with
  | none =>
    rw [hpos] at h
    cases h
  | some position =>
    rw [hpos] at h
    simp only at h
    split at h
    · rename_i summary field hsummary hfield
      refine ⟨⟨field, summary, position, hpos, hfield, hsummary⟩, ?_⟩
      split_ifs at h
      · split at h
        · obtain ⟨lo, hi, -, -, rfl⟩ := identityStats_eq (Except.ok.inj h)
          rfl
        · cases h
      · exact temporalStats_count h
      · cases h
    · cases h

/-- The stats of a manifest describe the rows of its files. -/
lemma describesValues_of_covered {schema : Schema} {partitionSpecs : List PartitionSpec} {manifest : ManifestFile}
    {getter : ManifestFileStatsGetter} (h : manifestStatsGetter schema partitionSpecs manifest = .ok (some getter))
    (hcovered : ∀ name type, ColumnCovered getter name type) {row : Row}
    (hrow : InManifest schema getter.spec manifest.partitions row) : DescribesValues getter.getStats row := by
  obtain ⟨-, htypes, hpartitions, hpositions⟩ := manifestStatsGetter_spec h
  intro name type stats hstats
  obtain ⟨⟨field, summary, hused⟩, hcount⟩ := getStats_spec hstats
  refine ⟨fun _ => by rw [Sound, hcount], fun x hx => ⟨by rw [hcount], ?_⟩⟩
  have hused' := hused
  obtain ⟨position, hpos, hfield, hsummary⟩ := hused'
  obtain ⟨field', hfield', hname⟩ := nameToPositionOf_spec hpositions name position hpos
  rw [hfield] at hfield'
  rw [← Option.some.inj hfield'] at hname
  obtain ⟨summary', hsummary', hbetween⟩ := hrow position field name ⟨type, x⟩ hfield hname hx
  rw [hpartitions, hsummary'] at hsummary
  rw [Option.some.inj hsummary, ← htypes] at hbetween
  exact hcovered name type stats x field summary hstats hused hbetween

/-- Manifest skipping is sound exactly when, for every manifest and column, the years of the
partition bounds fit into 16 bits or no value lies between the bounds. -/
theorem skippingSound_iff (schema : Schema) (partitionSpecs : List PartitionSpec) (manifests : List ManifestFile) :
    SkippingSound schema partitionSpecs manifests ↔
      ∀ manifest ∈ manifests, ∀ getter, manifestStatsGetter schema partitionSpecs manifest = .ok (some getter) →
        ∀ name type, YearsFit getter name type := by
  constructor
  · intro h manifest hmem getter hgetter name type
    exact columnCovered_iff.mp (h.1 manifest hmem getter hgetter name type)
  · intro h
    have hcovered : ∀ manifest ∈ manifests, ∀ getter,
        manifestStatsGetter schema partitionSpecs manifest = .ok (some getter) →
        ∀ name type, ColumnCovered getter name type :=
      fun manifest hmem getter hgetter name type => columnCovered_iff.mpr (h manifest hmem getter hgetter name type)
    refine ⟨hcovered, ?_⟩
    intro filter canSkip hfilter i manifest spec hmanifest hskip hspec row hrow
    have hall := mapM_ok_iff.mp hfilter
    obtain ⟨hi, hget⟩ := List.getElem?_eq_some_iff.mp hmanifest
    obtain ⟨hj, hgetSkip⟩ := List.getElem?_eq_some_iff.mp hskip
    have hstep := List.forall₂_iff_get.mp hall |>.2 i hi hj
    simp only [List.get_eq_getElem, hget, hgetSkip] at hstep
    obtain ⟨getter, hgetter, hstep⟩ := bind_ok hstep
    cases getter with
    | none => cases hstep
    | some getter =>
      obtain ⟨matched, hmatched, hstep⟩ := bind_ok hstep
      have hnone : matched = .none := by simpa using Except.ok.inj hstep
      rw [hnone] at hmatched
      have hspec' := (manifestStatsGetter_spec hgetter).1
      rw [hspec] at hspec'
      rw [Option.some.inj hspec'] at hrow
      have hmem : manifest ∈ manifests := List.mem_of_getElem? hmanifest
      exact filter.sound getter.getStats row
        (describesValues_of_covered hgetter (hcovered manifest hmem getter hgetter) hrow) hmatched

/-! ### A year that does not fit -/

def farSchema : Schema where
  schemaId := 0
  columns := [{ name := bytes "d", fieldId := 1, type := .date }]

def farField : PartitionField := ⟨1, 1000, bytes "d_year", bytes "year"⟩

/-- All files have dates of the year 32768. -/
def farSummary : PartitionFieldSummary where
  containsNull := false
  lowerBound := leBytes 4 30798
  upperBound := leBytes 4 30798

def farManifest : ManifestFile := { partitions := [farSummary] }

/-- The first of January of the year 32768. -/
def farDate : SignedInt 32 := ⟨yearStart 30798, by decide⟩

/-- The year 32768 is taken for -32768, and its dates are not between the stats. -/
theorem farManifest_notSound : ¬ SkippingSound farSchema [⟨0, [farField]⟩] [farManifest] := by
  intro h
  have hcovered := h.1 farManifest (List.mem_singleton.mpr rfl) _ rfl (bytes "d") .date
  have hbounds : signedLe 4 farSummary.lowerBound = some 30798 := by decide +kernel
  have hdate : TemporalBetween .year farSummary ⟨.date, farDate⟩ := by
    refine ⟨30798, 30798, 30798, hbounds, hbounds, le_refl _, le_refl _, (hasUnit_date (by decide)).mpr ⟨le_refl _, ?_⟩⟩
    exact yearStart_strictMono (by omega)
  exact columnCovered_iff.mp hcovered farField farSummary .year 30798 30798 ⟨0, rfl, rfl, rfl⟩ rfl hbounds hbounds
    ⟨by omega, by omega, by omega⟩ farDate hdate

end IcebergCxx.Proofs

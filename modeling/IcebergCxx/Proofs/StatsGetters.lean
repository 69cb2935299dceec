import IcebergCxx.StatsGetters
import IcebergCxx.Proofs.StatsRegistry

/-!
# Bounds of 16-bit columns

A column of 32-bit integers may be compared with 16-bit ones. The manifest getter has no bounds
then unless both of them are 16-bit integers; the Parquet getter converts whatever the bounds are.
-/

namespace IcebergCxx.Proofs

open Lib

/-- The integer has 16 bits. -/
def InInt16 (x : Int) : Prop := -2 ^ 15 ≤ x ∧ x < 2 ^ 15

/-- A column whose statistics these are: all values are within the bounds, and the bounds are
values. -/
structure HasBounds (values : List Int) (min max : Int) : Prop where
  min_mem : min ∈ values
  max_mem : max ∈ values
  within : ∀ x ∈ values, min ≤ x ∧ x ≤ max

/-- The bounds leave out no 16-bit value of a column with the bounds `min` and `max`. -/
def CoversSmall (min max : Int) (stats : GenericStats) : Prop :=
  ∀ values, HasBounds values min max → ∀ x ∈ values, ∀ h : InInt16 x, InStats stats.minMax ⟨.int2, ⟨x, h⟩⟩

lemma coversSmall_iff {min max : Int} (horder : min ≤ max) (lower upper : SignedInt 16) (count : CountStats) :
    CoversSmall min max ⟨⟨.int2, ⟨lower, upper⟩⟩, count⟩ ↔
      ∀ x, InInt16 x → min ≤ x → x ≤ max → lower.val ≤ x ∧ x ≤ upper.val := by
  constructor
  · intro h x hsmall hmin hmax
    have hbounds : HasBounds [min, x, max] min max := by
      refine ⟨by simp, by simp, ?_⟩
      intro y hy
      simp only [List.mem_cons, List.not_mem_nil, or_false] at hy
      omega
    obtain ⟨y, hy, hlower, hupper⟩ := (h _ hbounds x (by simp) hsmall).not_unordered rfl
    have hval : (⟨x, hsmall⟩ : SignedInt 16) = y := eq_of_heq (Sigma.mk.inj hy).2
    rw [← hval] at hlower hupper
    exact ⟨hlower, hupper⟩
  · intro h values hbounds x hx hsmall
    obtain ⟨hmin, hmax⟩ := hbounds.within x hx
    obtain ⟨hlower, hupper⟩ := h x hsmall hmin hmax
    exact .mk hlower hupper

/-! ### The manifest -/

/-- The column of the manifest entry is an `int` with the bounds `min` and `max`. -/
def ManifestBounds (getter : ManifestEntryStatsGetter) (columnName : Bytes) (min max : Int) : Prop :=
  ∃ field minBytes maxBytes, getter.field columnName = some field ∧ field.type = .int ∧
    getter.entry.dataFile.lowerBounds.find? field.fieldId = some minBytes ∧
    getter.entry.dataFile.upperBounds.find? field.fieldId = some maxBytes ∧
    deserializeInt 4 minBytes = some min ∧ deserializeInt 4 maxBytes = some max

/-- A bound that the manifest getter gives is the bound itself. -/
lemma deserializeValue_int2 {value : Bytes} {x : Int} (h : deserializeInt 4 value = some x) {y : SignedInt 16}
    (hy : deserializeValue .int .int2 value = some y) : y.val = x := by
  simp only [deserializeValue, h] at hy
  split_ifs at hy
  obtain rfl := Option.some.inj hy
  rfl

lemma genericStatsFromTypedStats_int2 {minBytes maxBytes : Bytes} {min max : Int}
    (hmin : deserializeInt 4 minBytes = some min) (hmax : deserializeInt 4 maxBytes = some max)
    {minMax : GenericMinMaxStats} (h : genericStatsFromTypedStats .int .int2 minBytes maxBytes = some minMax) :
    ∃ lower upper : SignedInt 16, minMax = ⟨.int2, ⟨lower, upper⟩⟩ ∧ lower.val = min ∧ upper.val = max := by
  unfold genericStatsFromTypedStats at h
  split at h
  · rename_i lower upper hlower hupper
    obtain rfl := Option.some.inj h
    exact ⟨lower, upper, rfl, deserializeValue_int2 hmin hlower, deserializeValue_int2 hmax hupper⟩
  · cases h

lemma manifestStats_int2 {getter : ManifestEntryStatsGetter} {columnName : Bytes} {stats : GenericStats} {min max : Int}
    (hbounds : ManifestBounds getter columnName min max) (h : getter.getStats columnName .int2 = some stats) :
    ∃ lower upper : SignedInt 16, stats.minMax = ⟨.int2, ⟨lower, upper⟩⟩ ∧ lower.val = min ∧ upper.val = max := by
  obtain ⟨field, minBytes, maxBytes, hfield, htype, hlower, hupper, hmin, hmax⟩ := hbounds
  simp only [ManifestEntryStatsGetter.getStats, hfield, hlower, hupper, htype, Option.bind_eq_bind,
    Option.bind_some] at h
  obtain ⟨minMax, hminMax, hstats⟩ := Option.bind_eq_some_iff.mp h
  obtain rfl := Option.some.inj hstats
  exact genericStatsFromTypedStats_int2 hmin hmax hminMax

/-! ### The row group -/

/-- The column chunk holds 32-bit integers with the bounds `min` and `max`. -/
def Int32Chunk (getter : ParquetStatsGetter) (columnName : Bytes) (logicalType : ParquetLogicalType)
    (min max : SignedInt 32) : Prop :=
  ∃ numValues nullCount, getter.columnChunk columnName =
    some ⟨logicalType, some ⟨.int32, some ⟨min, max⟩, numValues, nullCount⟩⟩

lemma parquetStats_int2 {getter : ParquetStatsGetter} {columnName : Bytes} {logicalType : ParquetLogicalType}
    {min max : SignedInt 32} (h : Int32Chunk getter columnName logicalType min max) :
    ∃ count, getter.getStats columnName .int2 =
      if valdateLogicalType .int2 logicalType then some ⟨⟨.int2, ⟨toInt16 min.val, toInt16 max.val⟩⟩, count⟩
      else none := by
  obtain ⟨numValues, nullCount, hchunk⟩ := h
  simp only [ParquetStatsGetter.getStats, hchunk, Option.bind_eq_bind, Option.bind_some, parquetConversion]
  exact ⟨_, rfl⟩

lemma toInt16_val {x : Int} (h : InInt16 x) : (toInt16 x).val = x := by
  obtain ⟨h1, h2⟩ := h
  simp only [toInt16]
  rw [Int.bmod_eq_of_le] <;> omega

/-- A lower bound below the 16-bit integers becomes the least of them, an upper bound above them the
greatest; or there is no 16-bit integer in between. -/
def NarrowingSafe (min max : Int) : Prop :=
  max < -2 ^ 15 ∨ 2 ^ 15 ≤ min ∨
    ((-2 ^ 15 ≤ min ∨ (toInt16 min).val = -2 ^ 15) ∧ (max < 2 ^ 15 ∨ (toInt16 max).val = 2 ^ 15 - 1))

lemma narrowingSafe_iff {min max : Int} :
    (∀ x, InInt16 x → min ≤ x → x ≤ max → (toInt16 min).val ≤ x ∧ x ≤ (toInt16 max).val) ↔ NarrowingSafe min max := by
  have hlower := (toInt16 min).2.1
  have hupper := (toInt16 max).2.2
  constructor
  · intro h
    by_cases hsmall : max < -2 ^ 15 ∨ 2 ^ 15 ≤ min
    · exact hsmall.elim .inl (fun h => .inr (.inl h))
    · rw [not_or, not_lt, not_le] at hsmall
      refine .inr (.inr ⟨?_, ?_⟩)
      · by_cases hmin : -2 ^ 15 ≤ min
        · exact .inl hmin
        · have hleast := (h (-2 ^ 15) ⟨by decide, by decide⟩ (by omega) hsmall.1).1
          exact .inr (by omega)
      · by_cases hmax : max < 2 ^ 15
        · exact .inl hmax
        · have hgreatest := (h (2 ^ 15 - 1) ⟨by decide, by decide⟩ (by omega) (by omega)).2
          exact .inr (by omega)
  · rintro (hbelow | habove | ⟨hmin, hmax⟩) x hx hminx hxmax
    · exact absurd hx.1 (by omega)
    · exact absurd hx.2 (by omega)
    · constructor
      · rcases hmin with hmin | hmin
        · rw [toInt16_val ⟨hmin, hminx.trans_lt hx.2⟩]
          exact hminx
        · rw [hmin]
          exact hx.1
      · rcases hmax with hmax | hmax
        · rw [toInt16_val ⟨hx.1.trans hxmax, hmax⟩]
          exact hxmax
        · rw [hmax]
          exact Int.le_sub_one_of_lt hx.2

/-- What both getters give for 16-bit integers contains every such value of the column, and for
equal bounds they give the same. -/
structure Int2StatsSound (parquet : ParquetStatsGetter) (manifest : ManifestEntryStatsGetter) (columnName : Bytes)
    (min max : SignedInt 32) : Prop where
  rowGroup : ∀ stats, parquet.getStats columnName .int2 = some stats → CoversSmall min.val max.val stats
  entry : ∀ stats lower upper, manifest.getStats columnName .int2 = some stats →
    ManifestBounds manifest columnName lower upper → CoversSmall lower upper stats
  agree : ∀ stats stats', parquet.getStats columnName .int2 = some stats →
    manifest.getStats columnName .int2 = some stats' → ManifestBounds manifest columnName min.val max.val →
    stats.minMax = stats'.minMax

lemma manifestStats_covers {getter : ManifestEntryStatsGetter} {columnName : Bytes} {stats : GenericStats}
    {min max : Int} (h : getter.getStats columnName .int2 = some stats)
    (hbounds : ManifestBounds getter columnName min max) : CoversSmall min max stats := by
  obtain ⟨lower, upper, hstats, rfl, rfl⟩ := manifestStats_int2 hbounds h
  intro values hvalues x hx hsmall
  rw [hstats]
  exact .mk (hvalues.within x hx).1 (hvalues.within x hx).2

/-- With the same bounds both getters give these bounds, or the manifest gives none. -/
lemma stats_agree {parquet : ParquetStatsGetter} {manifest : ManifestEntryStatsGetter} {columnName : Bytes}
    {logicalType : ParquetLogicalType} {min max : SignedInt 32} (hchunk : Int32Chunk parquet columnName logicalType min max)
    {stats stats' : GenericStats} (h : parquet.getStats columnName .int2 = some stats)
    (h' : manifest.getStats columnName .int2 = some stats')
    (hbounds : ManifestBounds manifest columnName min.val max.val) : stats.minMax = stats'.minMax := by
  obtain ⟨lower, upper, hstats, hlower, hupper⟩ := manifestStats_int2 hbounds h'
  obtain ⟨count, hget⟩ := parquetStats_int2 hchunk
  rw [hget] at h
  split_ifs at h
  obtain rfl := Option.some.inj h
  have hmin : toInt16 min.val = lower := Subtype.ext (hlower ▸ toInt16_val (hlower ▸ lower.2))
  have hmax : toInt16 max.val = upper := Subtype.ext (hupper ▸ toInt16_val (hupper ▸ upper.2))
  rw [hstats, hmin, hmax]

/-- The statistics for 16-bit integers leave out no value exactly when the row group getter has none
because of the logical type, or converts each of its bounds safely. -/
theorem int2Stats_sound_iff (parquet : ParquetStatsGetter) (manifest : ManifestEntryStatsGetter) (columnName : Bytes)
    (logicalType : ParquetLogicalType) (min max : SignedInt 32) (horder : min ≤ max)
    (hchunk : Int32Chunk parquet columnName logicalType min max) :
    Int2StatsSound parquet manifest columnName min max ↔
      (valdateLogicalType .int2 logicalType = false ∨ NarrowingSafe min.val max.val) := by
  obtain ⟨count, hget⟩ := parquetStats_int2 hchunk
  have hvalues : min.val ≤ max.val := horder
  constructor
  · intro h
    cases hlogical : valdateLogicalType .int2 logicalType with
    | false => exact .inl rfl
    | true =>
      rw [if_pos hlogical] at hget
      exact .inr (narrowingSafe_iff.mp ((coversSmall_iff hvalues _ _ count).mp (h.rowGroup _ hget)))
  · intro h
    refine ⟨fun stats hstats => ?_, fun stats lower upper hstats hbounds => manifestStats_covers hstats hbounds,
      fun stats stats' hstats hstats' hbounds => stats_agree hchunk hstats hstats' hbounds⟩
    rw [hget] at hstats
    split_ifs at hstats with hlogical
    obtain rfl := Option.some.inj hstats
    rcases h with h | h
    · exact absurd hlogical (by rw [h]; decide)
    · exact (coversSmall_iff hvalues _ _ count).mpr (narrowingSafe_iff.mpr h)

/-- A row group with one column of plain 32-bit integers between two bounds. -/
def plainInt32Getter (min max : SignedInt 32) : ParquetStatsGetter where
  rgMeta := [⟨.none, some ⟨.int32, some ⟨min, max⟩, 3, some 0⟩⟩]
  nameToParquetIndex := (∅ : OrdMap Bytes Int).insert (bytes "a") 0

/-- A data file without bounds. -/
def boundlessGetter : ManifestEntryStatsGetter where
  entry := {}
  schema := ⟨0, [{ name := bytes "a", fieldId := 1, type := .int }]⟩

lemma plainInt32Getter_chunk (min max : SignedInt 32) :
    Int32Chunk (plainInt32Getter min max) (bytes "a") .none min max := ⟨3, some 0, rfl⟩

theorem int2Stats_sound_small :
    Int2StatsSound (plainInt32Getter ⟨-7, by decide⟩ ⟨300, by decide⟩) boundlessGetter (bytes "a") ⟨-7, by decide⟩
      ⟨300, by decide⟩ := by
  apply (int2Stats_sound_iff _ _ _ .none _ _ (by decide) (plainInt32Getter_chunk _ _)).mpr
  exact .inr (.inr (.inr ⟨.inl (by decide), .inl (by decide)⟩))

/-- The bounds 0 and 70000 become 0 and 4464, which leave out 5000. -/
theorem int2Stats_leave_out_value :
    HasBounds [0, 5000, 70000] 0 70000 ∧
      ¬Int2StatsSound (plainInt32Getter ⟨0, by decide⟩ ⟨70000, by decide⟩) boundlessGetter (bytes "a") ⟨0, by decide⟩
        ⟨70000, by decide⟩ := by
  refine ⟨⟨by decide, by decide, by decide⟩, fun h => ?_⟩
  have hcovers := h.rowGroup _ rfl
  have hcontains := (coversSmall_iff (by decide) _ _ _).mp hcovers 5000 ⟨by decide, by decide⟩ (by decide) (by decide)
  exact absurd hcontains.2 (by decide)

end IcebergCxx.Proofs

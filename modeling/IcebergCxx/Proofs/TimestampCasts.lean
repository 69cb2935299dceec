import IcebergCxx.Proofs.StatsRegistry

/-!
# Casts of intervals to timestamps

Both casts check the absolute values of their arguments first. The least integer has no absolute
value, so the check itself overflows there.
-/

namespace IcebergCxx.Proofs

/-- No operation overflows. -/
def Defined (operations : List SignedOperation) : Prop := ∀ op ∈ operations, ¬op.Overflows

/-- The bounds are in order, contain every cast that fits, and no operation on the way to them
overflowed. -/
structure CastSound (cast : Int → Int) (min max : Int) (result : MinMaxStats (SignedInt 64))
    (operations : List SignedOperation) : Prop where
  ordered : result.min ≤ result.max
  contains : ∀ x, min ≤ x → x ≤ max → InInt64 (cast x) → result.min.val ≤ cast x ∧ cast x ≤ result.max.val
  defined : Defined operations

/-- The cast of dates. -/
def DateCastSound (stats : MinMaxStats (SignedInt 32)) : Prop :=
  CastSound (fun x => x * microsInDay) stats.min.val stats.max.val (evaluateCastDateTimestamp stats)
    (castDateTimestampOperations stats)

/-- The cast of timestamps with a time zone. -/
def TimestamptzCastSound (stats : MinMaxStats (SignedInt 64)) (shift : SignedInt 64) : Prop :=
  CastSound (fun x => x + shift.val) stats.min.val stats.max.val (evaluateCastTimestamptzTimestamp stats shift)
    (castTimestamptzTimestampOperations stats shift)

/-! ### Operations -/

lemma defined_nil : Defined [] := by simp [Defined]

lemma defined_append {a b : List SignedOperation} : Defined (a ++ b) ↔ Defined a ∧ Defined b :=
  List.forall_mem_append

lemma defined_pair {x y : Int} (hx : InInt64 x) (hy : InInt64 y) : Defined [⟨64, x⟩, ⟨64, y⟩] := by
  simp only [InInt64, int64Min, int64Max] at hx hy
  simp only [Defined, List.forall_mem_cons, SignedOperation.Overflows, not_not]
  refine ⟨by omega, by omega, by simp⟩

lemma abs_overflows_iff {width : Nat} (x : SignedInt width) :
    SignedOperation.Overflows ⟨width, |x.val|⟩ ↔ x.val = -2 ^ (width - 1) := by
  have h1 := x.2.1
  have h2 := x.2.2
  have hnonneg := abs_nonneg x.val
  have hpow : (0 : Int) < 2 ^ (width - 1) := by positivity
  unfold SignedOperation.Overflows
  dsimp only
  constructor
  · intro h
    by_contra hne
    apply h
    refine ⟨by omega, ?_⟩
    rw [abs_lt]
    omega
  · intro h hfits
    rw [h, abs_neg, abs_of_pos hpow] at hfits
    omega

lemma defined_checkOperations {width : Nat} {bound : Int} (x : SignedInt width) (rest : List Int) :
    Defined (checkOperations width bound (x.val :: rest)) ↔ x.val ≠ -2 ^ (width - 1) ∧
      (Int.bmod |x.val| (2 ^ width) ≤ bound → Defined (checkOperations width bound rest)) := by
  rw [checkOperations, Defined, List.forall_mem_cons, abs_overflows_iff]
  split_ifs with h
  · exact and_congr_right' ⟨fun hrest _ => hrest, fun hrest => hrest h⟩
  · exact and_congr_right' ⟨fun _ hle => absurd hle h, fun _ => by simp⟩

lemma toInt64_abs_le_iff {x : SignedInt 64} (h : x.val ≠ int64Min) :
    (toInt64 |x.val|).val ≤ maxSupportedTimestamp ↔ |x.val| ≤ maxSupportedTimestamp := by
  have h1 := x.2.1
  have h2 := x.2.2
  have hfits : InInt64 |x.val| := by
    have hnonneg := abs_nonneg x.val
    simp only [int64Min] at h
    refine ⟨by simp only [int64Min]; omega, ?_⟩
    rw [abs_le]
    simp only [int64Max]
    omega
  rw [toInt64_val hfits]

/-! ### Dates -/

/-- The bounds of a column of dates other than the least one are cast soundly. -/
lemma dateCastSound_of_ne {stats : MinMaxStats (SignedInt 32)} (horder : stats.min ≤ stats.max)
    (hmin : stats.min.val ≠ -2 ^ 31) : DateCastSound stats := by
  have hlower := stats.min.2.1
  have hle : stats.min.val ≤ stats.max.val := horder
  have hmax : stats.max.val ≠ -2 ^ 31 := by omega
  have hsafe : DateCastSafe stats := fun h => hmin h.1
  have hguard : (toInt32 |stats.min.val|).val ≤ maxSupportedDate ∧ (toInt32 |stats.max.val|).val ≤ maxSupportedDate →
      InInt64 (stats.min.val * microsInDay) ∧ InInt64 (stats.max.val * microsInDay) := by
    rw [toInt32_abs hmin, toInt32_abs hmax, abs_le, abs_le]
    simp only [maxSupportedDate, InInt64, int64Min, int64Max, microsInDay]
    omega
  constructor
  · unfold evaluateCastDateTimestamp
    split_ifs with hg
    · exact toInt64_mono (hguard hg).1 (hguard hg).2 (mul_le_mul_of_nonneg_right hle (by decide))
    · decide
  · intro x hx1 hx2 hx
    have hx32 : -2 ^ (32 - 1) ≤ x ∧ x < 2 ^ (32 - 1) := ⟨hlower.trans hx1, hx2.trans_lt stats.max.2.2⟩
    have hb := evaluateCastDateTimestamp_sound (x := ⟨x, hx32⟩) hsafe hx1 hx2 hx
    have hval : (toInt64 (x * microsInDay)).val = x * microsInDay := toInt64_val hx
    exact ⟨hval ▸ Subtype.coe_le_coe.mpr hb.1, hval ▸ Subtype.coe_le_coe.mpr hb.2⟩
  · rw [castDateTimestampOperations, defined_append]
    constructor
    · rw [defined_checkOperations, defined_checkOperations]
      exact ⟨hmin, fun _ => ⟨hmax, fun _ => defined_nil⟩⟩
    · split_ifs with hg
      · exact defined_pair (hguard hg).1 (hguard hg).2
      · exact defined_nil

/-! ### Timestamps with a time zone -/

/-- The check of the shift is reached and the shift has no absolute value. -/
def ShiftOverflows (stats : MinMaxStats (SignedInt 64)) (shift : SignedInt 64) : Prop :=
  shift.val = int64Min ∧ |stats.min.val| ≤ maxSupportedTimestamp ∧ |stats.max.val| ≤ maxSupportedTimestamp

lemma timestamptzCastSound_of_ne {stats : MinMaxStats (SignedInt 64)} {shift : SignedInt 64}
    (horder : stats.min ≤ stats.max) (hmin : stats.min.val ≠ int64Min) (hshift : ¬ShiftOverflows stats shift) :
    TimestamptzCastSound stats shift := by
  have hlower := stats.min.2.1
  have hle : stats.min.val ≤ stats.max.val := horder
  have hmax : stats.max.val ≠ int64Min := by
    simp only [int64Min] at hmin ⊢
    omega
  have hreached : (toInt64 |stats.min.val|).val ≤ maxSupportedTimestamp →
      (toInt64 |stats.max.val|).val ≤ maxSupportedTimestamp → shift.val ≠ int64Min := by
    rw [toInt64_abs_le_iff hmin, toInt64_abs_le_iff hmax]
    exact fun h1 h2 h => hshift ⟨h, h1, h2⟩
  have hguard : TimestamptzGuard shift stats →
      InInt64 (stats.min.val + shift.val) ∧ InInt64 (stats.max.val + shift.val) := by
    rintro ⟨h1, h2, h3⟩
    rw [toInt64_abs_le_iff (hreached h1 h2), abs_le] at h3
    rw [toInt64_abs_le_iff hmin, abs_le] at h1
    rw [toInt64_abs_le_iff hmax, abs_le] at h2
    simp only [maxSupportedTimestamp, InInt64, int64Min, int64Max] at h1 h2 h3 ⊢
    omega
  have hsafe : TimestamptzCastSafe shift shift.val stats := by
    refine .inl ⟨rfl, ?_⟩
    rintro ⟨hg, hlt, -⟩
    exact absurd (hguard hg).1.1 (not_le.mpr hlt)
  constructor
  · unfold evaluateCastTimestamptzTimestamp
    split_ifs with hg
    · exact toInt64_mono (hguard hg).1 (hguard hg).2 (by omega)
    · decide
  · intro x hx1 hx2 hx
    have hx64 : -2 ^ (64 - 1) ≤ x ∧ x < 2 ^ (64 - 1) := ⟨hlower.trans hx1, hx2.trans_lt stats.max.2.2⟩
    have hb := evaluateCastTimestamptzTimestamp_sound (x := ⟨x, hx64⟩) hsafe hx1 hx2 hx
    have hval : (toInt64 (x + shift.val)).val = x + shift.val := toInt64_val hx
    exact ⟨hval ▸ Subtype.coe_le_coe.mpr hb.1, hval ▸ Subtype.coe_le_coe.mpr hb.2⟩
  · rw [castTimestamptzTimestampOperations, defined_append]
    constructor
    · rw [defined_checkOperations, defined_checkOperations, defined_checkOperations]
      exact ⟨hmin, fun h1 => ⟨hmax, fun h2 => ⟨hreached h1 h2, fun _ => defined_nil⟩⟩⟩
    · split_ifs with hg
      · exact defined_pair (hguard hg).1 (hguard hg).2
      · exact defined_nil

/-- All dates up to the epoch. -/
def datesToEpoch : MinMaxStats (SignedInt 32) := ⟨toInt32 (-2147483648), toInt32 0⟩

def oneDay : MinMaxStats (SignedInt 32) := ⟨⟨1, by decide⟩, ⟨1, by decide⟩⟩

def oneMoment : MinMaxStats (SignedInt 64) := ⟨⟨1, by decide⟩, ⟨1, by decide⟩⟩

end IcebergCxx.Proofs

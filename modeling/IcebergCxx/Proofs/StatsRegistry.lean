import IcebergCxx.StatsFilter
import IcebergCxx.FilterSemantics

/-!
# Soundness of the statistics registry

Statistics are sound for a result when they bound its value, and say that it may be null or
not null. Every evaluator of the registry keeps soundness; the casts to timestamps do so
when no lower bound wraps behind the check of the supported range.
-/

namespace IcebergCxx.Proofs

open Lib

/-- A value between the bounds. Bounds of a type without an order say nothing. -/
inductive InStats : GenericMinMaxStats → Scalar → Prop
  | mk {type : ValueType} {stats : MinMaxStats (PhysicalType type)} {x : PhysicalType type}
      (lower : stats.min ≤ x) (upper : x ≤ stats.max) : InStats ⟨type, stats⟩ ⟨type, x⟩
  | unordered {stats : GenericMinMaxStats} {x : Scalar} (h : stats.1.isComparable = false) : InStats stats x

/-- The statistics describe the result. -/
def Sound (stats : GenericStats) : Outcome → Prop
  | .error => True
  | .null => stats.count.containsNull = true
  | .value v => stats.count.containsNonNull = true ∧ InStats stats.minMax v

lemma Sound.of_refines {stats : GenericStats} {a b : Outcome} (h : a.Refines b) (hb : Sound stats b) :
    Sound stats a := by
  rcases h with rfl | rfl
  · trivial
  · exact hb

/-- Bounds of booleans allow the truth value. -/
def Allows (stats : BoolStats) (t : Truth) : Prop := t.Within stats.min stats.max

instance (stats : BoolStats) (t : Truth) : Decidable (Allows stats t) := inferInstanceAs (Decidable (Truth.Within _ _ _))

lemma allows_add {useOr : Bool} {stats stats' : BoolStats} {s t : Truth} (hs : Allows stats s) (ht : Allows stats' t) :
    Allows (BoolStatsAggregator.add useOr stats stats') (s.join useOr t) := by
  obtain ⟨a, b⟩ := stats
  obtain ⟨c, d⟩ := stats'
  cases s <;> cases t <;> revert hs ht <;> decide +revert

lemma allows_unknown (t : Truth) : Allows boolStatsUnknown t := by
  cases t <;> decide +revert

lemma allows_final {useOr : Bool} {stats : BoolStats} {t : Truth} (hf : BoolStatsAggregator.isFinal useOr stats = true)
    (h : Allows stats t) (l : List Truth) : Allows stats (l.foldl (Truth.join useOr) t) := by
  have heq : stats = ⟨useOr, useOr⟩ := by
    have := of_decide_eq_true hf
    cases useOr <;> exact this
  subst heq
  exact Truth.within_foldl_absorbing h l

/-- Sound boolean statistics allow the truth value of the result. -/
lemma Sound.allows {stats : GenericStats} {out : Outcome} {b : BoolStats} (h : Sound stats out)
    (hb : stats.getBool = .ok b) : Allows b out.toTruth := by
  obtain ⟨⟨type, m⟩, count⟩ := stats
  cases type <;> simp only [GenericStats.getBool, reduceCtorEq] at hb
  obtain rfl := Except.ok.inj hb
  intro x hx
  cases out with
  | error => cases hx
  | null => cases hx
  | value v =>
    obtain ⟨-, hin⟩ := h
    cases hin with
    | mk lower upper =>
      obtain rfl := Truth.known.inj hx
      exact ⟨lower, upper⟩
    | unordered h => cases h

/-- Statistics that allow a truth value and leave the counts open are sound for it. -/
lemma sound_result {b : BoolStats} {t : Truth} (h : Allows b t) :
    Sound (BoolStatsAggregator.result b) (Outcome.ofTruth t) := by
  cases t with
  | fail => trivial
  | unknown => rfl
  | known x => exact ⟨rfl, .mk (h x rfl).1 (h x rfl).2⟩

/-! ### Comparisons -/

section
variable {α : Type} [LinearOrder α] {l r : MinMaxStats α} {x y : α}

omit [LinearOrder α] in
/-- A comparison is decided by its values at the corners. -/
lemma allows_monotoneComparison {f : α → α → Bool}
    (hlow : f x y = true → f l.min r.max = true ∨ f l.max r.min = true)
    (hhigh : f l.min r.max = true → f l.max r.min = true → f x y = true) :
    Allows (evaluateMonotoneComparison f l r) (.known (f x y)) := by
  unfold evaluateMonotoneComparison
  simp only [List.all_cons, List.all_nil, Bool.and_true]
  generalize f l.min r.min = c1
  generalize f l.min r.max = c2 at *
  generalize f l.max r.min = c3 at *
  generalize f l.max r.max = c4
  generalize f x y = c at *
  revert hlow hhigh
  revert c1 c2 c3 c4 c
  decide

variable (hx : l.min ≤ x ∧ x ≤ l.max) (hy : r.min ≤ y ∧ y ≤ r.max)
include hx hy

lemma allows_less : Allows (evaluateLess l r) (.known (decide (x < y))) := by
  apply allows_monotoneComparison (f := fun a b => decide (a < b))
  · intro h
    exact .inl (decide_eq_true ((hx.1.trans_lt (of_decide_eq_true h)).trans_le hy.2))
  · intro _ h
    exact decide_eq_true ((hx.2.trans_lt (of_decide_eq_true h)).trans_le hy.1)

lemma allows_greater : Allows (evaluateGreater l r) (.known (decide (y < x))) := by
  apply allows_monotoneComparison (f := fun a b => decide (b < a))
  · intro h
    exact .inr (decide_eq_true ((hy.1.trans_lt (of_decide_eq_true h)).trans_le hx.2))
  · intro h _
    exact decide_eq_true ((hy.2.trans_lt (of_decide_eq_true h)).trans_le hx.1)

lemma allows_lessThanOrEqualTo : Allows (evaluateLessThanOrEqualTo l r) (.known (decide (x ≤ y))) := by
  apply allows_monotoneComparison (f := fun a b => decide (a ≤ b))
  · intro h
    exact .inl (decide_eq_true ((hx.1.trans (of_decide_eq_true h)).trans hy.2))
  · intro _ h
    exact decide_eq_true ((hx.2.trans (of_decide_eq_true h)).trans hy.1)

lemma allows_greaterThanOrEqualTo : Allows (evaluateGreaterThanOrEqualTo l r) (.known (decide (y ≤ x))) := by
  apply allows_monotoneComparison (f := fun a b => decide (b ≤ a))
  · intro h
    exact .inr (decide_eq_true ((hy.1.trans (of_decide_eq_true h)).trans hx.2))
  · intro h _
    exact decide_eq_true ((hy.2.trans (of_decide_eq_true h)).trans hx.1)

lemma allows_equal : Allows (evaluateEqual l r) (.known (decide (x = y))) := by
  have h := @allows_add false _ _ _ _ (allows_lessThanOrEqualTo hx hy) (allows_greaterThanOrEqualTo hx hy)
  have hjoin : (Truth.known (decide (x ≤ y))).join false (.known (decide (y ≤ x))) = .known (decide (x = y)) := by
    simp [Truth.join, le_antisymm_iff]
  rw [hjoin] at h
  exact h

/-- The registered evaluator of a comparison. -/
lemma allows_binaryEvaluator {functionId : FunctionID} {evaluator : MinMaxStats α → MinMaxStats α → BoolStats}
    (h : binaryEvaluator functionId = some evaluator) :
    Allows (evaluator l r) (.known (comparator functionId x y)) := by
  cases functionId <;> simp only [binaryEvaluator, Option.some.injEq, reduceCtorEq] at h <;> subst h
  case lessThan => exact allows_less hx hy
  case lessThanOrEqualTo => exact allows_lessThanOrEqualTo hx hy
  case greaterThan => exact allows_greater hx hy
  case greaterThanOrEqualTo => exact allows_greaterThanOrEqualTo hx hy
  case equal => exact allows_equal hx hy
  case notEqual =>
    have hnot := Truth.within_not (allows_equal hx hy)
    have hne : (Truth.known (decide (x = y))).not = .known (decide (x ≠ y)) := by simp [Truth.not]
    rw [hne] at hnot
    exact hnot

end

lemma comparable_of_evaluateBinary {functionId : FunctionID} {lhs rhs result : GenericStats}
    (h : evaluateBinary functionId lhs rhs = .ok result) :
    rhs.minMax.1 = lhs.minMax.1 ∧ lhs.minMax.1.isComparable = true := by
  unfold evaluateBinary at h
  split_ifs at h with heq hcomp
  exact ⟨heq, hcomp⟩

lemma InStats.not_unordered {stats : GenericMinMaxStats} {x : Scalar} (h : InStats stats x)
    (hcomp : stats.1.isComparable = true) :
    ∃ y : PhysicalType stats.1, x = ⟨stats.1, y⟩ ∧ stats.2.min ≤ y ∧ y ≤ stats.2.max := by
  cases h with
  | mk lower upper => exact ⟨_, rfl, lower, upper⟩
  | unordered h => simp [h] at hcomp

/-- Comparing two values of one type. -/
lemma compareSame_sound {functionId : FunctionID} {lhs rhs result : GenericStats} {x y : Scalar}
    (hx : InStats lhs.minMax x) (hy : InStats rhs.minMax y) (hl : lhs.count.containsNonNull = true)
    (h : evaluateBinary functionId lhs rhs = .ok result) :
    ∃ out, compareSame functionId x y = some out ∧ Sound result out := by
  obtain ⟨heq, hcomp⟩ := comparable_of_evaluateBinary h
  obtain ⟨x, rfl, lower, upper⟩ := hx.not_unordered hcomp
  obtain ⟨y, rfl, lower', upper'⟩ := hy.not_unordered (heq ▸ hcomp)
  obtain ⟨⟨lt, l⟩, lc⟩ := lhs
  obtain ⟨⟨rt, r⟩, rc⟩ := rhs
  simp only at heq
  subst heq
  simp only [evaluateBinary, dite_true, hcomp, if_true] at h
  split at h
  · rename_i evaluator hev
    obtain rfl := Except.ok.inj h
    have hbound := allows_binaryEvaluator ⟨lower, upper⟩ ⟨lower', upper'⟩ hev
    simp only [compareSame, dite_true, hcomp, if_true]
    refine ⟨_, rfl, ?_, .mk (hbound _ rfl).1 (hbound _ rfl).2⟩
    simp only at hl
    simp [hl]
  · cases h

/-- A comparison with a null operand. -/
lemma evaluateBinary_null {functionId : FunctionID} {lhs rhs result : GenericStats}
    (h : evaluateBinary functionId lhs rhs = .ok result)
    (hn : lhs.count.containsNull = true ∨ rhs.count.containsNull = true) : result.count.containsNull = true := by
  unfold evaluateBinary at h
  split_ifs at h
  split at h
  · obtain rfl := Except.ok.inj h
    rcases hn with hn | hn <;> simp [hn]
  · cases h

/-! ### Casts -/

lemma toInt64_val {x : Int} (h : InInt64 x) : (toInt64 x).val = x := wrapInt64_of_inInt64 h

lemma toInt32_val {x : Int} (h : -2 ^ 31 ≤ x ∧ x < 2 ^ 31) : (toInt32 x).val = x := by
  obtain ⟨h1, h2⟩ := h
  simp only [toInt32]
  rw [Int.bmod_eq_of_le] <;> omega

lemma inInt64_of_signed16 (x : SignedInt 16) : InInt64 x.val := by
  have h1 := x.2.1
  have h2 := x.2.2
  simp only [InInt64, int64Min, int64Max]
  omega

lemma inInt64_of_signed32 (x : SignedInt 32) : InInt64 x.val := by
  have h1 := x.2.1
  have h2 := x.2.2
  simp only [InInt64, int64Min, int64Max]
  omega

lemma inInt64_of_signed64 (x : SignedInt 64) : InInt64 x.val := by
  have h1 := x.2.1
  have h2 := x.2.2
  simp only [InInt64, int64Min, int64Max]
  omega

lemma signed16_bounds (x : SignedInt 16) : -2 ^ 31 ≤ x.val ∧ x.val < 2 ^ 31 := by
  have h1 := x.2.1
  have h2 := x.2.2
  omega

lemma toInt32_mono {x y : SignedInt 16} (h : x ≤ y) : toInt32 x.val ≤ toInt32 y.val := by
  apply Subtype.coe_le_coe.mp
  rw [toInt32_val (signed16_bounds x), toInt32_val (signed16_bounds y)]
  exact h

lemma toInt64_mono {x y : Int} (hx : InInt64 x) (hy : InInt64 y) (h : x ≤ y) : toInt64 x ≤ toInt64 y := by
  apply Subtype.coe_le_coe.mp
  rw [toInt64_val hx, toInt64_val hy]
  exact h

lemma castToInt4_count (stats : GenericStats) : (castToInt4 stats).count = stats.count := by
  unfold castToInt4
  split <;> rfl

lemma castToInt8_count (stats : GenericStats) : (castToInt8 stats).count = stats.count := by
  unfold castToInt8
  split <;> rfl

lemma castToInt4_inStats {stats : GenericStats} {x : Scalar} (h : InStats stats.minMax x) :
    InStats (castToInt4 stats).minMax (widenToInt4 x) := by
  obtain ⟨⟨type, m⟩, count⟩ := stats
  cases h with
  | mk lower upper =>
    cases type <;> try exact .mk lower upper
    exact .mk (toInt32_mono lower) (toInt32_mono upper)
  | unordered h => cases type <;> exact .unordered h

lemma castToInt8_inStats {stats : GenericStats} {x : Scalar} (h : InStats stats.minMax x) :
    InStats (castToInt8 stats).minMax (widenToInt8 x) := by
  obtain ⟨⟨type, m⟩, count⟩ := stats
  cases h with
  | mk lower upper =>
    cases type <;> try exact .mk lower upper
    · exact .mk (toInt64_mono (inInt64_of_signed16 _) (inInt64_of_signed16 _) lower)
        (toInt64_mono (inInt64_of_signed16 _) (inInt64_of_signed16 _) upper)
    · exact .mk (toInt64_mono (inInt64_of_signed32 _) (inInt64_of_signed32 _) lower)
        (toInt64_mono (inInt64_of_signed32 _) (inInt64_of_signed32 _) upper)
  | unordered h => cases type <;> exact .unordered h

/-! ### Casts to timestamps -/

lemma inStats_allTimestamps (x : SignedInt 64) : allTimestamps.min ≤ x ∧ x ≤ allTimestamps.max :=
  inInt64_of_signed64 x

/-- The least 32-bit integer is its own absolute value and so passes the check of the supported
range; the cast of such a lower bound wraps. -/
def DateCastSafe (stats : MinMaxStats (SignedInt 32)) : Prop :=
  ¬(stats.min.val = -2 ^ 31 ∧ |stats.max.val| ≤ maxSupportedDate)

lemma toInt32_abs {x : SignedInt 32} (h : x.val ≠ -2 ^ 31) : (toInt32 |x.val|).val = |x.val| := by
  have h1 := x.2.1
  have h2 := x.2.2
  apply toInt32_val
  constructor
  · have := abs_nonneg x.val
    omega
  · rw [abs_lt]
    omega

lemma evaluateCastDateTimestamp_sound {stats : MinMaxStats (SignedInt 32)} {x : SignedInt 32}
    (hsafe : DateCastSafe stats) (lower : stats.min ≤ x) (upper : x ≤ stats.max)
    (hx : InInt64 (x.val * microsInDay)) :
    (evaluateCastDateTimestamp stats).min ≤ toInt64 (x.val * microsInDay) ∧
      toInt64 (x.val * microsInDay) ≤ (evaluateCastDateTimestamp stats).max := by
  have hlow : stats.min.val ≤ x.val := lower
  have hhigh : x.val ≤ stats.max.val := upper
  have h1 := stats.min.2.1
  unfold evaluateCastDateTimestamp
  by_cases hmax : stats.max.val = -2 ^ 31
  · -- then the only date is the least one, which has no timestamp
    have hxval : x.val = -2 ^ 31 := by omega
    rw [hxval] at hx
    exact absurd hx (by decide)
  · rw [toInt32_abs hmax]
    split_ifs with hg
    · have hmin : stats.min.val ≠ -2 ^ 31 := fun h => hsafe ⟨h, hg.2⟩
      rw [toInt32_abs hmin, abs_le, abs_le] at hg
      simp only [maxSupportedDate] at hg
      have hminIn : InInt64 (stats.min.val * microsInDay) := by
        simp only [InInt64, int64Min, int64Max, microsInDay]
        omega
      have hmaxIn : InInt64 (stats.max.val * microsInDay) := by
        simp only [InInt64, int64Min, int64Max, microsInDay]
        omega
      have hday : 0 ≤ microsInDay := by decide
      exact ⟨toInt64_mono hminIn hx (mul_le_mul_of_nonneg_right hlow hday),
        toInt64_mono hx hmaxIn (mul_le_mul_of_nonneg_right hhigh hday)⟩
    · exact inStats_allTimestamps _

/-- The bounds and the shift pass the check of the supported range. -/
def TimestamptzGuard (shift : SignedInt 64) (stats : MinMaxStats (SignedInt 64)) : Prop :=
  (toInt64 |stats.min.val|).val ≤ maxSupportedTimestamp ∧ (toInt64 |stats.max.val|).val ≤ maxSupportedTimestamp ∧
    (toInt64 |shift.val|).val ≤ maxSupportedTimestamp

/-- The cast moves a timestamptz by `delta`: the filter's own shift does so, unless the sum of the
lower bound wraps while that of the upper bound does not. A shift beyond the supported range
makes the bounds say nothing. -/
def TimestamptzCastSafe (shift : SignedInt 64) (delta : Int) (stats : MinMaxStats (SignedInt 64)) : Prop :=
  (delta = shift.val ∧ ¬(TimestamptzGuard shift stats ∧ stats.min.val + shift.val < int64Min ∧
      int64Min ≤ stats.max.val + shift.val)) ∨
    maxSupportedTimestamp < (toInt64 |shift.val|).val

/-- The check bounds an integer from above, though the least integer passes it. -/
lemma le_of_toInt64_abs {x : SignedInt 64} (h : (toInt64 |x.val|).val ≤ maxSupportedTimestamp) :
    x.val ≤ maxSupportedTimestamp := by
  by_contra hlt
  have h2 := x.2.2
  simp only [maxSupportedTimestamp] at h hlt
  have hx : |x.val| = x.val := abs_of_nonneg (by omega)
  rw [hx, toInt64_val (inInt64_of_signed64 x)] at h
  omega

lemma evaluateCastTimestamptzTimestamp_sound {stats : MinMaxStats (SignedInt 64)} {x shift : SignedInt 64} {delta : Int}
    (hsafe : TimestamptzCastSafe shift delta stats) (lower : stats.min ≤ x) (upper : x ≤ stats.max)
    (hx : InInt64 (x.val + delta)) :
    (evaluateCastTimestamptzTimestamp stats shift).min ≤ toInt64 (x.val + delta) ∧
      toInt64 (x.val + delta) ≤ (evaluateCastTimestamptzTimestamp stats shift).max := by
  have hlow : stats.min.val ≤ x.val := lower
  have hhigh : x.val ≤ stats.max.val := upper
  unfold evaluateCastTimestamptzTimestamp
  split_ifs with hg
  · rcases hsafe with ⟨rfl, hwrap⟩ | hbig
    · have hmax := le_of_toInt64_abs hg.2.1
      have hshift := le_of_toInt64_abs hg.2.2
      have hx1 := hx.1
      simp only [maxSupportedTimestamp] at hmax hshift
      have hminLow : int64Min ≤ stats.min.val + shift.val := by
        by_contra hlt
        exact hwrap ⟨hg, not_le.mp hlt, by omega⟩
      have hminIn : InInt64 (stats.min.val + shift.val) := ⟨hminLow, by simp only [int64Max]; omega⟩
      have hmaxIn : InInt64 (stats.max.val + shift.val) := ⟨by omega, by simp only [int64Max]; omega⟩
      exact ⟨toInt64_mono hminIn hx (by omega), toInt64_mono hx hmaxIn (by omega)⟩
    · exact absurd hg.2.2 (not_le.mpr hbig)
  · exact inStats_allTimestamps _

/-- A cast of one argument to a timestamp that keeps soundness. -/
def CastSafe (shift : Option (SignedInt 64)) (delta : Int) (stats : GenericStats) : Prop :=
  match stats.minMax with
  | ⟨.date, m⟩ => DateCastSafe m
  | ⟨.timestamptz, m⟩ => ∀ s, shift = some s → TimestamptzCastSafe s delta m
  | _ => True

lemma castToTimestamp_count {shift : Option (SignedInt 64)} {stats stats' : GenericStats}
    (h : castToTimestamp shift stats = .ok stats') : stats'.count = stats.count := by
  unfold castToTimestamp at h
  split at h
  · obtain rfl := Except.ok.inj h
    rfl
  · split at h
    · cases h
    · obtain rfl := Except.ok.inj h
      rfl
  · obtain rfl := Except.ok.inj h
    rfl

lemma castToTimestamp_inStats {shift : Option (SignedInt 64)} {delta : Int} {stats stats' : GenericStats}
    {x x' : Scalar} (hsafe : CastSafe shift delta stats) (h : castToTimestamp shift stats = .ok stats')
    (hx : InStats stats.minMax x) (hx' : scalarToTimestamp delta x = some x') : InStats stats'.minMax x' := by
  obtain ⟨⟨type, m⟩, count⟩ := stats
  cases hx with
  | mk lower upper =>
    cases type
    case date =>
      obtain rfl := Except.ok.inj h
      simp only [scalarToTimestamp, exactTimestamp] at hx'
      split_ifs at hx' with hin
      obtain rfl := Option.some.inj hx'
      have hb := evaluateCastDateTimestamp_sound hsafe lower upper hin
      exact .mk hb.1 hb.2
    case timestamptz =>
      simp only [castToTimestamp] at h
      split at h
      · cases h
      · rename_i s
        obtain rfl := Except.ok.inj h
        simp only [scalarToTimestamp, exactTimestamp] at hx'
        split_ifs at hx' with hin
        obtain rfl := Option.some.inj hx'
        have hb := evaluateCastTimestamptzTimestamp_sound (hsafe s rfl) lower upper hin
        exact .mk hb.1 hb.2
    all_goals
      obtain rfl := Except.ok.inj h
      obtain rfl := Option.some.inj hx'
      exact .mk lower upper
  | unordered hcomp =>
    cases type <;> try cases hcomp
    all_goals
      obtain rfl := Except.ok.inj h
      exact .unordered rfl

/-! ### The registry as a whole -/

lemma InStats.type_eq {stats : GenericMinMaxStats} {x : Scalar} (h : InStats stats x)
    (hcomp : stats.1.isComparable = true) : x.1 = stats.1 := by
  obtain ⟨y, rfl, -⟩ := h.not_unordered hcomp
  rfl

lemma areTypes_comparable {a b : ValueType} {lhs rhs : GenericStats} (h : areTypes a b lhs rhs = true)
    (ha : a.isComparable = true) (hb : b.isComparable = true) :
    lhs.minMax.1.isComparable = true ∧ rhs.minMax.1.isComparable = true := by
  rcases of_decide_eq_true h with ⟨h1, h2⟩ | ⟨h1, h2⟩
  · rw [h1, h2]
    exact ⟨ha, hb⟩
  · rw [h1, h2]
    exact ⟨hb, ha⟩

/-- The comparison casts its operands to timestamps. -/
def comparesTimestamps (lhs rhs : GenericStats) : Bool :=
  areTypes .timestamp .timestamptz lhs rhs || areTypes .timestamp .date lhs rhs || areTypes .timestamptz .date lhs rhs

/-- A comparison whose operands meet `castSafe` when they are cast to timestamps. -/
def PairSafe (castSafe : GenericStats → Prop) (lhs rhs : GenericStats) : Prop :=
  comparesTimestamps lhs rhs = true → castSafe lhs ∧ castSafe rhs

lemma castToSameTypeForComparison_count {shift : Option (SignedInt 64)} {lhs rhs lhs' rhs' : GenericStats}
    (h : castToSameTypeForComparison shift lhs rhs = .ok (lhs', rhs')) :
    lhs'.count = lhs.count ∧ rhs'.count = rhs.count := by
  unfold castToSameTypeForComparison at h
  split_ifs at h
  · cases h
    exact ⟨rfl, rfl⟩
  · cases h
    exact ⟨castToInt4_count lhs, castToInt4_count rhs⟩
  · cases h
    exact ⟨castToInt8_count lhs, castToInt8_count rhs⟩
  · cases hl : castToTimestamp shift lhs with
    | error e =>
      rw [hl] at h
      cases h
    | ok l =>
      cases hr : castToTimestamp shift rhs with
      | error e =>
        rw [hl, hr] at h
        cases h
      | ok r =>
        rw [hl, hr] at h
        cases h
        exact ⟨castToTimestamp_count hl, castToTimestamp_count hr⟩

/-- Only ordered types are compared. -/
lemma comparable_of_castToSame {shift : Option (SignedInt 64)} {functionId : FunctionID}
    {lhs rhs lhs' rhs' result : GenericStats} (hcast : castToSameTypeForComparison shift lhs rhs = .ok (lhs', rhs'))
    (h : evaluateBinary functionId lhs' rhs' = .ok result) :
    lhs.minMax.1.isComparable = true ∧ rhs.minMax.1.isComparable = true := by
  unfold castToSameTypeForComparison at hcast
  split_ifs at hcast with hsame h24 h48 hts
  · cases hcast
    obtain ⟨heq, hcomp⟩ := comparable_of_evaluateBinary h
    exact ⟨hcomp, heq ▸ hcomp⟩
  · exact areTypes_comparable h24 rfl rfl
  · rcases Bool.or_eq_true_iff.mp h48 with h | h <;> exact areTypes_comparable h rfl rfl
  · rcases Bool.or_eq_true_iff.mp hts with h | h
    · rcases Bool.or_eq_true_iff.mp h with h | h <;> exact areTypes_comparable h rfl rfl
    · exact areTypes_comparable h rfl rfl

/-- Comparing two values on their bounds. -/
lemma compareScalars_sound {shift : Option (SignedInt 64)} {delta : Int} {functionId : FunctionID}
    {lhs rhs lhs' rhs' result : GenericStats} {x y : Scalar} (hsafe : PairSafe (CastSafe shift delta) lhs rhs)
    (hcast : castToSameTypeForComparison shift lhs rhs = .ok (lhs', rhs'))
    (h : evaluateBinary functionId lhs' rhs' = .ok result) (hx : InStats lhs.minMax x) (hy : InStats rhs.minMax y)
    (hl : lhs.count.containsNonNull = true) :
    ∃ out, compareScalars delta functionId x y = some out ∧ Sound result out := by
  have hl' : lhs'.count.containsNonNull = true := by rw [(castToSameTypeForComparison_count hcast).1, hl]
  obtain ⟨hcompl, hcompr⟩ := comparable_of_castToSame hcast h
  unfold castToSameTypeForComparison at hcast
  unfold compareScalars
  have htypes : ∀ a b, areScalarTypes a b x y = areTypes a b lhs rhs := by
    intro a b
    simp only [areScalarTypes, areTypes, hx.type_eq hcompl, hy.type_eq hcompr]
  simp only [htypes, hx.type_eq hcompl, hy.type_eq hcompr]
  split_ifs at hcast ⊢ with hsame h24 h48 hts
  · cases hcast
    exact compareSame_sound hx hy hl' h
  · cases hcast
    exact compareSame_sound (castToInt4_inStats hx) (castToInt4_inStats hy) hl' h
  · cases hcast
    exact compareSame_sound (castToInt8_inStats hx) (castToInt8_inStats hy) hl' h
  · obtain ⟨hsafel, hsafer⟩ := hsafe hts
    cases hcl : castToTimestamp shift lhs with
    | error e =>
      rw [hcl] at hcast
      cases hcast
    | ok l =>
      cases hcr : castToTimestamp shift rhs with
      | error e =>
        rw [hcl, hcr] at hcast
        cases hcast
      | ok r =>
        rw [hcl, hcr] at hcast
        cases hcast
        cases hsx : scalarToTimestamp delta x with
        | none => exact ⟨_, rfl, trivial⟩
        | some x' =>
          cases hsy : scalarToTimestamp delta y with
          | none => exact ⟨_, rfl, trivial⟩
          | some y' =>
            exact compareSame_sound (castToTimestamp_inStats hsafel hcl hx hsx)
              (castToTimestamp_inStats hsafer hcr hy hsy) hl' h

/-- A comparison evaluated by the registry. -/
lemma registryEvaluate_comparison {shift : Option (SignedInt 64)} {delta : Int} {functionId : FunctionID}
    {lhs rhs result : GenericStats} {a b : Outcome} (hcmp : functionId.isComparison = true)
    (h : registryEvaluate shift functionId [lhs, rhs] = .ok result) (ha : Sound lhs a) (hb : Sound rhs b)
    (hsafe : PairSafe (CastSafe shift delta) lhs rhs) :
    ∃ out, compareOutcomes delta functionId a b = some out ∧ Sound result out := by
  simp only [registryEvaluate, hcmp, if_true] at h
  cases hcast : castToSameTypeForComparison shift lhs rhs with
  | error e =>
    rw [hcast] at h
    cases h
  | ok pair =>
    obtain ⟨lhs', rhs'⟩ := pair
    rw [hcast] at h
    replace h : evaluateBinary functionId lhs' rhs' = .ok result := h
    obtain ⟨hcl, hcr⟩ := castToSameTypeForComparison_count hcast
    cases a with
    | error => exact ⟨.error, by cases b <;> rfl, trivial⟩
    | null =>
      cases b with
      | error => exact ⟨.error, rfl, trivial⟩
      | null => exact ⟨.null, rfl, evaluateBinary_null h (.inl (hcl ▸ ha))⟩
      | value y => exact ⟨.null, rfl, evaluateBinary_null h (.inl (hcl ▸ ha))⟩
    | value x =>
      cases b with
      | error => exact ⟨.error, rfl, trivial⟩
      | null => exact ⟨.null, rfl, evaluateBinary_null h (.inr (hcr ▸ hb))⟩
      | value y => exact compareScalars_sound hsafe hcast h ha.2 hb.2 ha.1

/-- Only comparisons are registered with two arguments. -/
lemma isComparison_of_registryEvaluate {shift : Option (SignedInt 64)} {functionId : FunctionID}
    {lhs rhs result : GenericStats} (h : registryEvaluate shift functionId [lhs, rhs] = .ok result) :
    functionId.isComparison = true := by
  by_contra hcmp
  simp only [registryEvaluate, hcmp] at h
  replace h : evaluateBinary functionId lhs rhs = .ok result := h
  unfold evaluateBinary at h
  split_ifs at h
  cases functionId <;> simp_all [binaryEvaluator, FunctionID.isComparison]

lemma evaluateIsNull_sound {stats : GenericStats} {out : Outcome} (h : Sound stats out) :
    Sound (evaluateIsNull stats) (isNullOutcome out) := by
  obtain ⟨minMax, containsNull, containsNonNull⟩ := stats
  cases out with
  | error => trivial
  | null =>
    obtain rfl : containsNull = true := h
    exact ⟨rfl, .mk (Bool.le_true _) le_rfl⟩
  | value v =>
    obtain rfl : containsNonNull = true := h.1
    exact ⟨rfl, .mk le_rfl (Bool.false_le _)⟩

lemma castOutcome_sound {functionId : FunctionID} {stats result : GenericStats} {a : Outcome} (f : Scalar → Scalar)
    (ha : Sound stats a) (hcount : result.count = stats.count)
    (hin : ∀ x, InStats stats.minMax x →
      castOutcome functionId (.value x) = some (.value (f x)) ∧ InStats result.minMax (f x)) :
    ∃ out, castOutcome functionId a = some out ∧ Sound result out := by
  cases a with
  | error => exact ⟨.error, rfl, trivial⟩
  | null => exact ⟨.null, rfl, (congrArg CountStats.containsNull hcount).trans ha⟩
  | value x =>
    obtain ⟨hcast, hres⟩ := hin x ha.2
    exact ⟨_, hcast, (congrArg CountStats.containsNonNull hcount).trans ha.1, hres⟩

/-- The functions of one argument. -/
lemma evaluateUnary_sound {functionId : FunctionID} {stats result : GenericStats} {a : Outcome}
    (h : evaluateUnary functionId stats = .ok result) (ha : Sound stats a) :
    (functionId = .isNull ∧ Sound result (isNullOutcome a)) ∨
      ((functionId = .castInt4 ∨ functionId = .castInt8) ∧
        ∃ out, castOutcome functionId a = some out ∧ Sound result out) := by
  obtain ⟨⟨type, m⟩, count⟩ := stats
  unfold evaluateUnary at h
  split at h
  · rename_i m' heq
    cases heq
    cases h
    refine .inr ⟨.inl rfl, castOutcome_sound widenToInt4 ha rfl ?_⟩
    intro x hx
    refine ⟨?_, castToInt4_inStats hx⟩
    obtain ⟨y, rfl, -⟩ := hx.not_unordered rfl
    rfl
  · rename_i m' heq
    cases heq
    cases h
    refine .inr ⟨.inr rfl, castOutcome_sound widenToInt8 ha rfl ?_⟩
    intro x hx
    refine ⟨?_, castToInt8_inStats hx⟩
    obtain ⟨y, rfl, -⟩ := hx.not_unordered rfl
    rfl
  · rename_i m' heq
    cases heq
    cases h
    refine .inr ⟨.inr rfl, castOutcome_sound widenToInt8 ha rfl ?_⟩
    intro x hx
    refine ⟨?_, castToInt8_inStats hx⟩
    obtain ⟨y, rfl, -⟩ := hx.not_unordered rfl
    rfl
  · cases h
    exact .inl ⟨rfl, evaluateIsNull_sound ha⟩
  · cases h

end IcebergCxx.Proofs

import IcebergCxx.Proofs.RowFilter

/-!
# The two filters on mixed timestamps

The statistics filter moves a timestamptz by the shift and the row filter by the negated shift.
They agree when the shift is zero, and when it is beyond the supported range, where the bounds of
the statistics filter say nothing.
-/

namespace IcebergCxx.Proofs

open Lib GandivaNode

/-- Date bounds that the cast to timestamps keeps. -/
def DateBoundsSafe (stats : GenericStats) : Prop :=
  match stats.minMax with
  | ⟨.date, m⟩ => DateCastSafe m
  | _ => True

/-- A comparison of a timestamptz expression with a timestamp or date expression. -/
def ShiftComparison (parseDecimal : Bytes → Option (Int × Int)) (resolver : ArrowFieldResolver) (shift : SignedInt 64)
    (root : Node) : Prop :=
  ∃ signature l r gl gr, root = .function signature [l, r] ∧ signature.functionId.isComparison = true ∧
    visitRow parseDecimal resolver shift l = .ok gl ∧ visitRow parseDecimal resolver shift r = .ok gr ∧
    (gl.returnType = .timestamptz ∧ (gr.returnType = .timestamp ∨ gr.returnType = .date32) ∨
      gr.returnType = .timestamptz ∧ (gl.returnType = .timestamp ∨ gl.returnType = .date32))

/-- When the statistics filter skips a row group, the row filter selects none of its rows. -/
def SkipsUnselected (lib : String → List Outcome → Outcome) (parseDecimal : Bytes → Option (Int × Int))
    (resolver : ArrowFieldResolver) (shift : SignedInt 64) (getter : StatsGetter)
    (rowGroup : List (Bytes → Option Scalar)) (root : Node) : Prop :=
  StatsFilter.applyFilter getter (some shift) (some root) = .none →
    ∀ cells ∈ rowGroup, rowFilterOutcome lib cells parseDecimal resolver shift root ≠ .truth true

/-- The shift is zero, or beyond what the statistics filter supports. -/
def HarmlessShift (shift : SignedInt 64) : Prop := shift.val = 0 ∨ maxSupportedTimestamp < |shift.val|

lemma toInt64_abs {x : SignedInt 64} (h : x.val ≠ int64Min) : (toInt64 |x.val|).val = |x.val| := by
  have h1 := x.2.1
  have h2 := x.2.2
  simp only [int64Min] at h
  apply toInt64_val
  constructor
  · have := abs_nonneg x.val
    simp only [int64Min]
    omega
  · rw [abs_le]
    simp only [int64Max]
    omega

lemma rowShift_eq {shift : SignedInt 64} (h : shift.val ≠ int64Min) : rowShift shift = -shift.val := by
  have h1 := shift.2.1
  have h2 := shift.2.2
  simp only [int64Min] at h
  apply toInt64_val
  simp only [InInt64, int64Min, int64Max]
  omega

/-- A harmless shift makes every cast of a timestamptz safe. -/
lemma castSafe_of_harmless {shift : SignedInt 64} (hmin : shift.val ≠ int64Min) (h : HarmlessShift shift)
    (stats : GenericStats) (hdate : DateBoundsSafe stats) : CastSafe (some shift) (rowShift shift) stats := by
  obtain ⟨⟨type, m⟩, count⟩ := stats
  cases type <;> try trivial
  intro s hs
  obtain rfl := Option.some.inj hs
  rcases h with h | h
  · left
    refine ⟨by rw [rowShift_eq hmin, h]; rfl, ?_⟩
    rintro ⟨-, hlow, -⟩
    have := (inInt64_of_signed64 m.min).1
    omega
  · right
    rw [toInt64_abs hmin]
    exact h

/-! ### A comparison on which the filters differ -/

lemma evaluateEqual_of_ne {α : Type} [LinearOrder α] {a b : α} (h : a ≠ b) :
    evaluateEqual ⟨a, a⟩ ⟨b, b⟩ = boolStatsFalse := by
  rcases lt_or_gt_of_ne h with hlt | hlt
  · have hle : evaluateLessThanOrEqualTo ⟨a, a⟩ ⟨b, b⟩ = boolStatsTrue := by
      simp [evaluateLessThanOrEqualTo, evaluateMonotoneComparison, hlt.le]
    have hge : evaluateGreaterThanOrEqualTo ⟨a, a⟩ ⟨b, b⟩ = boolStatsFalse := by
      simp [evaluateGreaterThanOrEqualTo, evaluateMonotoneComparison, hlt]
    rw [evaluateEqual, hle, hge]
    decide
  · have hle : evaluateLessThanOrEqualTo ⟨a, a⟩ ⟨b, b⟩ = boolStatsFalse := by
      simp [evaluateLessThanOrEqualTo, evaluateMonotoneComparison, hlt]
    have hge : evaluateGreaterThanOrEqualTo ⟨a, a⟩ ⟨b, b⟩ = boolStatsTrue := by
      simp [evaluateGreaterThanOrEqualTo, evaluateMonotoneComparison, hlt.le]
    rw [evaluateEqual, hle, hge]
    decide

section
variable (shift : SignedInt 64)

/-- A timestamptz column `c`. -/
def tzColumn : ArrowFieldResolver := fun name =>
  if name = bytes "c" then some (bytes "c", .timestamptz) else none

def epoch : SignedInt 64 := ⟨0, by decide⟩

/-- `c = t`, where the timestamp `t` is the epoch moved by the negated shift. -/
def equalsShifted : Node :=
  .function ⟨.equal, .bool, [.timestamptz, .timestamp]⟩
    [.variable .timestamptz (bytes "c"), .const ⟨.timestamp, some (toInt64 (-shift.val))⟩]

/-- All rows have the epoch in `c`. -/
def epochStats : StatsGetter := columnStats (bytes "c") ⟨.timestamptz, ⟨epoch, epoch⟩⟩

def epochRow : Bytes → Option Scalar := columnRow (bytes "c") ⟨.timestamptz, epoch⟩

lemma equalsShifted_comparison (parseDecimal : Bytes → Option (Int × Int)) :
    ShiftComparison parseDecimal tzColumn shift (equalsShifted shift) := by
  refine ⟨_, _, _, field (bytes "c") .timestamptz,
    function "castTIMESTAMP" [literal ⟨.int8, toInt64 (-shift.val)⟩] .timestamp, rfl, rfl, ?_, ?_, .inl ⟨rfl, .inl rfl⟩⟩
  · simp [visitRow, tzColumn]
  · simp only [visitRow, visitConst]

lemma epochRow_resolved : resolvedRow tzColumn epochRow = epochRow := by
  funext name
  simp only [resolvedRow, tzColumn, epochRow, columnRow]
  split_ifs <;> simp

lemma epochStats_describes : DescribesRow epochStats (resolvedRow tzColumn epochRow) := by
  rw [epochRow_resolved]
  exact columnStats_describes (.mk le_rfl le_rfl)

lemma equalsShifted_careful (eval : Node → Outcome) :
    Careful epochStats (some shift) DateBoundsSafe eval (equalsShifted shift) := by
  simp only [equalsShifted, Careful, CarefulAll]
  refine ⟨⟨trivial, fun _ _ => ⟨trivial, fun _ _ => trivial⟩⟩, ?_⟩
  intro l r hstats _ _
  cases Except.ok.inj hstats
  exact ⟨trivial, trivial⟩

variable {shift} (hmin : shift.val ≠ int64Min) (hzero : shift.val ≠ 0) (hbound : |shift.val| ≤ maxSupportedTimestamp)
include hmin hzero hbound

/-- The statistics filter compares the moved epoch with the timestamp, and finds no match. -/
lemma equalsShifted_skipped :
    StatsFilter.applyFilter epochStats (some shift) (some (equalsShifted shift)) = .none := by
  have hrow : (toInt64 (-shift.val)).val = -shift.val := rowShift_eq hmin
  have hbounds : evaluateCastTimestamptzTimestamp ⟨epoch, epoch⟩ shift =
      ⟨toInt64 (0 + shift.val), toInt64 (0 + shift.val)⟩ := by
    apply if_pos
    refine ⟨by decide, by decide, ?_⟩
    rw [toInt64_abs hmin]
    exact hbound
  have hne : toInt64 (0 + shift.val) ≠ toInt64 (-shift.val) := by
    intro h
    have hval := congrArg Subtype.val h
    rw [zero_add, toInt64_val (inInt64_of_signed64 shift), hrow] at hval
    omega
  have hequal := evaluateEqual_of_ne hne
  refine applyFilter_eq_none_iff.mpr ⟨constStats .bool false, ?_, rfl⟩
  have hcol : visitStats epochStats (some shift) (.variable .timestamptz (bytes "c")) =
      .ok (constStats .timestamptz epoch) := by
    simp only [visitStats, epochStats, columnStats]
    rfl
  have hconst : visitStats epochStats (some shift) (.const ⟨.timestamp, some (toInt64 (-shift.val))⟩) =
      .ok (constStats .timestamp (toInt64 (-shift.val))) := by
    simp only [visitStats]
    rfl
  rw [equalsShifted, visitStats, visitStatsAll, visitStatsAll, visitStatsAll, hcol, hconst]
  change evaluateBinary .equal
    ⟨⟨.timestamp, evaluateCastTimestamptzTimestamp ⟨epoch, epoch⟩ shift⟩, ⟨false, true⟩⟩
    (constStats .timestamp (toInt64 (-shift.val))) = _
  rw [hbounds]
  change Except.ok (⟨(evaluateEqual ⟨toInt64 (0 + shift.val), toInt64 (0 + shift.val)⟩
    ⟨toInt64 (-shift.val), toInt64 (-shift.val)⟩).toGeneric, ⟨false, true⟩⟩ : GenericStats) = _
  rw [hequal]
  rfl

omit hzero hbound in
/-- The row filter moves the epoch to the timestamp. -/
lemma equalsShifted_selected (lib : String → List Outcome → Outcome) (parseDecimal : Bytes → Option (Int × Int)) :
    rowFilterOutcome lib epochRow parseDecimal tzColumn shift (equalsShifted shift) = .truth true := by
  have hcol : visitRow parseDecimal tzColumn shift (.variable .timestamptz (bytes "c")) =
      .ok (field (bytes "c") .timestamptz) := by simp [visitRow, tzColumn]
  have hconst : visitRow parseDecimal tzColumn shift (.const ⟨.timestamp, some (toInt64 (-shift.val))⟩) =
      .ok (function "castTIMESTAMP" [literal ⟨.int8, toInt64 (-shift.val)⟩] .timestamp) := by
    simp only [visitRow, visitConst]
  have hvisit : visitRow parseDecimal tzColumn shift (equalsShifted shift) =
      .ok (function "equal" [promoteToTimestamp shift (field (bytes "c") .timestamptz),
        function "castTIMESTAMP" [literal ⟨.int8, toInt64 (-shift.val)⟩] .timestamp] .boolean) :=
    (visitRow_pair hcol hconst).trans rfl
  have hfield : gandivaEval lib epochRow (field (bytes "c") .timestamptz) = .value ⟨.timestamptz, epoch⟩ := by
    simp only [gandivaEval]
    rfl
  have hlit : gandivaEval lib epochRow (function "castTIMESTAMP" [literal ⟨.int8, toInt64 (-shift.val)⟩] .timestamp) =
      .value ⟨.timestamp, toInt64 (-shift.val)⟩ := by
    simp only [gandivaEval, gandivaEvalAll]
    rfl
  have hcast : gandivaEval lib epochRow (promoteToTimestamp shift (field (bytes "c") .timestamptz)) =
      .value ⟨.timestamp, toInt64 (-shift.val)⟩ := by
    have hin : InInt64 (0 + rowShift shift) := by
      rw [zero_add]
      exact inInt64_of_signed64 _
    have hsum : toInt64 (0 + rowShift shift) = toInt64 (-shift.val) := by
      rw [zero_add, rowShift_eq hmin]
    have hscalar : scalarToTimestamp (rowShift shift) ⟨.timestamptz, epoch⟩ =
        some ⟨.timestamp, toInt64 (-shift.val)⟩ := by
      change (if InInt64 (0 + rowShift shift) then some (⟨.timestamp, toInt64 (0 + rowShift shift)⟩ : Scalar)
        else none) = _
      rw [if_pos hin, hsum]
    rw [promoteToTimestamp_value hfield, toTimestampOutcome, hscalar]
  rw [rowFilterOutcome_ok hvisit, gandivaEval_function, List.map_cons, List.map_singleton, hcast, hlit,
    @evalGandivaFunction_eq _ _ _ _ _ rfl rfl rfl]
  exact congrArg Outcome.truth (decide_eq_true rfl)

end

/-- A shift of three hours. -/
def threeHours : SignedInt 64 := ⟨3 * 60 * 60 * 1000 * 1000, by decide⟩

end IcebergCxx.Proofs

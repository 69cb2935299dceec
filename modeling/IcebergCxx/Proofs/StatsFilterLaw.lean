import IcebergCxx.Proofs.StatsFilter

/-!
# What the statistics filter may skip

`ApplyFilter` answers "none" only when no row matches and "all" only when no row fails, on
careful visits. Each way in which a visit is not careful has an expression with a wrong answer.
-/

namespace IcebergCxx.Proofs

open Lib

abbrev Row := Bytes → Option Scalar

/-- The answer of the filter is right for the rows. -/
def AnswersFor (getter : StatsGetter) (shift : Option (SignedInt 64)) (eval : Row → Node → Outcome) (rows : List Row)
    (root : Node) : Prop :=
  (StatsFilter.applyFilter getter shift (some root) = .none → ∀ row ∈ rows, eval row root ≠ .truth true) ∧
    (StatsFilter.applyFilter getter shift (some root) = .all → ∀ row ∈ rows, eval row root ≠ .truth false)

/-! ### Direct evaluation -/

section
variable {delta : Int} {interp : FunctionID → List Outcome → Outcome} {row : Row}

lemma evalNodes_eq_map (arguments : List Node) :
    evalNodes delta interp row arguments = arguments.map (evalNode delta interp row) := by
  induction arguments with
  | nil => simp [evalNodes]
  | cons a arguments ih => simp [evalNodes, ih]

/-- Direct evaluation follows the meaning of expressions. -/
lemma evalNode_semantics : RowSemantics delta row (evalNode delta interp row) where
  column type name := .inr (by simp [evalNode])
  const type x _ := .inr (by simp [evalNode])
  unorderedConst type x _ := by simp [evalNode]
  comparison signature l r hcmp out hout := .inr (by simp [evalNode, evalNodes, evalFunction, hcmp, hout])
  isNull signature a hid := .inr (by simp [evalNode, evalNodes, evalFunction, hid])
  cast signature a hid out hout := by
    have hne : signature.functionId ≠ .isNull := by rcases hid with h | h <;> simp [h]
    exact .inr (by simp [evalNode, evalNodes, evalFunction, hne, hid, hout])
  array signature useOr scalar array := by
    refine ⟨fun elem => (evalFunction delta interp signature.functionId
      [evalNode delta interp row scalar, .ofOption (elem.map (fun x => ⟨array.1, x⟩))]).toTruth, ?_,
      .inr (.inr (by simp [evalNode]))⟩
    intro hcmp elem out hout
    right
    cases elem with
    | none =>
      simp only [compareElement] at hout
      simp [evalFunction, hcmp, Outcome.ofOption, hout]
    | some x =>
      simp only [compareElement] at hout
      simp [evalFunction, hcmp, Outcome.ofOption, hout]
  ifNode c t e := .inr (by simp [evalNode])
  not a := .inr (by simp [evalNode])
  and args := .inr (by simp [evalNode, evalNodes_eq_map, Function.comp_def])
  or args := .inr (by simp [evalNode, evalNodes_eq_map, Function.comp_def])

end

/-! ### Careful visits -/

section
variable {getter : StatsGetter} {shift : Option (SignedInt 64)} {delta : Int} {castSafe : GenericStats → Prop}

lemma applyFilter_eq_none_iff {root : Node} :
    StatsFilter.applyFilter getter shift (some root) = .none ↔
      ∃ stats, visitStats getter shift root = .ok stats ∧ stats.getBool = .ok boolStatsFalse := by
  constructor
  · intro h
    simp only [StatsFilter.applyFilter] at h
    cases hv : visitStats getter shift root with
    | error e =>
      simp only [hv] at h
      cases h
    | ok stats =>
      simp only [hv] at h
      cases hb : stats.getBool with
      | error e =>
        simp only [hb] at h
        cases h
      | ok b =>
        simp only [hb] at h
        split_ifs at h with hfalse
        exact ⟨stats, rfl, by rw [hb, hfalse]⟩
  · rintro ⟨stats, hv, hb⟩
    simp only [StatsFilter.applyFilter, hv, hb, if_true]

lemma visitStats_of_applyFilter_all {root : Node} (h : StatsFilter.applyFilter getter shift (some root) = .all) :
    ∃ stats, visitStats getter shift root = .ok stats ∧ stats.getBool = .ok boolStatsTrue := by
  simp only [StatsFilter.applyFilter] at h
  cases hv : visitStats getter shift root with
  | error e =>
    simp only [hv] at h
    cases h
  | ok stats =>
    simp only [hv] at h
    cases hb : stats.getBool with
    | error e =>
      simp only [hb] at h
      cases h
    | ok b =>
      simp only [hb] at h
      split_ifs at h with hfalse htrue
      exact ⟨stats, rfl, by rw [hb, htrue]⟩

/-- A careful visit answers rightly for any evaluation that follows the meaning of expressions. -/
lemma answersFor_of_careful {eval : Row → Node → Outcome} {rows : List Row} {root : Node}
    (hsem : ∀ row, RowSemantics delta row (eval row)) (hrows : ∀ row ∈ rows, DescribesRow getter row)
    (hsafe : ∀ stats, castSafe stats → CastSafe shift delta stats)
    (hcareful : ∀ row ∈ rows, Careful getter shift castSafe (eval row) root) :
    AnswersFor getter shift eval rows root := by
  constructor
  · intro h row hrow htrue
    obtain ⟨stats, hv, hb⟩ := applyFilter_eq_none_iff.mp h
    have hsound := visitStats_sound (hsem row) (hrows row hrow) hsafe root (hcareful row hrow) hv
    rw [htrue] at hsound
    exact absurd ((hsound.allows hb) true rfl).2 (by decide)
  · intro h row hrow hfalse
    obtain ⟨stats, hv, hb⟩ := visitStats_of_applyFilter_all h
    have hsound := visitStats_sound (hsem row) (hrows row hrow) hsafe root (hcareful row hrow) hv
    rw [hfalse] at hsound
    exact absurd ((hsound.allows hb) false rfl).1 (by decide)

end

/-! ### Visits that go wrong -/

def boolConst (b : Bool) : Node := .const ⟨.bool, some b⟩

section
variable {getter : StatsGetter} {shift : Option (SignedInt 64)} {delta : Int}
  {interp : FunctionID → List Outcome → Outcome} {rows : List Row} {row : Row}

/-- The visitor follows `THEN` alone for a condition that is `NULL` on the row. -/
def TakesThenForNull (getter : StatsGetter) (shift : Option (SignedInt 64)) (eval : Node → Outcome) (c : Node) : Prop :=
  ∃ stats b, visitStats getter shift c = .ok stats ∧ stats.getBool = .ok b ∧ b.min = true ∧ eval c = .null

/-- Such a condition shows in the two-valued `IF` over it. -/
lemma not_answersFor_if {c : Node} (hrow : row ∈ rows)
    (h : TakesThenForNull getter shift (evalNode delta interp row) c) :
    ¬AnswersFor getter shift (evalNode delta interp) rows (.ifNode c (boolConst false) (boolConst true)) := by
  obtain ⟨stats, b, hv, hb, hmin, hnull⟩ := h
  intro hanswers
  have hvisit : visitStats getter shift (.ifNode c (boolConst false) (boolConst true)) =
      visitStats getter shift (boolConst false) := by
    rw [visitStats, hv]
    change (do
      let b ← stats.getBool
      if b.min = true then visitStats getter shift (boolConst false)
      else _) = _
    rw [hb]
    simp [bind, Except.bind, hmin]
  have hfalse : visitStats getter shift (boolConst false) = .ok (constStats .bool false) := by
    simp only [boolConst, visitStats]
    rfl
  have hnone := applyFilter_eq_none_iff.mpr ⟨_, hvisit.trans hfalse, rfl⟩
  refine hanswers.1 hnone row hrow ?_
  simp [evalNode, hnull, ifOutcome, Outcome.toTruth, boolConst, Outcome.truth]

/-! A column with statistics, and a row with a value in it. -/

def columnStats (name : Bytes) (stats : GenericMinMaxStats) : StatsGetter := fun n type =>
  if n = name ∧ type = stats.1 then
    some { minMax := stats, count := { containsNull := false, containsNonNull := true } }
  else none

def columnRow (name : Bytes) (x : Scalar) : Row := fun n => if n = name then some x else none

lemma columnStats_describes {name : Bytes} {stats : GenericMinMaxStats} {x : Scalar} (h : InStats stats x) :
    DescribesRow (columnStats name stats) (columnRow name x) := by
  intro n type s hs
  simp only [columnStats] at hs
  split_ifs at hs with hn
  cases hs
  simp only [columnRow, hn.1, if_true, Outcome.ofOption]
  exact ⟨rfl, h⟩

/-- Compares a column with a timestamp. -/
def columnAtMost (name : Bytes) (type : ValueType) (y : SignedInt 64) : Node :=
  .function ⟨.lessThanOrEqualTo, .bool, [type, .timestamp]⟩ [.variable type name, .const ⟨.timestamp, some y⟩]

lemma evaluateLessThanOrEqualTo_eq_false {l : MinMaxStats (SignedInt 64)} {y : SignedInt 64} (hmin : y < l.min)
    (hmax : y < l.max) : evaluateLessThanOrEqualTo l ⟨y, y⟩ = boolStatsFalse := by
  simp [evaluateLessThanOrEqualTo, evaluateMonotoneComparison, hmin, hmax]

/-- A cast whose bounds lie above the value of a row hides the row. -/
lemma not_answersFor_cast {name : Bytes} {type : ValueType} {stats : MinMaxStats (PhysicalType type)}
    {bounds : MinMaxStats (SignedInt 64)} {x : PhysicalType type} {y : SignedInt 64}
    (htype : type = .date ∨ type = .timestamptz)
    (hcast : castToTimestamp shift { minMax := ⟨type, stats⟩, count := ⟨false, true⟩ } =
      .ok { minMax := ⟨.timestamp, bounds⟩, count := ⟨false, true⟩ })
    (hx : scalarToTimestamp delta ⟨type, x⟩ = some ⟨.timestamp, y⟩) (hmin : y < bounds.min) (hmax : y < bounds.max) :
    ¬AnswersFor (columnStats name ⟨type, stats⟩) shift (evalNode delta interp) [columnRow name ⟨type, x⟩]
      (columnAtMost name type y) := by
  intro hanswers
  have hcol : visitStats (columnStats name ⟨type, stats⟩) shift (.variable type name) =
      .ok { minMax := ⟨type, stats⟩, count := ⟨false, true⟩ } := by simp [visitStats, columnStats]
  have hconst : visitStats (columnStats name ⟨type, stats⟩) shift (.const ⟨.timestamp, some y⟩) =
      .ok (constStats .timestamp y) := by
    simp only [visitStats]
    rfl
  have hsame : castToSameTypeForComparison shift { minMax := ⟨type, stats⟩, count := ⟨false, true⟩ }
      (constStats .timestamp y) =
      .ok ({ minMax := ⟨.timestamp, bounds⟩, count := ⟨false, true⟩ }, constStats .timestamp y) := by
    rcases htype with rfl | rfl <;>
      simp [castToSameTypeForComparison, areTypes, constStats, hcast, bind, Except.bind] <;> rfl
  have hbinary : evaluateBinary .lessThanOrEqualTo { minMax := ⟨.timestamp, bounds⟩, count := ⟨false, true⟩ }
      (constStats .timestamp y) = .ok (constStats .bool false) := by
    have hfalse := evaluateLessThanOrEqualTo_eq_false hmin hmax
    change Except.ok (⟨(evaluateLessThanOrEqualTo bounds ⟨y, y⟩).toGeneric, ⟨false, true⟩⟩ : GenericStats) = _
    rw [hfalse]
    rfl
  have hvisit : visitStats (columnStats name ⟨type, stats⟩) shift (columnAtMost name type y) =
      .ok (constStats .bool false) := by
    rw [columnAtMost, visitStats, visitStatsAll, visitStatsAll, visitStatsAll, hcol, hconst]
    change (castToSameTypeForComparison shift _ _ >>= fun sides => evaluateBinary _ sides.1 sides.2) = _
    rw [hsame]
    exact hbinary
  refine hanswers.1 (applyFilter_eq_none_iff.mpr ⟨_, hvisit, rfl⟩) _ (List.mem_singleton_self _) ?_
  have hcompare : compareScalars delta .lessThanOrEqualTo ⟨type, x⟩ ⟨.timestamp, y⟩ = some (.truth true) := by
    have hy : scalarToTimestamp delta ⟨.timestamp, y⟩ = some ⟨.timestamp, y⟩ := rfl
    have hrefl : compareSame .lessThanOrEqualTo ⟨.timestamp, y⟩ ⟨.timestamp, y⟩ = some (.truth true) :=
      congrArg (fun b => some (Outcome.truth b)) (decide_eq_true (le_refl y))
    rcases htype with rfl | rfl
    · simp only [compareScalars, areScalarTypes, hx, hy, hrefl]
      rfl
    · simp only [compareScalars, areScalarTypes, hx, hy, hrefl]
      rfl
  simp [columnAtMost, evalNode, evalNodes, evalFunction, FunctionID.isComparison, columnRow, Outcome.ofOption,
    compareOutcomes, hcompare]

/-- Date bounds from the least integer to a supported date hide dates in between. -/
lemma exists_not_answersFor_date {m : MinMaxStats (SignedInt 32)} (name : Bytes) (h : ¬DateCastSafe m) :
    ∃ x k, InStats ⟨.date, m⟩ x ∧
      ¬AnswersFor (columnStats name ⟨.date, m⟩) shift (evalNode delta interp) [columnRow name x]
        (columnAtMost name .date k) := by
  obtain ⟨hmin, hmax⟩ := not_not.mp h
  have hlow := (abs_le.mp hmax).1
  have hhigh := (abs_le.mp hmax).2
  simp only [maxSupportedDate] at hlow hhigh
  have hbounds : evaluateCastDateTimestamp m = ⟨toInt64 (m.min.val * microsInDay), toInt64 (m.max.val * microsInDay)⟩ := by
    apply if_pos
    constructor
    · rw [hmin]
      decide
    · rw [toInt32_abs (by omega)]
      exact hmax
  let x : SignedInt 32 := ⟨-10 ^ 8, by decide⟩
  have hlower : m.min ≤ x := Subtype.coe_le_coe.mp (by rw [hmin]; decide)
  have hupper : x ≤ m.max := Subtype.coe_le_coe.mp (by change (-10 ^ 8 : Int) ≤ m.max.val; omega)
  refine ⟨⟨.date, x⟩, toInt64 (-10 ^ 8 * microsInDay), .mk hlower hupper,
    @not_answersFor_cast _ _ _ _ _ _ (evaluateCastDateTimestamp m) _ _ (.inl rfl) rfl rfl ?_ ?_⟩
  · rw [hbounds, hmin]
    change toInt64 (-10 ^ 8 * microsInDay) < toInt64 (-2 ^ 31 * microsInDay)
    decide
  · rw [hbounds]
    apply Subtype.coe_lt_coe.mp
    have hin : InInt64 (m.max.val * microsInDay) := by
      simp only [InInt64, int64Min, int64Max, microsInDay]
      omega
    rw [toInt64_val hin, toInt64_val (by decide)]
    simp only [microsInDay]
    omega

lemma toInt64_underflow {x : Int} (h1 : -2 ^ 64 ≤ x) (h2 : x < int64Min) : (toInt64 x).val = x + 2 ^ 64 := by
  have hwrap : toInt64 x = toInt64 (x + 2 ^ 64) := by
    apply Subtype.ext
    exact (Int.add_bmod_right x (2 ^ 64)).symm
  simp only [int64Min] at h2
  rw [hwrap, toInt64_val]
  simp only [InInt64, int64Min, int64Max]
  omega

/-- Timestamptz bounds of which only the lower one wraps hide the rows between. -/
lemma exists_not_answersFor_timestamptz {m : MinMaxStats (SignedInt 64)} {s : SignedInt 64} (name : Bytes)
    (hguard : TimestamptzGuard s m) (hmin : m.min.val + s.val < int64Min) (hmax : int64Min < m.max.val + s.val) :
    ∃ x k, InStats ⟨.timestamptz, m⟩ x ∧
      ¬AnswersFor (columnStats name ⟨.timestamptz, m⟩) (some s) (evalNode s.val interp) [columnRow name x]
        (columnAtMost name .timestamptz k) := by
  have hbounds : evaluateCastTimestamptzTimestamp m s = ⟨toInt64 (m.min.val + s.val), toInt64 (m.max.val + s.val)⟩ :=
    if_pos hguard
  have hmaxHigh := le_of_toInt64_abs hguard.2.1
  have hshiftHigh := le_of_toInt64_abs hguard.2.2
  have h1 := m.min.2.1
  have h2 := m.max.2.1
  have h3 := s.2.1
  simp only [maxSupportedTimestamp] at hmaxHigh hshiftHigh
  simp only [int64Min] at hmin hmax
  let x : SignedInt 64 := ⟨m.max.val - 1, by omega, by omega⟩
  have hlower : m.min ≤ x := Subtype.coe_le_coe.mp (by change m.min.val ≤ m.max.val - 1; omega)
  have hupper : x ≤ m.max := Subtype.coe_le_coe.mp (by change m.max.val - 1 ≤ m.max.val; omega)
  have hx : InInt64 (m.max.val - 1 + s.val) := by
    simp only [InInt64, int64Min, int64Max]
    omega
  refine ⟨⟨.timestamptz, x⟩, toInt64 (m.max.val - 1 + s.val), .mk hlower hupper,
    @not_answersFor_cast _ _ _ _ _ _ (evaluateCastTimestamptzTimestamp m s) _ _ (.inr rfl) rfl (if_pos hx) ?_ ?_⟩
  · rw [hbounds]
    apply Subtype.coe_lt_coe.mp
    rw [toInt64_val hx, toInt64_underflow (by omega) (by simp only [int64Min]; omega)]
    omega
  · rw [hbounds]
    apply Subtype.coe_lt_coe.mp
    have hin : InInt64 (m.max.val + s.val) := by
      simp only [InInt64, int64Min, int64Max]
      omega
    rw [toInt64_val hx, toInt64_val hin]
    omega

end

/-- An integer column `x` with values between 0 and 3 and nulls. -/
def nullableColumn : StatsGetter := fun name type =>
  if name = bytes "x" ∧ type = .int4 then
    some { minMax := ⟨.int4, ⟨⟨0, by decide⟩, ⟨3, by decide⟩⟩⟩, count := { containsNull := true, containsNonNull := true } }
  else none

lemma nullableColumn_describes {row : Row}
    (h : ∀ x, row (bytes "x") = some x → InStats ⟨.int4, ⟨⟨0, by decide⟩, ⟨3, by decide⟩⟩⟩ x) :
    DescribesRow nullableColumn row := by
  intro name type stats hs
  simp only [nullableColumn] at hs
  split_ifs at hs with hn
  cases hs
  rw [hn.1]
  cases hx : row (bytes "x") with
  | none => rfl
  | some x => exact ⟨rfl, h x hx⟩

/-- `x < 5`. -/
def belowFive : Node :=
  .function ⟨.lessThan, .bool, [.int4, .int4]⟩ [.variable .int4 (bytes "x"), .const ⟨.int4, some ⟨5, by decide⟩⟩]

end IcebergCxx.Proofs

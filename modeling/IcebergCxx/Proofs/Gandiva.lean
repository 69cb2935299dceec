import IcebergCxx.RowFilter
import IcebergCxx.Proofs.StatsRegistry

/-!
# The meaning of Gandiva nodes

The promotions of the function registry, comparisons of promoted arguments, and the `IN` nodes
follow the comparisons of the filter expressions, with timestamptz values moved by the negated
shift.
-/

namespace IcebergCxx.Proofs

open Lib GandivaNode

/-- The move of a timestamptz in the row filter. -/
def rowShift (shift : SignedInt 64) : Int := (toInt64 (-shift.val)).val

section
variable {lib : String → List Outcome → Outcome} {cells : Bytes → Option Scalar}

lemma gandivaEvalAll_eq_map (gnodes : List GandivaNode) :
    gandivaEvalAll lib cells gnodes = gnodes.map (gandivaEval lib cells) := by
  induction gnodes with
  | nil => simp [gandivaEvalAll]
  | cons g gnodes ih => simp [gandivaEvalAll, ih]

/-! ### Types -/

lemma checked_typed {type : ArrowType} {out : Outcome} {v : Scalar} (h : checked type out = .value v) :
    out = .value v ∧ type.valueType = some v.1 := by
  cases out with
  | error => cases h
  | null => cases h
  | value w =>
    simp only [checked] at h
    split_ifs at h with htype
    cases h
    exact ⟨rfl, htype⟩

lemma checked_refines (type : ArrowType) (out : Outcome) : (checked type out).Refines out := by
  cases out with
  | error => exact .inl rfl
  | null => exact .inr rfl
  | value v =>
    simp only [checked]
    split_ifs
    · exact .inr rfl
    · exact .inl rfl

lemma ofTruth_type {t : Truth} {v : Scalar} (h : Outcome.ofTruth t = .value v) : v.1 = .bool := by
  cases t with
  | fail => cases h
  | unknown => cases h
  | known b =>
    cases h
    rfl

lemma inOutcome_type {values : InValues} {out : Outcome} {v : Scalar} (h : inOutcome values out = .value v) :
    v.1 = .bool := by
  cases out with
  | error => cases h
  | null =>
    cases h
    rfl
  | value x =>
    simp only [inOutcome, inValues] at h
    split at h <;> cases h <;> rfl

/-- The values of an expression have its type. -/
lemma gandivaEval_typed {g : GandivaNode} {v : Scalar} (h : gandivaEval lib cells g = .value v) :
    g.returnType.valueType = some v.1 := by
  cases g with
  | field name type =>
    simp only [gandivaEval] at h
    exact (checked_typed h).2
  | literal value =>
    simp only [gandivaEval] at h
    exact (checked_typed h).2
  | decimalLiteral digits precision scale =>
    simp only [gandivaEval] at h
    cases h
    rfl
  | null type =>
    simp only [gandivaEval] at h
    cases h
  | function name arguments type =>
    simp only [gandivaEval] at h
    exact (checked_typed h).2
  | ifNode c t e type =>
    simp only [gandivaEval] at h
    exact (checked_typed h).2
  | boolean useOr arguments =>
    simp only [gandivaEval] at h
    rw [ofTruth_type h]
    rfl
  | inExpression node values =>
    simp only [gandivaEval] at h
    rw [inOutcome_type h]
    rfl

/-- An ordered type of values belongs to one Arrow type. -/
lemma arrowType_eq {type : ArrowType} {v : ValueType} (h : type.valueType = some v) (hv : v.isComparable = true) :
    type = literalType v := by
  cases type <;> cases h <;> first | rfl | cases hv

/-! ### Functions -/

lemma gandivaEval_function (name : String) (arguments : List GandivaNode) (type : ArrowType) :
    gandivaEval lib cells (function name arguments type) =
      checked type (evalGandivaFunction lib name (arguments.map (gandivaEval lib cells))) := by
  simp only [gandivaEval, gandivaEvalAll_eq_map]

lemma evalGandivaFunction_error {name : String} {arguments : List Outcome} (h : Outcome.error ∈ arguments) :
    evalGandivaFunction lib name arguments = .error := by
  have hany : arguments.any Outcome.isError = true := List.any_eq_true.mpr ⟨_, h, rfl⟩
  simp only [evalGandivaFunction, hany, if_true]

/-- A function with a known meaning for these arguments. -/
lemma evalGandivaFunction_native {name : String} {arguments : List Outcome} {f : List Outcome → Option Outcome}
    {out : Outcome} (hname : nativeFunction name = some f) (hf : f arguments = some out) :
    (evalGandivaFunction lib name arguments).Refines out := by
  simp only [evalGandivaFunction]
  split_ifs
  · exact .inl rfl
  · right
    simp [hname, hf]

/-- A comparison with a failed or null argument. -/
lemma nativeComparison_null {functionId : FunctionID} {a b : Outcome} (ha : a ≠ .error) (hb : b ≠ .error)
    (h : a = .null ∨ b = .null) : nativeComparison functionId [a, b] = some .null := by
  cases a <;> cases b <;> simp_all [nativeComparison]

lemma gandivaFunction_comparison {functionId : FunctionID} (h : functionId.isComparison = true) :
    ∃ name, gandivaFunction functionId = some (name, some .boolean) ∧
      nativeFunction name = some (nativeComparison functionId) := by
  cases functionId <;> first | exact ⟨_, rfl, rfl⟩ | cases h

/-! ### Promotion -/

@[simp]
lemma promoteToInt4_returnType (g : GandivaNode) : (promoteToInt4 g).returnType = .int32 := rfl

@[simp]
lemma promoteToInt8_returnType (g : GandivaNode) : (promoteToInt8 g).returnType = .int64 := rfl

@[simp]
lemma promoteToTimestamp_returnType (shift : SignedInt 64) (g : GandivaNode) :
    (promoteToTimestamp shift g).returnType = .timestamp := rfl

/-- The expression has no value on the row. -/
def NoValue (out : Outcome) : Prop := out = .error ∨ out = .null

lemma evalGandivaFunction_noValue {name : String} {arguments : List Outcome} {f : List Outcome → Option Outcome}
    (hname : nativeFunction name = some f) (hf : Outcome.error ∉ arguments → f arguments = some .null) :
    NoValue (evalGandivaFunction lib name arguments) := by
  by_cases h : Outcome.error ∈ arguments
  · exact .inl (evalGandivaFunction_error h)
  · exact evalGandivaFunction_native hname (hf h)

lemma NoValue.checked {type : ArrowType} {out : Outcome} (h : NoValue out) : NoValue (checked type out) := by
  rcases h with rfl | rfl
  · exact .inl rfl
  · exact .inr rfl

variable {shift : SignedInt 64} {g : GandivaNode}

lemma promoteToInt4_noValue (h : NoValue (gandivaEval lib cells g)) : NoValue (gandivaEval lib cells (promoteToInt4 g)) := by
  rw [promoteToInt4, gandivaEval_function]
  apply NoValue.checked
  apply evalGandivaFunction_noValue rfl
  rcases h with h | h <;> simp [h, nativeUnary, castOutcome]

lemma promoteToInt8_noValue (h : NoValue (gandivaEval lib cells g)) : NoValue (gandivaEval lib cells (promoteToInt8 g)) := by
  rw [promoteToInt8, gandivaEval_function]
  apply NoValue.checked
  apply evalGandivaFunction_noValue rfl
  rcases h with h | h <;> simp [h, nativeUnary, castOutcome]

lemma promoteToFloat8_noValue : NoValue (gandivaEval lib cells (promoteToFloat8 g)) := by
  cases hout : gandivaEval lib cells (promoteToFloat8 g) with
  | error => exact .inl rfl
  | null => exact .inr rfl
  | value v => cases gandivaEval_typed hout

lemma promoteToTimestamp_noValue (h : NoValue (gandivaEval lib cells g)) :
    NoValue (gandivaEval lib cells (promoteToTimestamp shift g)) := by
  rw [promoteToTimestamp, gandivaEval_function]
  apply NoValue.checked
  apply evalGandivaFunction_noValue rfl
  rcases h with h | h <;> simp [h, nativeCastTimestamp]

/-- What every promotion keeps, `promoteLtoR` keeps. -/
lemma promoteLtoR_induction {P : GandivaNode → Prop} {b : GandivaNode}
    (h4 : ∀ a, a.returnType = .int16 → P a → P (promoteToInt4 a))
    (h8 : ∀ a, a.returnType = .int32 ∨ a.returnType = .int16 → P a → P (promoteToInt8 a))
    (hf : ∀ a, a.returnType = .float32 → P a → P (promoteToFloat8 a))
    (ht : ∀ a, a.returnType = .timestamptz → P a → P (promoteToTimestamp shift a))
    (h : P g) : P (promoteLtoR shift g b) := by
  have step : ∀ (c : Prop) [Decidable c] (f : GandivaNode → GandivaNode) (a : GandivaNode),
      (c → P a → P (f a)) → P a → P (if c then f a else a) := by
    intro c _ f a hstep ha
    split_ifs with hc
    · exact hstep hc ha
    · exact ha
  exact step _ _ _ (fun hc => ht _ hc.1) (step _ _ _ (fun hc => hf _ hc.1) (step _ _ _ (fun hc => h8 _ hc.1)
    (step _ _ _ (fun hc => h4 _ hc.1) h)))

lemma promoteLtoR_noValue {b : GandivaNode} (h : NoValue (gandivaEval lib cells g)) :
    NoValue (gandivaEval lib cells (promoteLtoR shift g b)) :=
  @promoteLtoR_induction _ _ (fun a => NoValue (gandivaEval lib cells a)) _ (fun _ _ => promoteToInt4_noValue)
    (fun _ _ => promoteToInt8_noValue) (fun _ _ _ => promoteToFloat8_noValue)
    (fun _ _ => promoteToTimestamp_noValue) h

lemma function_error {name : String} {rest : List GandivaNode} {type : ArrowType}
    (h : gandivaEval lib cells g = .error) : gandivaEval lib cells (function name (g :: rest) type) = .error := by
  rw [gandivaEval_function, evalGandivaFunction_error (by simp [h])]
  rfl

lemma promoteLtoR_error {b : GandivaNode} (h : gandivaEval lib cells g = .error) :
    gandivaEval lib cells (promoteLtoR shift g b) = .error :=
  @promoteLtoR_induction _ _ (fun a => gandivaEval lib cells a = .error) _ (fun _ _ => function_error)
    (fun _ _ => function_error) (fun _ _ => function_error) (fun _ _ => function_error) h

/-! The promotions of values. -/

lemma evalGandivaFunction_eq {name : String} {arguments : List Outcome} {f : List Outcome → Option Outcome}
    {out : Outcome} (hname : nativeFunction name = some f) (herr : arguments.any Outcome.isError = false)
    (hf : f arguments = some out) : evalGandivaFunction lib name arguments = out := by
  simp [evalGandivaFunction, herr, hname, hf]

lemma promoteToInt4_value {x : PhysicalType .int2} (h : gandivaEval lib cells g = .value ⟨.int2, x⟩) :
    gandivaEval lib cells (promoteToInt4 g) = .value (widenToInt4 ⟨.int2, x⟩) := by
  rw [promoteToInt4, gandivaEval_function, List.map_singleton, h, @evalGandivaFunction_eq _ _ _ _ _ rfl rfl rfl]
  rfl

lemma promoteToInt8_value2 {x : PhysicalType .int2} (h : gandivaEval lib cells g = .value ⟨.int2, x⟩) :
    gandivaEval lib cells (promoteToInt8 g) = .value (widenToInt8 ⟨.int2, x⟩) := by
  rw [promoteToInt8, gandivaEval_function, List.map_singleton, h, @evalGandivaFunction_eq _ _ _ _ _ rfl rfl rfl]
  rfl

lemma promoteToInt8_value4 {x : PhysicalType .int4} (h : gandivaEval lib cells g = .value ⟨.int4, x⟩) :
    gandivaEval lib cells (promoteToInt8 g) = .value (widenToInt8 ⟨.int4, x⟩) := by
  rw [promoteToInt8, gandivaEval_function, List.map_singleton, h, @evalGandivaFunction_eq _ _ _ _ _ rfl rfl rfl]
  rfl

/-- The outcome of a cast to a timestamp. -/
def toTimestampOutcome (delta : Int) (x : Scalar) : Outcome :=
  match scalarToTimestamp delta x with
  | some y => .value y
  | none => .error

lemma promoteToTimestamp_value {x : PhysicalType .timestamptz}
    (h : gandivaEval lib cells g = .value ⟨.timestamptz, x⟩) :
    gandivaEval lib cells (promoteToTimestamp shift g) = toTimestampOutcome (rowShift shift) ⟨.timestamptz, x⟩ := by
  have hlit : gandivaEval lib cells (literal ⟨.int8, toInt64 (-shift.val)⟩) =
      .value ⟨.int8, toInt64 (-shift.val)⟩ := by
    simp only [gandivaEval]
    rfl
  rw [promoteToTimestamp, gandivaEval_function, List.map_cons, List.map_singleton, h, hlit,
    @evalGandivaFunction_eq _ _ _ _ _ rfl rfl rfl]
  simp only [exactInt64, toTimestampOutcome, scalarToTimestamp, exactTimestamp, rowShift]
  by_cases hin : InInt64 (Subtype.val x + (toInt64 (-shift.val)).val)
  · simp only [hin, if_true]
    rfl
  · simp only [hin, if_false]
    rfl

/-! ### Comparisons -/

variable {l r : GandivaNode} {functionId : FunctionID}

lemma returnType_of_value {v : Scalar} (h : gandivaEval lib cells g = .value v) (hv : v.1.isComparable = true) :
    g.returnType = literalType v.1 :=
  arrowType_eq (gandivaEval_typed h) hv

lemma nativeCompare_of_same {x y : Scalar} (h : x.1 = y.1) : nativeCompare functionId x y = compareSame functionId x y := by
  unfold nativeCompare
  split
  · cases h
  · cases h
  · rfl

/-- Two arguments of one type are not promoted. -/
lemma promoteLtoR_same {v : ValueType} (hl : l.returnType.valueType = some v) (hr : r.returnType.valueType = some v) :
    promoteLtoR shift l r = l := by
  have hne : ∀ {s t : ArrowType}, l.returnType = s → r.returnType = t → s.valueType = t.valueType := by
    rintro s t rfl rfl
    rw [hl, hr]
  have h4 : ¬(l.returnType = .int16 ∧ r.returnType = .int32) := fun h => by cases hne h.1 h.2
  have h8 : ¬((l.returnType = .int32 ∨ l.returnType = .int16) ∧ r.returnType = .int64) := by
    rintro ⟨h | h, h'⟩ <;> cases hne h h'
  have hf : ¬(l.returnType = .float32 ∧ r.returnType = .float64) := by
    rintro ⟨h, -⟩
    rw [h] at hl
    cases hl
  have ht : ¬(l.returnType = .timestamptz ∧ (r.returnType = .timestamp ∨ r.returnType = .date32)) := by
    rintro ⟨h, h' | h'⟩ <;> cases hne h h'
  simp only [promoteLtoR, if_neg h4, if_neg h8, if_neg hf, if_neg ht]

/-- Two values compared as timestamps. -/
def compareAsTimestamps (delta : Int) (functionId : FunctionID) (x y : Scalar) : Option Outcome :=
  match scalarToTimestamp delta x, scalarToTimestamp delta y with
  | some x, some y => compareSame functionId x y
  | _, _ => some .error

lemma nativeCompare_date_timestamp {delta : Int} (d : PhysicalType .date) (t : PhysicalType .timestamp) :
    nativeCompare functionId ⟨.date, d⟩ ⟨.timestamp, t⟩ =
      compareAsTimestamps delta functionId ⟨.date, d⟩ ⟨.timestamp, t⟩ := by
  simp only [nativeCompare, compareAsTimestamps, scalarToTimestamp, exactTimestamp]
  by_cases hin : InInt64 (Subtype.val d * microsInDay)
  · simp only [hin, if_true]
    rfl
  · simp only [hin, if_false]

lemma nativeCompare_timestamp_date {delta : Int} (t : PhysicalType .timestamp) (d : PhysicalType .date) :
    nativeCompare functionId ⟨.timestamp, t⟩ ⟨.date, d⟩ =
      compareAsTimestamps delta functionId ⟨.timestamp, t⟩ ⟨.date, d⟩ := by
  simp only [nativeCompare, compareAsTimestamps, scalarToTimestamp, exactTimestamp]
  by_cases hin : InInt64 (Subtype.val d * microsInDay)
  · simp only [hin, if_true]
    rfl
  · simp only [hin, if_false]

lemma nativeCompare_timestamp_timestamp {delta : Int} (s t : PhysicalType .timestamp) :
    nativeCompare functionId ⟨.timestamp, s⟩ ⟨.timestamp, t⟩ =
      compareAsTimestamps delta functionId ⟨.timestamp, s⟩ ⟨.timestamp, t⟩ := rfl

/-- A timestamptz cast to a timestamp: it fails, or stands for the same timestamp. -/
lemma toTimestampOutcome_cases (delta : Int) (x : PhysicalType .timestamptz) :
    toTimestampOutcome delta ⟨.timestamptz, x⟩ = .error ∨
      ∃ t : PhysicalType .timestamp, toTimestampOutcome delta ⟨.timestamptz, x⟩ = .value ⟨.timestamp, t⟩ ∧
        scalarToTimestamp delta ⟨.timestamptz, x⟩ = some ⟨.timestamp, t⟩ := by
  simp only [toTimestampOutcome, scalarToTimestamp, exactTimestamp]
  by_cases hin : InInt64 (Subtype.val x + delta)
  · simp only [hin, if_true]
    exact .inr ⟨_, rfl, rfl⟩
  · simp only [hin, if_false]
    exact .inl trivial

lemma compareAsTimestamps_congr {delta : Int} {x x' y y' : Scalar}
    (hx : scalarToTimestamp delta x = scalarToTimestamp delta x')
    (hy : scalarToTimestamp delta y = scalarToTimestamp delta y') :
    compareAsTimestamps delta functionId x y = compareAsTimestamps delta functionId x' y' := by
  simp only [compareAsTimestamps, hx, hy]

/-- The comparison of two values, applied to the promoted arguments. -/
lemma comparison_values {name : String} {a b : Outcome} {x y : Scalar} {out : Outcome}
    (hname : nativeFunction name = some (nativeComparison functionId)) (ha : a = .value x) (hb : b = .value y)
    (hout : nativeCompare functionId x y = some out) : evalGandivaFunction lib name [a, b] = out := by
  rw [ha, hb]
  exact evalGandivaFunction_eq hname rfl hout

lemma evalGandivaFunction_error_left {name : String} {a b : Outcome} (ha : a = .error) :
    evalGandivaFunction lib name [a, b] = .error := evalGandivaFunction_error (by simp [ha])

lemma evalGandivaFunction_error_right {name : String} {a b : Outcome} (hb : b = .error) :
    evalGandivaFunction lib name [a, b] = .error := evalGandivaFunction_error (by simp [hb])

/-- Two values compared as timestamps after promotion. -/
lemma comparison_timestamps {name : String} {x y : Scalar} {out : Outcome}
    (hname : nativeFunction name = some (nativeComparison functionId))
    (hl : gandivaEval lib cells l = .value x) (hr : gandivaEval lib cells r = .value y)
    (htypes : (areScalarTypes .timestamp .timestamptz x y || areScalarTypes .timestamp .date x y ||
      areScalarTypes .timestamptz .date x y) = true)
    (hout : compareAsTimestamps (rowShift shift) functionId x y = some out) :
    (evalGandivaFunction lib name [gandivaEval lib cells (promote shift l r).1,
      gandivaEval lib cells (promote shift l r).2]).Refines out := by
  simp only [areScalarTypes, Bool.or_eq_true, decide_eq_true_eq] at htypes
  obtain ⟨s, x⟩ := x
  obtain ⟨t, y⟩ := y
  simp only at htypes
  have hlt : s.isComparable = true → l.returnType = literalType s := returnType_of_value hl
  have hrt : t.isComparable = true → r.returnType = literalType t := returnType_of_value hr
  rcases htypes with ((⟨rfl, rfl⟩ | ⟨rfl, rfl⟩) | (⟨rfl, rfl⟩ | ⟨rfl, rfl⟩)) | (⟨rfl, rfl⟩ | ⟨rfl, rfl⟩)
  · have hp : promote shift l r = (l, promoteToTimestamp shift r) := by
      simp [promote, promoteLtoR, hlt rfl, hrt rfl, literalType]
    rw [hp]
    rcases toTimestampOutcome_cases (rowShift shift) y with herr | ⟨t, hval, hts⟩
    · exact .inl (evalGandivaFunction_error_right ((promoteToTimestamp_value hr).trans herr))
    · refine .inr (comparison_values hname hl ((promoteToTimestamp_value hr).trans hval) ?_)
      rw [nativeCompare_timestamp_timestamp, ← hout]
      exact compareAsTimestamps_congr rfl hts.symm
  · have hp : promote shift l r = (promoteToTimestamp shift l, r) := by
      simp [promote, promoteLtoR, hlt rfl, hrt rfl, literalType]
    rw [hp]
    rcases toTimestampOutcome_cases (rowShift shift) x with herr | ⟨t, hval, hts⟩
    · exact .inl (evalGandivaFunction_error_left ((promoteToTimestamp_value hl).trans herr))
    · refine .inr (comparison_values hname ((promoteToTimestamp_value hl).trans hval) hr ?_)
      rw [nativeCompare_timestamp_timestamp, ← hout]
      exact compareAsTimestamps_congr hts.symm rfl
  · have hp : promote shift l r = (l, r) := by simp [promote, promoteLtoR, hlt rfl, hrt rfl, literalType]
    rw [hp]
    exact .inr (comparison_values hname hl hr ((nativeCompare_timestamp_date x y).trans hout))
  · have hp : promote shift l r = (l, r) := by simp [promote, promoteLtoR, hlt rfl, hrt rfl, literalType]
    rw [hp]
    exact .inr (comparison_values hname hl hr ((nativeCompare_date_timestamp x y).trans hout))
  · have hp : promote shift l r = (promoteToTimestamp shift l, r) := by
      simp [promote, promoteLtoR, hlt rfl, hrt rfl, literalType]
    rw [hp]
    rcases toTimestampOutcome_cases (rowShift shift) x with herr | ⟨t, hval, hts⟩
    · exact .inl (evalGandivaFunction_error_left ((promoteToTimestamp_value hl).trans herr))
    · refine .inr (comparison_values hname ((promoteToTimestamp_value hl).trans hval) hr ?_)
      rw [nativeCompare_timestamp_date, ← hout]
      exact compareAsTimestamps_congr hts.symm rfl
  · have hp : promote shift l r = (l, promoteToTimestamp shift r) := by
      simp [promote, promoteLtoR, hlt rfl, hrt rfl, literalType]
    rw [hp]
    rcases toTimestampOutcome_cases (rowShift shift) y with herr | ⟨t, hval, hts⟩
    · exact .inl (evalGandivaFunction_error_right ((promoteToTimestamp_value hr).trans herr))
    · refine .inr (comparison_values hname hl ((promoteToTimestamp_value hr).trans hval) ?_)
      rw [nativeCompare_date_timestamp, ← hout]
      exact compareAsTimestamps_congr rfl hts.symm

/-- Integers of different widths, compared after promotion. -/
lemma comparison_integers {name : String} {x y : Scalar} {out : Outcome}
    (hname : nativeFunction name = some (nativeComparison functionId))
    (hl : gandivaEval lib cells l = .value x) (hr : gandivaEval lib cells r = .value y)
    (hout : (areScalarTypes .int2 .int4 x y = true ∧
        compareSame functionId (widenToInt4 x) (widenToInt4 y) = some out) ∨
      ((areScalarTypes .int4 .int8 x y || areScalarTypes .int2 .int8 x y) = true ∧
        compareSame functionId (widenToInt8 x) (widenToInt8 y) = some out)) :
    evalGandivaFunction lib name [gandivaEval lib cells (promote shift l r).1,
      gandivaEval lib cells (promote shift l r).2] = out := by
  simp only [areScalarTypes, Bool.or_eq_true, decide_eq_true_eq] at hout
  obtain ⟨s, x⟩ := x
  obtain ⟨t, y⟩ := y
  simp only at hout
  have hlt : s.isComparable = true → l.returnType = literalType s := returnType_of_value hl
  have hrt : t.isComparable = true → r.returnType = literalType t := returnType_of_value hr
  rcases hout with ⟨⟨rfl, rfl⟩ | ⟨rfl, rfl⟩, hout⟩ |
    ⟨(⟨rfl, rfl⟩ | ⟨rfl, rfl⟩) | (⟨rfl, rfl⟩ | ⟨rfl, rfl⟩), hout⟩
  · have hp : promote shift l r = (promoteToInt4 l, r) := by
      simp [promote, promoteLtoR, hlt rfl, hrt rfl, literalType]
    rw [hp]
    exact comparison_values hname (promoteToInt4_value hl) hr hout
  · have hp : promote shift l r = (l, promoteToInt4 r) := by
      simp [promote, promoteLtoR, hlt rfl, hrt rfl, literalType]
    rw [hp]
    exact comparison_values hname hl (promoteToInt4_value hr) hout
  · have hp : promote shift l r = (promoteToInt8 l, r) := by
      simp [promote, promoteLtoR, hlt rfl, hrt rfl, literalType]
    rw [hp]
    exact comparison_values hname (promoteToInt8_value4 hl) hr hout
  · have hp : promote shift l r = (l, promoteToInt8 r) := by
      simp [promote, promoteLtoR, hlt rfl, hrt rfl, literalType]
    rw [hp]
    exact comparison_values hname hl (promoteToInt8_value4 hr) hout
  · have hp : promote shift l r = (promoteToInt8 l, r) := by
      simp [promote, promoteLtoR, hlt rfl, hrt rfl, literalType]
    rw [hp]
    exact comparison_values hname (promoteToInt8_value2 hl) hr hout
  · have hp : promote shift l r = (l, promoteToInt8 r) := by
      simp [promote, promoteLtoR, hlt rfl, hrt rfl, literalType]
    rw [hp]
    exact comparison_values hname hl (promoteToInt8_value2 hr) hout

/-- Values of one type are not promoted, and then compared. -/
lemma comparison_same {name : String} {x y : Scalar} {out : Outcome}
    (hname : nativeFunction name = some (nativeComparison functionId))
    (hl : gandivaEval lib cells l = .value x) (hr : gandivaEval lib cells r = .value y) (hsame : x.1 = y.1)
    (hout : compareSame functionId x y = some out) :
    evalGandivaFunction lib name [gandivaEval lib cells (promote shift l r).1,
      gandivaEval lib cells (promote shift l r).2] = out := by
  have hp : promote shift l r = (l, r) := by
    have hlt := gandivaEval_typed hl
    have hrt := gandivaEval_typed hr
    rw [← hsame] at hrt
    simp only [promote, promoteLtoR_same hlt hrt, promoteLtoR_same hrt hlt]
  rw [hp]
  exact comparison_values hname hl hr ((nativeCompare_of_same hsame).trans hout)

/-- A comparison of promoted arguments follows the comparison of the arguments. -/
lemma comparison_refines {name : String} {out : Outcome}
    (hname : nativeFunction name = some (nativeComparison functionId))
    (hout : compareOutcomes (rowShift shift) functionId (gandivaEval lib cells l) (gandivaEval lib cells r) = some out) :
    (evalGandivaFunction lib name [gandivaEval lib cells (promote shift l r).1,
      gandivaEval lib cells (promote shift l r).2]).Refines out := by
  have hnull : ∀ a b : Outcome, NoValue a ∨ NoValue b → (evalGandivaFunction lib name [a, b]).Refines .null := by
    intro a b h
    apply evalGandivaFunction_noValue hname
    intro herr
    apply nativeComparison_null
    · rintro rfl
      simp at herr
    · rintro rfl
      simp at herr
    · rcases h with (rfl | rfl) | (rfl | rfl) <;> simp_all
  cases hl : gandivaEval lib cells l with
  | error =>
    exact .inl (evalGandivaFunction_error_left (promoteLtoR_error hl))
  | null =>
    cases hr : gandivaEval lib cells r with
    | error =>
      exact .inl (evalGandivaFunction_error_right (promoteLtoR_error hr))
    | null =>
      rw [hl, hr] at hout
      cases hout
      exact hnull _ _ (.inl (promoteLtoR_noValue (.inr hl)))
    | value y =>
      rw [hl, hr] at hout
      cases hout
      exact hnull _ _ (.inl (promoteLtoR_noValue (.inr hl)))
  | value x =>
    cases hr : gandivaEval lib cells r with
    | error =>
      exact .inl (evalGandivaFunction_error_right (promoteLtoR_error hr))
    | null =>
      rw [hl, hr] at hout
      cases hout
      exact hnull _ _ (.inr (promoteLtoR_noValue (.inr hr)))
    | value y =>
      rw [hl, hr] at hout
      simp only [compareOutcomes, compareScalars] at hout
      split_ifs at hout with hsame h4 h8 hts
      · exact .inr (comparison_same hname hl hr hsame hout)
      · exact .inr (comparison_integers hname hl hr (.inl ⟨h4, hout⟩))
      · exact .inr (comparison_integers hname hl hr (.inr ⟨h8, hout⟩))
      · exact comparison_timestamps hname hl hr hts hout

/-! ### `IN` -/

/-- The integer of a value of an integer type. -/
def integerOf : Scalar → Option Int
  | ⟨.int2, x⟩ => some (Subtype.val x)
  | ⟨.int4, x⟩ => some (Subtype.val x)
  | ⟨.int8, x⟩ => some (Subtype.val x)
  | _ => none

lemma truth_comparator {bits : Nat} (functionId : FunctionID) (a b : SignedInt bits) {i j : Int} (ha : a.val = i)
    (hb : b.val = j) : some (Outcome.truth (comparator functionId a b)) = some (.truth (comparator functionId i j)) := by
  subst ha hb
  cases functionId <;> simp [comparator, Subtype.ext_iff]

/-- Integers are compared by value, whatever their widths. -/
lemma compareScalars_integers {delta : Int} {x y : Scalar} {i j : Int} (hx : integerOf x = some i)
    (hy : integerOf y = some j) :
    compareScalars delta functionId x y = some (.truth (comparator functionId i j)) := by
  obtain ⟨s, x⟩ := x
  obtain ⟨t, y⟩ := y
  cases s <;> cases hx <;> cases t <;> cases hy
  case int2.refl.int2.refl => exact @truth_comparator 16 functionId x y _ _ rfl rfl
  case int2.refl.int4.refl => exact @truth_comparator 32 functionId (toInt32 _) y _ _ (toInt32_val (signed16_bounds x)) rfl
  case int2.refl.int8.refl =>
    exact @truth_comparator 64 functionId (toInt64 _) y _ _ (toInt64_val (inInt64_of_signed16 x)) rfl
  case int4.refl.int2.refl => exact @truth_comparator 32 functionId x (toInt32 _) _ _ rfl (toInt32_val (signed16_bounds y))
  case int4.refl.int4.refl => exact @truth_comparator 32 functionId x y _ _ rfl rfl
  case int4.refl.int8.refl =>
    exact @truth_comparator 64 functionId (toInt64 _) y _ _ (toInt64_val (inInt64_of_signed32 x)) rfl
  case int8.refl.int2.refl =>
    exact @truth_comparator 64 functionId x (toInt64 _) _ _ rfl (toInt64_val (inInt64_of_signed16 y))
  case int8.refl.int4.refl =>
    exact @truth_comparator 64 functionId x (toInt64 _) _ _ rfl (toInt64_val (inInt64_of_signed32 y))
  case int8.refl.int8.refl => exact @truth_comparator 64 functionId x y _ _ rfl rfl

lemma integersOf_ok {bits : Nat} {elems : List (Option (SignedInt bits))} {values : List Int}
    (h : integersOf elems = .ok values) : ∃ ys : List (SignedInt bits), elems = ys.map some ∧ values = ys.map Subtype.val := by
  induction elems generalizing values with
  | nil =>
    cases h
    exact ⟨[], rfl, rfl⟩
  | cons elem elems ih =>
    simp only [integersOf, List.mapM_cons] at h
    cases elem with
    | none => cases h
    | some y =>
      cases hrest : integersOf elems with
      | error e =>
        simp only [integersOf] at hrest
        rw [hrest] at h
        cases h
      | ok rest =>
        obtain ⟨ys, rfl, rfl⟩ := ih hrest
        simp only [integersOf] at hrest
        rw [hrest] at h
        cases h
        exact ⟨y :: ys, rfl, rfl⟩

lemma stringsOf_ok {elems : List (Option Bytes)} {values : List Bytes} (h : stringsOf elems = .ok values) :
    elems = values.map some := by
  induction elems generalizing values with
  | nil =>
    cases h
    rfl
  | cons elem elems ih =>
    simp only [stringsOf, List.mapM_cons] at h
    cases elem with
    | none => cases h
    | some y =>
      cases hrest : stringsOf elems with
      | error e =>
        simp only [stringsOf] at hrest
        rw [hrest] at h
        cases h
      | ok rest =>
        rw [ih hrest]
        simp only [stringsOf] at hrest
        rw [hrest] at h
        cases h
        rfl

def sameBytes (x y : Bytes) : Bool := decide (x = y)

lemma mem_eq_any (x : Bytes) (values : List Bytes) : decide (x ∈ values) = values.any (sameBytes x) := by
  rw [Bool.eq_iff_iff]
  simp [sameBytes]

lemma compareScalars_strings {delta : Int} (x y : Bytes) :
    compareScalars delta .equal ⟨.string, x⟩ ⟨.string, y⟩ = some (.truth (sameBytes x y)) ∧
      compareScalars delta .notEqual ⟨.string, x⟩ ⟨.string, y⟩ = some (.truth (!sameBytes x y)) := by
  have heq : @comparator Bytes (instLinearOrderPhysicalType .string) .equal x y = sameBytes x y := by
    simp [comparator, sameBytes]
  have hne : @comparator Bytes (instLinearOrderPhysicalType .string) .notEqual x y = !sameBytes x y := by
    simp [comparator, sameBytes]
  exact ⟨congrArg (fun b => some (Outcome.truth b)) heq, congrArg (fun b => some (Outcome.truth b)) hne⟩

/-- The node tests whether the value is one of the elements. -/
def TestsMembership (lib : String → List Outcome → Outcome) (cells : Bytes → Option Scalar) (delta : Int)
    (inNode : GandivaNode) (x : Scalar) (array : ArrayHolder) : Prop :=
  ∃ (same : PhysicalType array.1 → Bool) (ys : List (PhysicalType array.1)),
    array.2 = ys.map some ∧ gandivaEval lib cells inNode = .truth (ys.any same) ∧
    ∀ y, compareScalars delta .equal x ⟨array.1, y⟩ = some (.truth (same y)) ∧
      compareScalars delta .notEqual x ⟨array.1, y⟩ = some (.truth (!same y))

/-- Membership among integers. -/
lemma testsMembership_integers {delta : Int} {type : ValueType} {inNode : GandivaNode} {x : Scalar} {i : Int}
    {val : PhysicalType type → Int} {elems : List (Option (PhysicalType type))} {values : List Int}
    (hx : integerOf x = some i) (hy : ∀ y, integerOf ⟨type, y⟩ = some (val y))
    (hvalues : ∃ ys : List (PhysicalType type), elems = ys.map some ∧ values = ys.map val)
    (hin : gandivaEval lib cells inNode = .truth (decide (i ∈ values))) :
    TestsMembership lib cells delta inNode x ⟨type, elems⟩ := by
  obtain ⟨ys, helems, rfl⟩ := hvalues
  refine ⟨fun y => decide (i = val y), ys, helems, ?_, ?_⟩
  · rw [hin]
    congr 1
    rw [Bool.eq_iff_iff]
    simp only [decide_eq_true_eq, List.mem_map, List.any_eq_true]
    simp only [eq_comm]
  · intro y
    rw [compareScalars_integers hx (hy y), compareScalars_integers hx (hy y)]
    simp [comparator]

lemma inExpression_int32 {x : Scalar} (values : List Int) (h : gandivaEval lib cells g = .value x)
    (htype : g.returnType = .int32) : ∃ i, integerOf x = some i ∧
      gandivaEval lib cells (inExpression g (.int32 values)) = .truth (decide (i ∈ values)) := by
  have ht := gandivaEval_typed h
  rw [htype] at ht
  obtain ⟨s, x⟩ := x
  obtain rfl : ValueType.int4 = s := by simpa [ArrowType.valueType] using ht
  refine ⟨_, rfl, ?_⟩
  simp only [gandivaEval, h]
  rfl

lemma inExpression_int64 {x : Scalar} (values : List Int) (h : gandivaEval lib cells g = .value x)
    (htype : g.returnType = .int64) : ∃ i, integerOf x = some i ∧
      gandivaEval lib cells (inExpression g (.int64 values)) = .truth (decide (i ∈ values)) := by
  have ht := gandivaEval_typed h
  rw [htype] at ht
  obtain ⟨s, x⟩ := x
  obtain rfl : ValueType.int8 = s := by simpa [ArrowType.valueType] using ht
  refine ⟨_, rfl, ?_⟩
  simp only [gandivaEval, h]
  rfl

/-- Widening keeps the integer. -/
lemma promoteToInt4_integer {x : Scalar} (h : gandivaEval lib cells g = .value x) (htype : g.returnType = .int16) :
    ∃ x', gandivaEval lib cells (promoteToInt4 g) = .value x' ∧ integerOf x' = integerOf x := by
  have ht := gandivaEval_typed h
  rw [htype] at ht
  obtain ⟨s, x⟩ := x
  obtain rfl : ValueType.int2 = s := by simpa [ArrowType.valueType] using ht
  exact ⟨_, promoteToInt4_value h, congrArg some (toInt32_val (signed16_bounds x))⟩

lemma promoteToInt8_integer {x : Scalar} (h : gandivaEval lib cells g = .value x)
    (htype : g.returnType = .int32 ∨ g.returnType = .int16) :
    ∃ x', gandivaEval lib cells (promoteToInt8 g) = .value x' ∧ integerOf x' = integerOf x := by
  have ht := gandivaEval_typed h
  obtain ⟨s, x⟩ := x
  rcases htype with htype | htype
  · rw [htype] at ht
    obtain rfl : ValueType.int4 = s := by simpa [ArrowType.valueType] using ht
    exact ⟨_, promoteToInt8_value4 h, congrArg some (toInt64_val (inInt64_of_signed32 x))⟩
  · rw [htype] at ht
    obtain rfl : ValueType.int2 = s := by simpa [ArrowType.valueType] using ht
    exact ⟨_, promoteToInt8_value2 h, congrArg some (toInt64_val (inInt64_of_signed16 x))⟩

section
variable {delta : Int} {bits : Nat} {type : ValueType} {inNode : GandivaNode} {x x' : Scalar}
  {elems : List (Option (PhysicalType type))} {val : PhysicalType type → Int} {integers : Except String (List Int)}

/-- The `IN` over 64-bit integers. -/
lemma testsMembership_int64 (hy : ∀ y, integerOf ⟨type, y⟩ = some (val y))
    (hints : ∀ values, integers = .ok values →
      ∃ ys : List (PhysicalType type), elems = ys.map some ∧ values = ys.map val)
    (h : gandivaEval lib cells g = .value x') (hx : integerOf x' = integerOf x)
    (hin : (if g.returnType = .int64 then (do
          let values ← integers
          Except.ok (inExpression g (.int64 values)))
        else Except.error "IN for type is not supported") = .ok inNode) :
    TestsMembership lib cells delta inNode x ⟨type, elems⟩ := by
  split_ifs at hin with htype
  cases hv : integers with
  | error e =>
    rw [hv] at hin
    cases hin
  | ok values =>
    rw [hv] at hin
    cases hin
    obtain ⟨i, hi, heval⟩ := inExpression_int64 values h htype
    exact testsMembership_integers (hx.symm.trans hi) hy (hints values hv) heval

/-- The `IN` over 32-bit integers, or else over 64-bit ones. -/
lemma testsMembership_int32 (hy : ∀ y, integerOf ⟨type, y⟩ = some (val y))
    (hints : ∀ values, integers = .ok values →
      ∃ ys : List (PhysicalType type), elems = ys.map some ∧ values = ys.map val)
    (h : gandivaEval lib cells g = .value x') (hx : integerOf x' = integerOf x)
    (hin : (if g.returnType = .int32 then (do
          let values ← integers
          Except.ok (inExpression g (.int32 values)))
        else if g.returnType = .int64 then (do
          let values ← integers
          Except.ok (inExpression g (.int64 values)))
        else Except.error "IN for type is not supported") = .ok inNode) :
    TestsMembership lib cells delta inNode x ⟨type, elems⟩ := by
  by_cases htype : g.returnType = .int32
  · rw [if_pos htype] at hin
    cases hv : integers with
    | error e =>
      rw [hv] at hin
      cases hin
    | ok values =>
      rw [hv] at hin
      cases hin
      obtain ⟨i, hi, heval⟩ := inExpression_int32 values h htype
      exact testsMembership_integers (hx.symm.trans hi) hy (hints values hv) heval
  · rw [if_neg htype] at hin
    exact testsMembership_int64 hy hints h hx hin

end

/-- What `tryToBuildIn` builds tests membership. -/
lemma tryToBuildIn_spec {delta : Int} {inNode : GandivaNode} {x : Scalar} {array : ArrayHolder}
    (h : gandivaEval lib cells g = .value x) (hin : tryToBuildIn g array = .ok inNode) :
    TestsMembership lib cells delta inNode x array := by
  have h4 : ∃ x', gandivaEval lib cells (if g.returnType = .int16 then promoteToInt4 g else g) = .value x' ∧
      integerOf x' = integerOf x := by
    split_ifs with htype
    · exact promoteToInt4_integer h htype
    · exact ⟨x, h, rfl⟩
  have h8 : ∃ x', gandivaEval lib cells
      (if g.returnType = .int32 ∨ g.returnType = .int16 then promoteToInt8 g else g) = .value x' ∧
      integerOf x' = integerOf x := by
    split_ifs with htype
    · exact promoteToInt8_integer h htype
    · exact ⟨x, h, rfl⟩
  obtain ⟨x4, hx4, hi4⟩ := h4
  obtain ⟨x8, hx8, hi8⟩ := h8
  obtain ⟨type, elems⟩ := array
  cases type <;> simp only [tryToBuildIn, reduceCtorEq] at hin
  case int2 => exact testsMembership_int32 (fun _ => rfl) (fun _ hv => integersOf_ok hv) hx4 hi4 hin
  case int4 => exact testsMembership_int32 (fun _ => rfl) (fun _ hv => integersOf_ok hv) hx4 hi4 hin
  case int8 => exact testsMembership_int64 (fun _ => rfl) (fun _ hv => integersOf_ok hv) hx8 hi8 hin
  case string =>
    split_ifs at hin with htype
    cases hv : stringsOf elems with
    | error e =>
      rw [hv] at hin
      cases hin
    | ok values =>
      rw [hv] at hin
      cases hin
      have ht := gandivaEval_typed h
      rw [htype] at ht
      obtain ⟨s, x⟩ := x
      obtain rfl : ValueType.string = s := by simpa [ArrowType.valueType] using ht
      refine ⟨sameBytes x, values, stringsOf_ok hv, ?_, ?_⟩
      · simp only [gandivaEval, h, inOutcome, inValues]
        exact congrArg Outcome.truth (mem_eq_any x values)
      · exact fun y => compareScalars_strings x y

end

end IcebergCxx.Proofs

import IcebergCxx.Proofs.Gandiva
import IcebergCxx.Proofs.StatsFilterLaw

/-!
# The statistics filter and the row filter

The expression that the row filter builds follows the meaning of the expression it was built
from, with timestamptz values moved by the negated shift; the statistics filter moves them by
the shift itself.
-/

namespace IcebergCxx.Proofs

open Lib GandivaNode

lemma refines_trans {a b c : Outcome} (hab : a.Refines b) (hbc : b.Refines c) : a.Refines c := by
  rcases hab with rfl | rfl
  · exact .inl rfl
  · exact hbc

section
variable {lib : String → List Outcome → Outcome} {cells : Bytes → Option Scalar}
  {parseDecimal : Bytes → Option (Int × Int)} {resolver : ArrowFieldResolver} {shift : SignedInt 64}

lemma rowFilterOutcome_ok {node : Node} {g : GandivaNode} (h : visitRow parseDecimal resolver shift node = .ok g) :
    rowFilterOutcome lib cells parseDecimal resolver shift node = gandivaEval lib cells g := by
  simp only [rowFilterOutcome, h]

lemma rowFilterOutcome_error {node : Node} {e : String} (h : visitRow parseDecimal resolver shift node = .error e) :
    rowFilterOutcome lib cells parseDecimal resolver shift node = .error := by
  simp only [rowFilterOutcome, h]

/-- The results of the arguments. -/
lemma visitRowAll_eval {arguments : List Node} {gs : List GandivaNode}
    (h : visitRowAll parseDecimal resolver shift arguments = .ok gs) :
    arguments.map (rowFilterOutcome lib cells parseDecimal resolver shift) = gs.map (gandivaEval lib cells) := by
  induction arguments generalizing gs with
  | nil =>
    simp only [visitRowAll] at h
    cases h
    rfl
  | cons a arguments ih =>
    simp only [visitRowAll] at h
    cases ha : visitRow parseDecimal resolver shift a with
    | error e =>
      rw [ha] at h
      cases h
    | ok g =>
      rw [ha] at h
      cases hrest : visitRowAll parseDecimal resolver shift arguments with
      | error e =>
        rw [hrest] at h
        cases h
      | ok rest =>
        rw [hrest] at h
        cases h
        rw [List.map_cons, List.map_cons, ih hrest, rowFilterOutcome_ok ha]

/-- A function of two arguments. -/
lemma visitRow_pair {signature : FunctionSignature} {l r : Node} {gl gr : GandivaNode}
    (hl : visitRow parseDecimal resolver shift l = .ok gl) (hr : visitRow parseDecimal resolver shift r = .ok gr) :
    visitRow parseDecimal resolver shift (.function signature [l, r]) =
      createFunction shift signature.functionId [gl, gr] := by
  simp only [visitRow, visitRowAll, hl, hr]
  rfl

lemma visitRow_single {signature : FunctionSignature} {a : Node} {ga : GandivaNode}
    (ha : visitRow parseDecimal resolver shift a = .ok ga) :
    visitRow parseDecimal resolver shift (.function signature [a]) = createFunction shift signature.functionId [ga] := by
  simp only [visitRow, visitRowAll, ha]
  rfl

/-- A function with a failed argument. -/
lemma rowFilterOutcome_function_error {signature : FunctionSignature} {arguments : List Node} {e : String}
    (h : visitRowAll parseDecimal resolver shift arguments = .error e) :
    rowFilterOutcome lib cells parseDecimal resolver shift (.function signature arguments) = .error := by
  apply rowFilterOutcome_error (e := e)
  simp only [visitRow, h]
  rfl

lemma createFunction_comparison {functionId : FunctionID} {gl gr : GandivaNode} (hcmp : functionId.isComparison = true) :
    ∃ name, nativeFunction name = some (nativeComparison functionId) ∧
      createFunction shift functionId [gl, gr] =
        .ok (function name [(promote shift gl gr).1, (promote shift gl gr).2] .boolean) := by
  obtain ⟨name, hfun, hnative⟩ := gandivaFunction_comparison hcmp
  exact ⟨name, hnative, by simp [createFunction, hcmp, createPromoted, hfun]⟩

/-- A comparison in the row filter. -/
lemma rowFilterOutcome_comparison {signature : FunctionSignature} {l r : Node} {out : Outcome}
    (hcmp : signature.functionId.isComparison = true)
    (hout : compareOutcomes (rowShift shift) signature.functionId
      (rowFilterOutcome lib cells parseDecimal resolver shift l)
      (rowFilterOutcome lib cells parseDecimal resolver shift r) = some out) :
    (rowFilterOutcome lib cells parseDecimal resolver shift (.function signature [l, r])).Refines out := by
  cases hl : visitRow parseDecimal resolver shift l with
  | error e =>
    left
    apply rowFilterOutcome_function_error (e := e)
    simp only [visitRowAll, hl]
    rfl
  | ok gl =>
    cases hr : visitRow parseDecimal resolver shift r with
    | error e =>
      left
      apply rowFilterOutcome_function_error (e := e)
      simp only [visitRowAll, hl, hr]
      rfl
    | ok gr =>
      rw [rowFilterOutcome_ok hl, rowFilterOutcome_ok hr] at hout
      obtain ⟨name, hname, hcreate⟩ := createFunction_comparison hcmp
      rw [rowFilterOutcome_ok ((visitRow_pair hl hr).trans hcreate), gandivaEval_function]
      exact refines_trans (checked_refines _ _) (comparison_refines hname hout)

/-- The null test of a timestamptz looks at the promoted value. -/
lemma isnull_promoted {g : GandivaNode} (htype : g.returnType = .timestamptz) :
    (evalGandivaFunction lib "isnull" [gandivaEval lib cells (promoteToTimestamp shift g)]).Refines
      (isNullOutcome (gandivaEval lib cells g)) := by
  have herr : gandivaEval lib cells (promoteToTimestamp shift g) = .error →
      evalGandivaFunction lib "isnull" [gandivaEval lib cells (promoteToTimestamp shift g)] = .error :=
    fun h => evalGandivaFunction_error (by simp [h])
  cases hg : gandivaEval lib cells g with
  | error => exact .inl (herr (function_error hg))
  | null =>
    rcases promoteToTimestamp_noValue (.inr hg) with h | h
    · exact .inl (herr h)
    · rw [h]
      exact evalGandivaFunction_native rfl rfl
  | value x =>
    have ht := gandivaEval_typed hg
    rw [htype] at ht
    obtain ⟨s, x⟩ := x
    obtain rfl : ValueType.timestamptz = s := by simpa [ArrowType.valueType] using ht
    rcases toTimestampOutcome_cases (rowShift shift) x with h | ⟨t, h, -⟩
    · exact .inl (herr ((promoteToTimestamp_value hg).trans h))
    · rw [(promoteToTimestamp_value hg).trans h]
      exact evalGandivaFunction_native rfl rfl

lemma rowFilterOutcome_isNull {signature : FunctionSignature} {a : Node} (hid : signature.functionId = .isNull) :
    (rowFilterOutcome lib cells parseDecimal resolver shift (.function signature [a])).Refines
      (isNullOutcome (rowFilterOutcome lib cells parseDecimal resolver shift a)) := by
  cases ha : visitRow parseDecimal resolver shift a with
  | error e =>
    left
    apply rowFilterOutcome_function_error (e := e)
    simp only [visitRowAll, ha]
    rfl
  | ok ga =>
    have hcreate : createFunction shift signature.functionId [ga] =
        .ok (function "isnull" [if isTimestamptz ga then promoteToTimestamp shift ga else ga] .boolean) := by
      simp [createFunction, createPromoted, hid, gandivaFunction]
    rw [rowFilterOutcome_ok ((visitRow_single ha).trans hcreate), rowFilterOutcome_ok ha, gandivaEval_function]
    refine refines_trans (checked_refines _ _) ?_
    by_cases htz : isTimestamptz ga = true
    · rw [if_pos htz, List.map_singleton]
      exact isnull_promoted (of_decide_eq_true htz)
    · rw [if_neg htz]
      exact evalGandivaFunction_native rfl rfl

lemma rowFilterOutcome_cast {signature : FunctionSignature} {a : Node} {out : Outcome}
    (hid : signature.functionId = .castInt4 ∨ signature.functionId = .castInt8)
    (hout : castOutcome signature.functionId (rowFilterOutcome lib cells parseDecimal resolver shift a) = some out) :
    (rowFilterOutcome lib cells parseDecimal resolver shift (.function signature [a])).Refines out := by
  cases ha : visitRow parseDecimal resolver shift a with
  | error e =>
    left
    apply rowFilterOutcome_function_error (e := e)
    simp only [visitRowAll, ha]
    rfl
  | ok ga =>
    rw [rowFilterOutcome_ok ha] at hout
    obtain ⟨name, type, hcreate, hnative⟩ : ∃ name type,
        createFunction shift signature.functionId [ga] = .ok (function name [ga] type) ∧
        nativeFunction name = some (nativeUnary (castOutcome signature.functionId)) := by
      rcases hid with hid | hid
      · exact ⟨"castINT", .int32, by simp [createFunction, createPromoted, hid, gandivaFunction], by rw [hid]; rfl⟩
      · exact ⟨"castBIGINT", .int64, by simp [createFunction, createPromoted, hid, gandivaFunction], by rw [hid]; rfl⟩
    rw [rowFilterOutcome_ok ((visitRow_single ha).trans hcreate), gandivaEval_function]
    exact refines_trans (checked_refines _ _) (evalGandivaFunction_native hnative hout)

/-- The outcomes of constants. -/
lemma rowFilterOutcome_const {type : ValueType} (x : PhysicalType type) (hcomp : type.isComparable = true) :
    (rowFilterOutcome lib cells parseDecimal resolver shift (.const ⟨type, some x⟩)).Refines (.value ⟨type, x⟩) := by
  cases type <;> try cases hcomp
  all_goals simp only [rowFilterOutcome, visitRow, visitConst, gandivaEval, gandivaEvalAll]
  all_goals first | exact .inr rfl | exact .inl rfl

lemma rowFilterOutcome_unorderedConst {type : ValueType} (x : PhysicalType type) (hcomp : type.isComparable = false) :
    rowFilterOutcome lib cells parseDecimal resolver shift (.const ⟨type, some x⟩) ≠ .null := by
  cases type <;> try cases hcomp
  · simp only [rowFilterOutcome, visitRow, visitConst]
    cases parseDecimal x <;> simp [gandivaEval]
  · simp only [rowFilterOutcome, visitRow, visitConst]
    by_cases h : (ofLex x).1.val ≠ 0
    · simp [h]
    · simp only [h, if_false, gandivaEval]
      simp [checked, literalType, ArrowType.valueType]

lemma rowFilterOutcome_nullConst (type : ValueType) :
    (rowFilterOutcome lib cells parseDecimal resolver shift (.const ⟨type, none⟩)).Refines .null := by
  cases type <;> simp only [rowFilterOutcome, visitRow, visitConst, processNull, gandivaEval]
  all_goals first | exact .inr rfl | exact .inl rfl

lemma rowFilterOutcome_column (type : ValueType) (name : Bytes) :
    (rowFilterOutcome lib cells parseDecimal resolver shift (.variable type name)).Refines
      (.ofOption (resolvedRow resolver cells name)) := by
  cases hf : resolver name with
  | none =>
    simp only [rowFilterOutcome, visitRow, resolvedRow, hf, Option.bind_none, Outcome.ofOption]
    cases type <;> simp only [processNull, gandivaEval]
    all_goals first | exact .inr rfl | exact .inl rfl
  | some f =>
    obtain ⟨field, arrowType⟩ := f
    simp only [rowFilterOutcome, visitRow, resolvedRow, hf, Option.bind_some, gandivaEval]
    exact checked_refines _ _

lemma rowFilterOutcome_if (c t e : Node) :
    (rowFilterOutcome lib cells parseDecimal resolver shift (.ifNode c t e)).Refines
      (ifOutcome (rowFilterOutcome lib cells parseDecimal resolver shift c)
        (rowFilterOutcome lib cells parseDecimal resolver shift t)
        (rowFilterOutcome lib cells parseDecimal resolver shift e)) := by
  have hvisit : visitRow parseDecimal resolver shift (.ifNode c t e) = (do
      let conditionNode ← visitRow parseDecimal resolver shift c
      let thenNode ← visitRow parseDecimal resolver shift t
      let elseNode ← visitRow parseDecimal resolver shift e
      if thenNode.returnType ≠ elseNode.returnType then
        .error "RowFilter (IfNode): ThenNode type and ElseNode type are different"
      else .ok (ifNode conditionNode thenNode elseNode thenNode.returnType)) := by
    simp only [visitRow]
  cases hc : visitRow parseDecimal resolver shift c with
  | error err => exact .inl (rowFilterOutcome_error (by rw [hvisit, hc]; rfl))
  | ok gc =>
    cases ht : visitRow parseDecimal resolver shift t with
    | error err => exact .inl (rowFilterOutcome_error (by rw [hvisit, hc, ht]; rfl))
    | ok gt =>
      cases he : visitRow parseDecimal resolver shift e with
      | error err => exact .inl (rowFilterOutcome_error (by rw [hvisit, hc, ht, he]; rfl))
      | ok ge =>
        rw [hc, ht, he] at hvisit
        rw [rowFilterOutcome_ok hc, rowFilterOutcome_ok ht, rowFilterOutcome_ok he]
        by_cases htypes : gt.returnType ≠ ge.returnType
        · exact .inl (rowFilterOutcome_error (hvisit.trans (if_pos htypes)))
        · rw [rowFilterOutcome_ok (hvisit.trans (if_neg htypes))]
          simp only [gandivaEval]
          exact checked_refines _ _

lemma rowFilterOutcome_not (a : Node) :
    (rowFilterOutcome lib cells parseDecimal resolver shift (.logical .not [a])).Refines
      (.ofTruth (rowFilterOutcome lib cells parseDecimal resolver shift a).toTruth.not) := by
  cases ha : visitRow parseDecimal resolver shift a with
  | error e =>
    left
    apply rowFilterOutcome_error (e := e)
    simp only [visitRow, ha]
    rfl
  | ok ga =>
    have hvisit : visitRow parseDecimal resolver shift (.logical .not [a]) = .ok (function "not" [ga] .boolean) := by
      simp only [visitRow, ha]
      rfl
    rw [rowFilterOutcome_ok hvisit, rowFilterOutcome_ok ha, gandivaEval_function]
    exact refines_trans (checked_refines _ _) (evalGandivaFunction_native rfl rfl)

/-- `AND` and `OR`. -/
lemma rowFilterOutcome_logical {useOr : Bool} {operation : LogicalOperation} (arguments : List Node)
    (hvisit : visitRow parseDecimal resolver shift (.logical operation arguments) = (do
      let arguments ← visitRowAll parseDecimal resolver shift arguments
      .ok (boolean useOr arguments))) :
    (rowFilterOutcome lib cells parseDecimal resolver shift (.logical operation arguments)).Refines
      (.ofTruth (joinTruths useOr (arguments.map (fun a =>
        (rowFilterOutcome lib cells parseDecimal resolver shift a).toTruth)))) := by
  cases hall : visitRowAll parseDecimal resolver shift arguments with
  | error e => exact .inl (rowFilterOutcome_error (by rw [hvisit, hall]; rfl))
  | ok gs =>
    rw [hall] at hvisit
    right
    rw [rowFilterOutcome_ok hvisit]
    simp only [gandivaEval, gandivaEvalAll_eq_map]
    rw [← visitRowAll_eval hall, List.map_map]
    rfl

/-! ### Arrays -/

lemma compareScalars_unordered {delta : Int} {functionId : FunctionID} {x y : Scalar} (hy : y.1.isComparable = false) :
    compareScalars delta functionId x y = none := by
  have hne : ∀ a b : ValueType, a.isComparable = true → b.isComparable = true → areScalarTypes a b x y = false := by
    intro a b ha hb
    apply decide_eq_false
    rintro (⟨-, h⟩ | ⟨-, h⟩) <;> rw [h] at hy <;> simp_all
  unfold compareScalars
  split_ifs with hsame h4 h8 hts
  · unfold compareSame
    split_ifs with heq hcomp
    · rw [hsame, hy] at hcomp
      cases hcomp
    · rfl
    · rfl
  · rw [hne .int2 .int4 rfl rfl] at h4
    cases h4
  · rw [hne .int4 .int8 rfl rfl, hne .int2 .int8 rfl rfl] at h8
    cases h8
  · rw [hne .timestamp .timestamptz rfl rfl, hne .timestamp .date rfl rfl, hne .timestamptz .date rfl rfl] at hts
    cases hts
  · rfl

/-- One element, as the comparison that the rewritten tree has for it. -/
lemma rowFilterOutcome_element {signature : FunctionSignature} {scalar : Node} {type : ValueType}
    {elem : Option (PhysicalType type)} {out : Outcome} (hcmp : signature.functionId.isComparison = true)
    (hout : compareElement (rowShift shift) signature.functionId
      (rowFilterOutcome lib cells parseDecimal resolver shift scalar) type elem = some out) :
    (rowFilterOutcome lib cells parseDecimal resolver shift
      (.function signature [scalar, .const ⟨type, elem⟩])).Refines out := by
  have hlaw : ∀ out', compareOutcomes (rowShift shift) signature.functionId
      (rowFilterOutcome lib cells parseDecimal resolver shift scalar)
      (rowFilterOutcome lib cells parseDecimal resolver shift (.const ⟨type, elem⟩)) = some out' →
      (rowFilterOutcome lib cells parseDecimal resolver shift
        (.function signature [scalar, .const ⟨type, elem⟩])).Refines out' :=
    fun out' h => rowFilterOutcome_comparison hcmp h
  have hfail : rowFilterOutcome lib cells parseDecimal resolver shift (.const ⟨type, elem⟩) = .error →
      (rowFilterOutcome lib cells parseDecimal resolver shift
        (.function signature [scalar, .const ⟨type, elem⟩])).Refines out := by
    intro h
    refine .inl ((hlaw .error ?_).elim id id)
    rw [h]
    cases rowFilterOutcome lib cells parseDecimal resolver shift scalar <;> rfl
  cases elem with
  | none =>
    rcases @rowFilterOutcome_nullConst lib cells parseDecimal resolver shift type with h | h
    · exact hfail h
    · exact hlaw out (by rw [h]; exact hout)
  | some x =>
    cases hcomp : type.isComparable with
    | true =>
      rcases @rowFilterOutcome_const lib cells parseDecimal resolver shift type x hcomp with h | h
      · exact hfail h
      · exact hlaw out (by rw [h]; exact hout)
    | false =>
      cases hconst : rowFilterOutcome lib cells parseDecimal resolver shift (.const ⟨type, some x⟩) with
      | error => exact hfail hconst
      | null => exact absurd hconst (rowFilterOutcome_unorderedConst x hcomp)
      | value c =>
        cases hscalar : rowFilterOutcome lib cells parseDecimal resolver shift scalar with
        | error =>
          rw [hscalar] at hout
          cases hout
          exact hlaw .error (by rw [hscalar]; rfl)
        | null =>
          rw [hscalar] at hout
          cases hout
          exact hlaw .null (by rw [hscalar, hconst]; rfl)
        | value y =>
          rw [hscalar] at hout
          simp only [compareElement, compareOutcomes] at hout
          rw [compareScalars_unordered (y := ⟨type, x⟩) hcomp] at hout
          cases hout

lemma joinTruths_known (useOr : Bool) (bs : List Bool) :
    joinTruths useOr (bs.map Truth.known) = .known (if useOr then bs.any id else bs.all id) := by
  have hfold : ∀ b, (bs.map Truth.known).foldl (Truth.join useOr) (.known b) =
      .known (if useOr then b || bs.any id else b && bs.all id) := by
    induction bs with
    | nil =>
      intro b
      cases useOr <;> simp
    | cons c bs ih =>
      intro b
      rw [List.map_cons, List.foldl_cons]
      cases useOr
      · simpa [Truth.join, Bool.and_assoc] using ih (b && c)
      · simpa [Truth.join, Bool.or_assoc] using ih (b || c)
  rw [joinTruths, hfold]
  cases useOr <;> simp

/-- The truth value of an element that is compared. -/
def elementTruth (delta : Int) (functionId : FunctionID) (scalar : Outcome) (type : ValueType)
    (elem : Option (PhysicalType type)) : Truth :=
  match compareElement delta functionId scalar type elem with
  | some out => out.toTruth
  | none => .fail

/-- An `IN` over a value has the truth value of the comparisons. -/
lemma wrapIn_value {functionId : FunctionID} {useOr : Bool} {g inNode : GandivaNode} {x : Scalar} {array : ArrayHolder}
    (huse : functionId = .equal ∧ useOr = true ∨ functionId = .notEqual ∧ useOr = false)
    (hg : gandivaEval lib cells g = .value x) (hin : TestsMembership lib cells (rowShift shift) inNode x array) :
    gandivaEval lib cells (wrapIn functionId g inNode) =
      .ofTruth (joinTruths useOr (array.2.map (elementTruth (rowShift shift) functionId (.value x) array.1))) := by
  obtain ⟨same, ys, helems, heval, hsame⟩ := hin
  have hif : gandivaEval lib cells (ifNode (function "isnull" [g] .boolean) (null .boolean) inNode .boolean) =
      .truth (ys.any same) := by
    simp only [gandivaEval, gandivaEvalAll, hg, heval]
    rfl
  rcases huse with ⟨rfl, rfl⟩ | ⟨rfl, rfl⟩
  · have htruths : array.2.map (elementTruth (rowShift shift) .equal (.value x) array.1) =
        (ys.map same).map Truth.known := by
      rw [helems, List.map_map, List.map_map]
      apply List.map_congr_left
      intro y _
      simp only [Function.comp_apply, elementTruth, compareElement, compareOutcomes, (hsame y).1]
      rfl
    rw [htruths, joinTruths_known]
    refine hif.trans ?_
    simp [Outcome.ofTruth, List.any_map]
  · have htruths : array.2.map (elementTruth (rowShift shift) .notEqual (.value x) array.1) =
        (ys.map (fun y => !same y)).map Truth.known := by
      rw [helems, List.map_map, List.map_map]
      apply List.map_congr_left
      intro y _
      simp only [Function.comp_apply, elementTruth, compareElement, compareOutcomes, (hsame y).2]
      rfl
    rw [htruths, joinTruths_known]
    have hnot : gandivaEval lib cells (wrapIn .notEqual g inNode) = .truth (!ys.any same) := by
      simp only [wrapIn, if_true, gandivaEval_function, List.map_singleton]
      rw [hif, @evalGandivaFunction_eq _ "not" _ _ _ rfl rfl rfl]
      rfl
    refine hnot.trans ?_
    simp [Outcome.ofTruth, List.all_map, List.not_any_eq_all_not]

/-- An `IN` over a null is null, and one over a failure fails. -/
lemma wrapIn_noValue {functionId : FunctionID} {g inNode : GandivaNode} (hg : NoValue (gandivaEval lib cells g)) :
    gandivaEval lib cells (wrapIn functionId g inNode) = gandivaEval lib cells g := by
  have hif : gandivaEval lib cells (ifNode (function "isnull" [g] .boolean) (null .boolean) inNode .boolean) =
      gandivaEval lib cells g := by
    rcases hg with hg | hg
    · simp only [gandivaEval, gandivaEvalAll, hg]
      rfl
    · simp only [gandivaEval, gandivaEvalAll, hg]
      rfl
  simp only [wrapIn]
  split_ifs
  · rw [gandivaEval_function, List.map_singleton, hif]
    rcases hg with hg | hg
    · rw [hg]
      rfl
    · rw [hg]
      rfl
  · exact hif

/-- The visit of a comparison in the rewritten tree. -/
lemma visitRow_element (signature : FunctionSignature) (scalar : Node) (value : Value) :
    visitRow parseDecimal resolver shift (.function signature [scalar, .const value]) = (do
      let evaluatedScalar ← visitRow parseDecimal resolver shift scalar
      let constNode ← visitConst parseDecimal value
      createFunction shift signature.functionId [evaluatedScalar, constNode]) := by
  simp only [visitRow, visitRowAll]
  cases visitRow parseDecimal resolver shift scalar with
  | error e => rfl
  | ok g =>
    cases visitConst parseDecimal value with
    | error e => rfl
    | ok c => rfl

/-- The rewritten tree of an array comparison. -/
lemma array_fallback {signature : FunctionSignature} {scalar : Node} {type : ValueType}
    {elems : List (Option (PhysicalType type))} {gs : List GandivaNode}
    (h : elems.mapM (fun elem =>
      visitRow parseDecimal resolver shift (.function signature [scalar, .const ⟨type, elem⟩])) = .ok gs) :
    gs.map (gandivaEval lib cells) = elems.map (fun elem =>
      rowFilterOutcome lib cells parseDecimal resolver shift (.function signature [scalar, .const ⟨type, elem⟩])) := by
  induction elems generalizing gs with
  | nil =>
    cases h
    rfl
  | cons elem elems ih =>
    rw [List.mapM_cons] at h
    cases hfirst : visitRow parseDecimal resolver shift (.function signature [scalar, .const ⟨type, elem⟩]) with
    | error e =>
      rw [hfirst] at h
      cases h
    | ok g =>
      rw [hfirst] at h
      cases hrest : elems.mapM (fun elem =>
          visitRow parseDecimal resolver shift (.function signature [scalar, .const ⟨type, elem⟩])) with
      | error e =>
        rw [hrest] at h
        cases h
      | ok rest =>
        rw [hrest] at h
        cases h
        rw [List.map_cons, List.map_cons, ih hrest, rowFilterOutcome_ok hfirst]

/-- What the visitor builds for an array comparison: an `IN`, or the rewritten tree. -/
lemma visitRow_array {signature : FunctionSignature} {useOr : Bool} {scalar : Node} {array : ArrayHolder}
    {gnode : GandivaNode}
    (h : visitRow parseDecimal resolver shift (.scalarOverArray signature useOr scalar array) = .ok gnode) :
    (∃ g inNode, (signature.functionId = .equal ∧ useOr = true ∨ signature.functionId = .notEqual ∧ useOr = false) ∧
      visitRow parseDecimal resolver shift scalar = .ok g ∧ tryToBuildIn g array = .ok inNode ∧
      gnode = wrapIn signature.functionId g inNode) ∨
    ∃ gs, array.2.mapM (fun elem =>
        visitRow parseDecimal resolver shift (.function signature [scalar, .const ⟨array.1, elem⟩])) = .ok gs ∧
      gnode = boolean useOr gs := by
  simp only [visitRow_element]
  simp only [visitRow] at h
  have hfallback : (do
        let functionNodes ← array.2.mapM (fun elem => do
          let evaluatedScalar ← visitRow parseDecimal resolver shift scalar
          let constNode ← visitConst parseDecimal ⟨array.1, elem⟩
          createFunction shift signature.functionId [evaluatedScalar, constNode])
        .ok (boolean useOr functionNodes)) = Except.ok gnode →
      ∃ gs, array.2.mapM (fun elem => do
          let evaluatedScalar ← visitRow parseDecimal resolver shift scalar
          let constNode ← visitConst parseDecimal ⟨array.1, elem⟩
          createFunction shift signature.functionId [evaluatedScalar, constNode]) = .ok gs ∧
        gnode = boolean useOr gs := by
    intro h
    cases hall : array.2.mapM (fun elem => do
        let evaluatedScalar ← visitRow parseDecimal resolver shift scalar
        let constNode ← visitConst parseDecimal ⟨array.1, elem⟩
        createFunction shift signature.functionId [evaluatedScalar, constNode]) with
    | error e =>
      simp only [hall] at h
      cases h
    | ok gs =>
      simp only [hall] at h
      cases h
      exact ⟨gs, rfl, rfl⟩
  split_ifs at h with huse
  · cases hs : visitRow parseDecimal resolver shift scalar with
    | error e =>
      rw [hs] at h
      cases h
    | ok g =>
      simp only [hs] at h hfallback
      cases hin : tryToBuildIn g array with
      | ok inNode =>
        replace h : wrapIn signature.functionId g inNode = gnode := by
          simpa only [bind, Except.bind, hin, Except.ok.injEq] using h
        subst h
        exact .inl ⟨g, inNode, huse, rfl, hin, rfl⟩
      | error e =>
        refine .inr (hfallback ?_)
        simpa only [bind, Except.bind, hin] using h
  · exact .inr (hfallback h)

/-- The law of array comparisons. -/
lemma rowFilterOutcome_array (signature : FunctionSignature) (useOr : Bool) (scalar : Node) (array : ArrayHolder) :
    ∃ truth : Option (PhysicalType array.1) → Truth,
      (signature.functionId.isComparison = true → ∀ elem out,
        compareElement (rowShift shift) signature.functionId
          (rowFilterOutcome lib cells parseDecimal resolver shift scalar) array.1 elem = some out →
        truth elem = .fail ∨ truth elem = out.toTruth) ∧
      (rowFilterOutcome lib cells parseDecimal resolver shift (.scalarOverArray signature useOr scalar array) = .null ∨
        (rowFilterOutcome lib cells parseDecimal resolver shift (.scalarOverArray signature useOr scalar array)).Refines
          (.ofTruth (joinTruths useOr (array.2.map truth)))) := by
  cases hvisit : visitRow parseDecimal resolver shift (.scalarOverArray signature useOr scalar array) with
  | error e =>
    rw [rowFilterOutcome_error hvisit]
    exact ⟨fun _ => .fail, fun _ _ _ _ => .inl rfl, .inr (.inl rfl)⟩
  | ok gnode =>
    rw [rowFilterOutcome_ok hvisit]
    rcases visitRow_array hvisit with ⟨g, inNode, huse, hs, hin, rfl⟩ | ⟨gs, hgs, rfl⟩
    · rw [rowFilterOutcome_ok hs]
      refine ⟨elementTruth (rowShift shift) signature.functionId (gandivaEval lib cells g) array.1, ?_, ?_⟩
      · intro _ elem out hout
        simp [elementTruth, hout]
      · cases hg : gandivaEval lib cells g with
        | error => exact .inr (.inl ((wrapIn_noValue (.inl hg)).trans hg))
        | null => exact .inl ((wrapIn_noValue (.inr hg)).trans hg)
        | value x => exact .inr (.inr (wrapIn_value huse hg (tryToBuildIn_spec hg hin)))
    · refine ⟨fun elem => (rowFilterOutcome lib cells parseDecimal resolver shift
        (.function signature [scalar, .const ⟨array.1, elem⟩])).toTruth, ?_, .inr (.inr ?_)⟩
      · intro hcmp elem out hout
        rcases rowFilterOutcome_element hcmp hout with h | h
        · exact .inl (congrArg Outcome.toTruth h)
        · exact .inr (congrArg Outcome.toTruth h)
      · simp only [gandivaEval, gandivaEvalAll_eq_map, array_fallback hgs, List.map_map]
        rfl

/-- The row filter follows the meaning of expressions, with timestamptz values moved by the
negated shift. -/
theorem rowFilterOutcome_semantics :
    RowSemantics (rowShift shift) (resolvedRow resolver cells)
      (rowFilterOutcome lib cells parseDecimal resolver shift) where
  column := rowFilterOutcome_column
  const _ := rowFilterOutcome_const
  unorderedConst _ := rowFilterOutcome_unorderedConst
  comparison _ _ _ hcmp _ hout := rowFilterOutcome_comparison hcmp hout
  isNull _ _ hid := rowFilterOutcome_isNull hid
  cast _ _ hid _ hout := rowFilterOutcome_cast hid hout
  array := rowFilterOutcome_array
  ifNode := rowFilterOutcome_if
  not := rowFilterOutcome_not
  and args := rowFilterOutcome_logical args (by simp only [visitRow])
  or args := rowFilterOutcome_logical args (by simp only [visitRow])

end

end IcebergCxx.Proofs

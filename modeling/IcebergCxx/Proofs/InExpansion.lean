import IcebergCxx.Proofs.RowFilter

/-!
# `IN` and the comparisons it stands for

The row filter builds an `IN` for `= ANY` and `<> ALL` of integers and strings; what it cannot build
it expands to a disjunction or conjunction of comparisons. The guard of the `IN` makes it `NULL` for
a null also when there is nothing to compare the null with.
-/

namespace IcebergCxx.Proofs

open Lib GandivaNode

section
variable {lib : String → List Outcome → Outcome} {cells : Bytes → Option Scalar}
  {parseDecimal : Bytes → Option (Int × Int)} {resolver : ArrowFieldResolver} {shift : SignedInt 64}

/-! ### The expansion -/

lemma visitRowAll_map {α : Type} (f : α → Node) (l : List α) :
    visitRowAll parseDecimal resolver shift (l.map f) =
      l.mapM (fun a => visitRow parseDecimal resolver shift (f a)) := by
  induction l with
  | nil =>
    simp only [List.map_nil, visitRowAll]
    rfl
  | cons a l ih => rw [List.map_cons, visitRowAll, ih, List.mapM_cons]; rfl

lemma visitRow_expansion (signature : FunctionSignature) (useOr : Bool) (scalar : Node) (array : ArrayHolder) :
    visitRow parseDecimal resolver shift (scalarOverArrayToLogical signature useOr scalar array) = (do
      let functionNodes ← array.2.mapM (fun elem =>
        visitRow parseDecimal resolver shift (.function signature [scalar, .const ⟨array.1, elem⟩]))
      .ok (boolean useOr functionNodes)) := by
  cases useOr
  · simp only [scalarOverArrayToLogical, Bool.false_eq_true, if_false, visitRow, visitRowAll_map]
  · simp only [scalarOverArrayToLogical, if_true, visitRow, visitRowAll_map]

/-- The two pairs of a comparison and a quantifier for which an `IN` is built. -/
def UsesIn (functionId : FunctionID) (useOr : Bool) : Prop :=
  functionId = .equal ∧ useOr = true ∨ functionId = .notEqual ∧ useOr = false

lemma visitRow_in {signature : FunctionSignature} {useOr : Bool} {scalar : Node} {array : ArrayHolder}
    {g inNode : GandivaNode} (huse : UsesIn signature.functionId useOr)
    (hscalar : visitRow parseDecimal resolver shift scalar = .ok g) (hin : tryToBuildIn g array = .ok inNode) :
    visitRow parseDecimal resolver shift (.scalarOverArray signature useOr scalar array) =
      .ok (wrapIn signature.functionId g inNode) := by
  unfold UsesIn at huse
  simp only [visitRow, hscalar, bind, Except.bind, hin, if_pos huse]

/-- Without an `IN` the visitor builds the expansion. -/
lemma visitRow_notIn {signature : FunctionSignature} {useOr : Bool} {scalar : Node} {array : ArrayHolder}
    {g : GandivaNode} {e : String} (huse : UsesIn signature.functionId useOr)
    (hscalar : visitRow parseDecimal resolver shift scalar = .ok g) (hin : tryToBuildIn g array = .error e) :
    visitRow parseDecimal resolver shift (.scalarOverArray signature useOr scalar array) =
      visitRow parseDecimal resolver shift (scalarOverArrayToLogical signature useOr scalar array) := by
  unfold UsesIn at huse
  rw [visitRow_expansion]
  simp only [visitRow_element]
  simp only [visitRow, hscalar, bind, Except.bind, hin, if_pos huse]

/-! ### The comparisons -/

/-- The types for which an `IN` is built. -/
def InTypes (scalarType : ArrowType) (arrayType : ValueType) : Prop :=
  ((scalarType = .int16 ∨ scalarType = .int32 ∨ scalarType = .int64) ∧
      (arrayType = .int2 ∨ arrayType = .int4 ∨ arrayType = .int8)) ∨
    (scalarType = .utf8 ∧ arrayType = .string)

/-- The integers of an `IN` are those of all elements. -/
lemma integersOf_bind {bits : Nat} {elems : List (Option (SignedInt bits))} {f : List Int → Except String GandivaNode}
    {inNode : GandivaNode} (h : (integersOf elems >>= f) = .ok inNode) :
    ∃ ys : List (SignedInt bits), elems = ys.map some := by
  obtain ⟨values, hvalues, -⟩ := bind_ok h
  obtain ⟨ys, helems, -⟩ := integersOf_ok hvalues
  exact ⟨ys, helems⟩

lemma tryToBuildIn_ok {g inNode : GandivaNode} {array : ArrayHolder} (h : tryToBuildIn g array = .ok inNode) :
    InTypes g.returnType array.1 ∧ ∃ ys : List (PhysicalType array.1), array.2 = ys.map some := by
  obtain ⟨type, elems⟩ := array
  cases type <;> simp only [tryToBuildIn, reduceCtorEq] at h
  case int2 =>
    refine ⟨.inl ⟨?_, .inl rfl⟩, ?_⟩
    · by_cases h16 : g.returnType = .int16
      · exact .inl h16
      · simp only [if_neg h16] at h
        split_ifs at h with h32 h64
        · exact .inr (.inl h32)
        · exact .inr (.inr h64)
    · split_ifs at h
      all_goals exact integersOf_bind h
  case int4 =>
    refine ⟨.inl ⟨?_, .inr (.inl rfl)⟩, ?_⟩
    · by_cases h16 : g.returnType = .int16
      · exact .inl h16
      · simp only [if_neg h16] at h
        split_ifs at h with h32 h64
        · exact .inr (.inl h32)
        · exact .inr (.inr h64)
    · split_ifs at h
      all_goals exact integersOf_bind h
  case int8 =>
    refine ⟨.inl ⟨?_, .inr (.inr rfl)⟩, ?_⟩
    · by_cases hsmall : g.returnType = .int32 ∨ g.returnType = .int16
      · exact hsmall.elim (fun h32 => .inr (.inl h32)) .inl
      · simp only [if_neg hsmall] at h
        split_ifs at h with h64
        exact .inr (.inr h64)
    · split_ifs at h
      all_goals exact integersOf_bind h
  case string =>
    split_ifs at h with hutf8
    obtain ⟨values, hvalues, -⟩ := bind_ok h
    exact ⟨.inr ⟨hutf8, rfl⟩, values, stringsOf_ok hvalues⟩

/-- A constant of such a type is a literal. -/
lemma visitConst_in {scalarType : ArrowType} {type : ValueType} (h : InTypes scalarType type) (y : PhysicalType type) :
    visitConst parseDecimal ⟨type, some y⟩ = .ok (literal ⟨type, y⟩) := by
  rcases h with ⟨-, rfl | rfl | rfl⟩ | ⟨-, rfl⟩
  all_goals rfl

lemma literal_in {scalarType : ArrowType} {type : ValueType} (h : InTypes scalarType type) (y : PhysicalType type) :
    gandivaEval lib cells (literal ⟨type, y⟩) = .value ⟨type, y⟩ := by
  rcases h with ⟨-, rfl | rfl | rfl⟩ | ⟨-, rfl⟩
  all_goals
    simp only [gandivaEval]
    rfl

/-- The comparison of a scalar with an element. -/
def elementNode (shift : SignedInt 64) (name : String) (g : GandivaNode) (y : Scalar) : GandivaNode :=
  function name [(promote shift g (literal y)).1, (promote shift g (literal y)).2] .boolean

lemma elementNode_error {name : String} {g : GandivaNode} {y : Scalar} (h : gandivaEval lib cells g = .error) :
    gandivaEval lib cells (elementNode shift name g y) = .error :=
  function_error (promoteLtoR_error h)

/-- Integers and strings: what is promoted stays one of them. -/
def Plain (type : ArrowType) : Prop := type = .int16 ∨ type = .int32 ∨ type = .int64 ∨ type = .utf8

lemma InTypes.plain {scalarType : ArrowType} {type : ValueType} (h : InTypes scalarType type) :
    Plain scalarType ∧ Plain (literalType type) := by
  rcases h with ⟨hscalar, rfl | rfl | rfl⟩ | ⟨hscalar, rfl⟩
  all_goals simp only [Plain, literalType, reduceCtorEq, or_true, true_or, and_true]
  all_goals tauto

lemma promoteLtoR_null {g b : GandivaNode} (htype : Plain g.returnType) (h : gandivaEval lib cells g = .null) :
    gandivaEval lib cells (promoteLtoR shift g b) = .null := by
  apply And.right (a := Plain (promoteLtoR shift g b).returnType)
  apply promoteLtoR_induction (P := fun a => Plain a.returnType ∧ gandivaEval lib cells a = .null)
  · intro a _ ha
    refine ⟨.inr (.inl rfl), ?_⟩
    rw [promoteToInt4, gandivaEval_function, List.map_singleton, ha.2, @evalGandivaFunction_eq _ _ _ _ _ rfl rfl rfl]
    rfl
  · intro a _ ha
    refine ⟨.inr (.inr (.inl rfl)), ?_⟩
    rw [promoteToInt8, gandivaEval_function, List.map_singleton, ha.2, @evalGandivaFunction_eq _ _ _ _ _ rfl rfl rfl]
    rfl
  · intro a hfloat ha
    simp [hfloat, Plain] at ha
  · intro a htz ha
    simp [htz, Plain] at ha
  · exact ⟨htype, h⟩

lemma promoteLtoR_value {g b : GandivaNode} {x : Scalar} (htype : Plain g.returnType)
    (h : gandivaEval lib cells g = .value x) : ∃ x', gandivaEval lib cells (promoteLtoR shift g b) = .value x' := by
  apply And.right (a := Plain (promoteLtoR shift g b).returnType)
  apply promoteLtoR_induction (P := fun a => Plain a.returnType ∧ ∃ x', gandivaEval lib cells a = .value x')
  · rintro a h16 ⟨-, x', hx'⟩
    obtain ⟨x'', hx'', -⟩ := promoteToInt4_integer hx' h16
    exact ⟨.inr (.inl rfl), x'', hx''⟩
  · rintro a hsmall ⟨-, x', hx'⟩
    obtain ⟨x'', hx'', -⟩ := promoteToInt8_integer hx' hsmall
    exact ⟨.inr (.inr (.inl rfl)), x'', hx''⟩
  · intro a hfloat ha
    simp [hfloat, Plain] at ha
  · intro a htz ha
    simp [htz, Plain] at ha
  · exact ⟨htype, x, h⟩

variable {functionId : FunctionID} {name : String} {g : GandivaNode} {type : ValueType} {y : PhysicalType type}

lemma elementNode_null (hname : nativeFunction name = some (nativeComparison functionId))
    (htypes : InTypes g.returnType type) (h : gandivaEval lib cells g = .null) :
    gandivaEval lib cells (elementNode shift name g ⟨type, y⟩) = .null := by
  obtain ⟨y', hy'⟩ : ∃ y', gandivaEval lib cells (promote shift g (literal ⟨type, y⟩)).2 = .value y' :=
    promoteLtoR_value htypes.plain.2 (literal_in htypes y)
  have hg' : gandivaEval lib cells (promote shift g (literal ⟨type, y⟩)).1 = .null := promoteLtoR_null htypes.plain.1 h
  rw [elementNode, gandivaEval_function, List.map_cons, List.map_singleton, hg', hy',
    @evalGandivaFunction_eq _ _ _ _ .null hname rfl rfl]
  rfl

lemma elementNode_value {x : Scalar} {b : Bool} (hname : nativeFunction name = some (nativeComparison functionId))
    (htypes : InTypes g.returnType type) (h : gandivaEval lib cells g = .value x)
    (hout : compareScalars (rowShift shift) functionId x ⟨type, y⟩ = some (.truth b)) :
    gandivaEval lib cells (elementNode shift name g ⟨type, y⟩) = .truth b := by
  have heval : evalGandivaFunction lib name [gandivaEval lib cells (promote shift g (literal ⟨type, y⟩)).1,
      gandivaEval lib cells (promote shift g (literal ⟨type, y⟩)).2] = .truth b := by
    have hy := @literal_in lib cells _ _ htypes y
    simp only [compareScalars] at hout
    split_ifs at hout with hsame h4 h8 hts
    · exact comparison_same hname h hy hsame hout
    · exact comparison_integers hname h hy (.inl ⟨h4, hout⟩)
    · exact comparison_integers hname h hy (.inr ⟨h8, hout⟩)
    · rcases htypes with ⟨-, rfl | rfl | rfl⟩ | ⟨-, rfl⟩ <;> simp [areScalarTypes] at hts
  rw [elementNode, gandivaEval_function, List.map_cons, List.map_singleton, heval]
  rfl

/-- A comparison with an element has the meaning of the comparison. -/
lemma elementNode_truth (hname : nativeFunction name = some (nativeComparison functionId))
    (htypes : InTypes g.returnType type)
    (hvalue : ∀ x, gandivaEval lib cells g = .value x →
      ∃ b, compareScalars (rowShift shift) functionId x ⟨type, y⟩ = some (.truth b)) :
    (gandivaEval lib cells (elementNode shift name g ⟨type, y⟩)).toTruth =
      elementTruth (rowShift shift) functionId (gandivaEval lib cells g) type (some y) := by
  cases hg : gandivaEval lib cells g with
  | error => rw [elementNode_error hg]; rfl
  | null => rw [elementNode_null hname htypes hg]; rfl
  | value x =>
    obtain ⟨b, hb⟩ := hvalue x hg
    rw [elementNode_value hname htypes hg hb]
    simp only [elementTruth, compareElement, compareOutcomes, hb]

lemma UsesIn.isComparison {useOr : Bool} (h : UsesIn functionId useOr) : functionId.isComparison = true := by
  rcases h with ⟨rfl, -⟩ | ⟨rfl, -⟩
  · rfl
  · rfl

/-- What the expansion of an array that has an `IN` evaluates to. -/
lemma expansion_eval {signature : FunctionSignature} {useOr : Bool} {scalar : Node} {array : ArrayHolder}
    {inNode : GandivaNode} (huse : UsesIn signature.functionId useOr)
    (hscalar : visitRow parseDecimal resolver shift scalar = .ok g) (hin : tryToBuildIn g array = .ok inNode) :
    rowFilterOutcome lib cells parseDecimal resolver shift (scalarOverArrayToLogical signature useOr scalar array) =
      .ofTruth (joinTruths useOr (array.2.map
        (elementTruth (rowShift shift) signature.functionId (gandivaEval lib cells g) array.1))) := by
  obtain ⟨htypes, ys, helems⟩ := tryToBuildIn_ok hin
  obtain ⟨name, hfun, hname⟩ := gandivaFunction_comparison huse.isComparison
  have hvisit : ∀ y, visitRow parseDecimal resolver shift (.function signature [scalar, .const ⟨array.1, some y⟩]) =
      .ok (elementNode shift name g ⟨array.1, y⟩) := by
    intro y
    rw [visitRow_element, hscalar, ok_bind, visitConst_in htypes, ok_bind]
    simp [createFunction, huse.isComparison, createPromoted, hfun, elementNode]
  have hnodes : array.2.mapM (fun elem =>
      visitRow parseDecimal resolver shift (.function signature [scalar, .const ⟨array.1, elem⟩])) =
      .ok (ys.map (fun y => elementNode shift name g ⟨array.1, y⟩)) := by
    rw [helems, mapM_ok_iff, List.forall₂_map_left_iff, List.forall₂_map_right_iff, List.forall₂_same]
    exact fun y _ => hvisit y
  have hcompares : ∀ y x, gandivaEval lib cells g = .value x →
      ∃ b, compareScalars (rowShift shift) signature.functionId x ⟨array.1, y⟩ = some (.truth b) := by
    intro y x hx
    have hspec : TestsMembership lib cells (rowShift shift) inNode x array := tryToBuildIn_spec hx hin
    obtain ⟨same, -, -, -, hsame⟩ := hspec
    rcases huse with ⟨h, -⟩ | ⟨h, -⟩
    · rw [h]
      exact ⟨_, (hsame y).1⟩
    · rw [h]
      exact ⟨_, (hsame y).2⟩
  have hbuilt : visitRow parseDecimal resolver shift (scalarOverArrayToLogical signature useOr scalar array) =
      .ok (boolean useOr (ys.map (fun y => elementNode shift name g ⟨array.1, y⟩))) := by
    rw [visitRow_expansion, hnodes, ok_bind]
  rw [rowFilterOutcome_ok hbuilt]
  simp only [gandivaEval, gandivaEvalAll_eq_map, List.map_map, helems]
  congr 2
  apply List.map_congr_left
  intro y _
  exact elementNode_truth hname htypes (hcompares y)

/-- Comparisons that all fail, or are all unknown. -/
lemma joinTruths_const {α : Type} (useOr : Bool) {f : α → Truth} {t : Truth} (ht : t = .fail ∨ t = .unknown) {l : List α}
    (hf : ∀ a ∈ l, f a = t) (hne : l ≠ []) : joinTruths useOr (l.map f) = t := by
  have hfold : ∀ l : List α, (∀ a ∈ l, f a = t) → (l.map f).foldl (Truth.join useOr) t = t := by
    intro l
    induction l with
    | nil => exact fun _ => rfl
    | cons a l ih =>
      intro h
      rw [List.map_cons, List.foldl_cons, h a List.mem_cons_self]
      have hjoin : Truth.join useOr t t = t := by rcases ht with rfl | rfl <;> rfl
      rw [hjoin]
      exact ih (fun b hb => h b (List.mem_cons_of_mem a hb))
  obtain ⟨a, l, rfl⟩ := List.exists_cons_of_ne_nil hne
  rw [joinTruths, List.map_cons, List.foldl_cons, hf a List.mem_cons_self]
  have hjoin : Truth.join useOr (.known (!useOr)) t = t := by
    rcases ht with rfl | rfl <;> cases useOr <;> rfl
  rw [hjoin]
  exact hfold l (fun b hb => hf b (List.mem_cons_of_mem a hb))

/-- An expansion with an element that is compared has no value when the scalar has none. -/
lemma expansion_noValue {useOr : Bool} {out : Outcome} {array : ArrayHolder} (hout : NoValue out)
    (hne : array.2 ≠ []) :
    Outcome.ofTruth (joinTruths useOr (array.2.map (elementTruth (rowShift shift) functionId out array.1))) = out := by
  rcases hout with rfl | rfl
  · rw [joinTruths_const useOr (.inl rfl) (fun elem _ => ?_) hne]
    · rfl
    · cases elem <;> rfl
  · rw [joinTruths_const useOr (.inr rfl) (fun elem _ => ?_) hne]
    · rfl
    · cases elem <;> rfl

end

/-- Every column is a column of 32-bit integers. -/
def int4Resolver : ArrowFieldResolver := fun name => some (name, .int32)

/-- A row of nulls. -/
def nullRow : Bytes → Option Scalar := fun _ => none

/-- No function has a result that is not known. -/
def noLibrary : String → List Outcome → Outcome := fun _ _ => .error

def noDecimals : Bytes → Option (Int × Int) := fun _ => none

def equalInt4 : FunctionSignature := ⟨.equal, .bool, [.int4, .int4]⟩

/-- The array `{7}`. -/
def oneSeven : ArrayHolder := ⟨.int4, [some ⟨7, by decide⟩]⟩

def columnC : Node := .variable .int4 (bytes "c")

lemma visitRow_columnC : visitRow noDecimals int4Resolver ⟨0, by decide⟩ columnC = .ok (field (bytes "c") .int32) := by
  simp only [columnC, visitRow, int4Resolver]

end IcebergCxx.Proofs

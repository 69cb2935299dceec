import IcebergCxx.Proofs.StatsRegistry

/-!
# Comparisons of intervals are exact

The bounds of a comparison are as narrow as they can be: they are `TRUE` when all pairs of values
satisfy it, `FALSE` when none does and unknown otherwise. Integers of different widths are widened
first, which neither adds nor removes a value.
-/

namespace IcebergCxx.Proofs

open Lib

/-! ### One type -/

section
variable {α : Type} [LinearOrder α] {l r : MinMaxStats α}

/-- The registered evaluator of a comparison. -/
def evaluatorOf (functionId : FunctionID) : MinMaxStats α → MinMaxStats α → BoolStats :=
  (binaryEvaluator functionId).getD evaluateEqual

lemma binaryEvaluator_eq {functionId : FunctionID} (h : functionId.isComparison = true) :
    binaryEvaluator (α := α) functionId = some (evaluatorOf functionId) := by
  cases functionId <;> first
    | rfl
    | cases h

/-- The comparison that holds of `y` and `x` when this one does of `x` and `y`. -/
def mirror : FunctionID → FunctionID
  | .lessThan => .greaterThan
  | .lessThanOrEqualTo => .greaterThanOrEqualTo
  | .greaterThan => .lessThan
  | .greaterThanOrEqualTo => .lessThanOrEqualTo
  | other => other

lemma isComparison_mirror {functionId : FunctionID} (h : functionId.isComparison = true) :
    (mirror functionId).isComparison = true := by
  cases functionId <;> first
    | rfl
    | cases h

omit [LinearOrder α] in
lemma evaluateMonotoneComparison_eq {f : α → α → Bool} {b : Bool} (h1 : f l.min r.min = b) (h2 : f l.min r.max = b)
    (h3 : f l.max r.min = b) (h4 : f l.max r.max = b) : evaluateMonotoneComparison f l r = ⟨b, b⟩ := by
  unfold evaluateMonotoneComparison
  rw [h1, h2, h3, h4]
  cases b <;> rfl

omit [LinearOrder α] in
lemma evaluateMonotoneComparison_cases (f : α → α → Bool) (l r : MinMaxStats α) :
    evaluateMonotoneComparison f l r = boolStatsTrue ∨ evaluateMonotoneComparison f l r = boolStatsFalse ∨
      evaluateMonotoneComparison f l r = boolStatsUnknown := by
  unfold evaluateMonotoneComparison
  dsimp only
  split_ifs
  · exact .inr (.inl rfl)
  · exact .inl rfl
  · exact .inr (.inr rfl)

omit [LinearOrder α] in
lemma evaluateMonotoneComparison_swap (f : α → α → Bool) (l r : MinMaxStats α) :
    evaluateMonotoneComparison (fun a b => f b a) r l = evaluateMonotoneComparison f l r := by
  unfold evaluateMonotoneComparison
  dsimp only
  simp only [List.all_cons, List.all_nil, Bool.and_true]
  generalize f l.min r.min = c1
  generalize f l.min r.max = c2
  generalize f l.max r.min = c3
  generalize f l.max r.max = c4
  revert c1 c2 c3 c4
  decide

lemma boolStats_and_comm (a b : BoolStats) : a.and b = b.and a := by
  obtain ⟨a1, a2⟩ := a
  obtain ⟨b1, b2⟩ := b
  revert a1 a2 b1 b2
  decide

lemma boolStats_and_false (a : BoolStats) : a.and boolStatsFalse = boolStatsFalse := by
  obtain ⟨a1, a2⟩ := a
  revert a1 a2
  decide

lemma evaluateEqual_cases (l r : MinMaxStats α) :
    evaluateEqual l r = boolStatsTrue ∨ evaluateEqual l r = boolStatsFalse ∨ evaluateEqual l r = boolStatsUnknown := by
  unfold evaluateEqual BoolStats.and
  split_ifs
  · exact .inl rfl
  · exact .inr (.inl rfl)
  · exact .inr (.inr rfl)

lemma evaluatorOf_cases (functionId : FunctionID) (l r : MinMaxStats α) :
    evaluatorOf functionId l r = boolStatsTrue ∨ evaluatorOf functionId l r = boolStatsFalse ∨
      evaluatorOf functionId l r = boolStatsUnknown := by
  have hequal := evaluateEqual_cases l r
  cases functionId
  case lessThan => exact evaluateMonotoneComparison_cases (fun a b => decide (a < b)) l r
  case lessThanOrEqualTo => exact evaluateMonotoneComparison_cases (fun a b => decide (a ≤ b)) l r
  case greaterThan => exact evaluateMonotoneComparison_cases (fun a b => decide (b < a)) l r
  case greaterThanOrEqualTo => exact evaluateMonotoneComparison_cases (fun a b => decide (b ≤ a)) l r
  case notEqual =>
    change (evaluateEqual l r).not = _ ∨ (evaluateEqual l r).not = _ ∨ (evaluateEqual l r).not = _
    rcases hequal with h | h | h
    · rw [h]
      exact .inr (.inl rfl)
    · rw [h]
      exact .inl rfl
    · rw [h]
      exact .inr (.inr rfl)
  all_goals exact hequal

lemma evaluatorOf_mirror {functionId : FunctionID} (h : functionId.isComparison = true) (l r : MinMaxStats α) :
    evaluatorOf (mirror functionId) r l = evaluatorOf functionId l r := by
  have hequal : evaluateEqual r l = evaluateEqual l r := by
    unfold evaluateEqual evaluateLessThanOrEqualTo evaluateGreaterThanOrEqualTo
    rw [boolStats_and_comm, evaluateMonotoneComparison_swap (fun a b : α => decide (a ≤ b)) l r,
      evaluateMonotoneComparison_swap (fun a b : α => decide (b ≤ a)) l r]
  cases functionId <;> cases h
  case lessThan => exact evaluateMonotoneComparison_swap (fun a b : α => decide (a < b)) l r
  case lessThanOrEqualTo => exact evaluateMonotoneComparison_swap (fun a b : α => decide (a ≤ b)) l r
  case greaterThan => exact evaluateMonotoneComparison_swap (fun a b : α => decide (b < a)) l r
  case greaterThanOrEqualTo => exact evaluateMonotoneComparison_swap (fun a b : α => decide (b ≤ a)) l r
  case equal => exact hequal
  case notEqual =>
    change (evaluateEqual r l).not = (evaluateEqual l r).not
    rw [hequal]

/-- Every pair of the two intervals compares to `b`. -/
def PairsCompare (functionId : FunctionID) (l r : MinMaxStats α) (b : Bool) : Prop :=
  ∀ x y, l.min ≤ x → x ≤ l.max → r.min ≤ y → y ≤ r.max → comparator functionId x y = b

/-- Intervals without a common value lie apart. -/
lemma evaluateEqual_of_disjoint (hl : l.min ≤ l.max) (hr : r.min ≤ r.max) (h : PairsCompare .equal l r false) :
    evaluateEqual l r = boolStatsFalse := by
  have hapart : l.max < r.min ∨ r.max < l.min := by
    by_contra hmeet
    rw [not_or, not_lt, not_lt] at hmeet
    have hcommon := h (max l.min r.min) (max l.min r.min) (le_max_left _ _) (max_le hl hmeet.1) (le_max_right _ _)
      (max_le hmeet.2 hr)
    simp [comparator] at hcommon
  unfold evaluateEqual
  rcases hapart with hlt | hlt
  · have hge : evaluateGreaterThanOrEqualTo l r = boolStatsFalse := by
      apply evaluateMonotoneComparison_eq
      · exact decide_eq_false (not_le.mpr (hl.trans_lt hlt))
      · exact decide_eq_false (not_le.mpr ((hl.trans_lt hlt).trans_le hr))
      · exact decide_eq_false (not_le.mpr hlt)
      · exact decide_eq_false (not_le.mpr (hlt.trans_le hr))
    rw [hge, boolStats_and_false]
  · have hle : evaluateLessThanOrEqualTo l r = boolStatsFalse := by
      apply evaluateMonotoneComparison_eq
      · exact decide_eq_false (not_le.mpr (hr.trans_lt hlt))
      · exact decide_eq_false (not_le.mpr hlt)
      · exact decide_eq_false (not_le.mpr ((hr.trans_lt hlt).trans_le hl))
      · exact decide_eq_false (not_le.mpr (hlt.trans_le hl))
    rw [hle, boolStats_and_comm, boolStats_and_false]

/-- Intervals all of whose pairs are equal are one point. -/
lemma evaluateEqual_of_point (hl : l.min ≤ l.max) (hr : r.min ≤ r.max) (h : PairsCompare .equal l r true) :
    evaluateEqual l r = boolStatsTrue := by
  have hpair : ∀ x y, l.min ≤ x → x ≤ l.max → r.min ≤ y → y ≤ r.max → x = y := fun x y h1 h2 h3 h4 =>
    of_decide_eq_true (h x y h1 h2 h3 h4)
  have h1 := hpair l.min r.min le_rfl hl le_rfl hr
  have h2 := hpair l.min r.max le_rfl hl hr le_rfl
  have h3 := hpair l.max r.min hl le_rfl le_rfl hr
  have h4 := hpair l.max r.max hl le_rfl hr le_rfl
  have hle : evaluateLessThanOrEqualTo l r = boolStatsTrue := by
    apply evaluateMonotoneComparison_eq
    · exact decide_eq_true h1.le
    · exact decide_eq_true h2.le
    · exact decide_eq_true h3.le
    · exact decide_eq_true h4.le
  have hge : evaluateGreaterThanOrEqualTo l r = boolStatsTrue := by
    apply evaluateMonotoneComparison_eq
    · exact decide_eq_true h1.ge
    · exact decide_eq_true h2.ge
    · exact decide_eq_true h3.ge
    · exact decide_eq_true h4.ge
  rw [evaluateEqual, hle, hge]
  rfl

lemma evaluatorOf_of_pairs (hl : l.min ≤ l.max) (hr : r.min ≤ r.max) {functionId : FunctionID}
    (hcmp : functionId.isComparison = true) {b : Bool} (h : PairsCompare functionId l r b) :
    evaluatorOf functionId l r = ⟨b, b⟩ := by
  have hcorners : evaluateMonotoneComparison (comparator functionId) l r = ⟨b, b⟩ :=
    evaluateMonotoneComparison_eq (h _ _ le_rfl hl le_rfl hr) (h _ _ le_rfl hl hr le_rfl) (h _ _ hl le_rfl le_rfl hr)
      (h _ _ hl le_rfl hr le_rfl)
  cases functionId <;> cases hcmp
  case lessThan => exact hcorners
  case lessThanOrEqualTo => exact hcorners
  case greaterThan => exact hcorners
  case greaterThanOrEqualTo => exact hcorners
  case equal =>
    cases b with
    | false => exact evaluateEqual_of_disjoint hl hr h
    | true => exact evaluateEqual_of_point hl hr h
  case notEqual =>
    have hequal : PairsCompare .equal l r (!b) := by
      intro x y h1 h2 h3 h4
      have hne := h x y h1 h2 h3 h4
      simp only [comparator] at hne ⊢
      rw [← hne, decide_not, Bool.not_not]
    change (evaluateEqual l r).not = _
    cases b with
    | false => rw [evaluateEqual_of_point hl hr hequal]; rfl
    | true => rw [evaluateEqual_of_disjoint hl hr hequal]; rfl

/-- The bounds of a comparison say exactly what all pairs have in common. -/
lemma evaluatorOf_eq_iff (hl : l.min ≤ l.max) (hr : r.min ≤ r.max) {functionId : FunctionID}
    (hcmp : functionId.isComparison = true) (b : Bool) :
    evaluatorOf functionId l r = ⟨b, b⟩ ↔ PairsCompare functionId l r b := by
  refine ⟨fun h x y h1 h2 h3 h4 => ?_, evaluatorOf_of_pairs hl hr hcmp⟩
  have hallows := allows_binaryEvaluator ⟨h1, h2⟩ ⟨h3, h4⟩ (binaryEvaluator_eq hcmp)
  rw [h] at hallows
  exact le_antisymm (hallows _ rfl).2 (hallows _ rfl).1

end

/-! ### Widening -/

lemma toInt32_le_toInt32 {x y : Int} (hx : -2 ^ (32 - 1) ≤ x ∧ x < 2 ^ (32 - 1))
    (hy : -2 ^ (32 - 1) ≤ y ∧ y < 2 ^ (32 - 1)) : toInt32 x ≤ toInt32 y ↔ x ≤ y := by
  rw [← Subtype.coe_le_coe, toInt32_val hx, toInt32_val hy]

lemma toInt64_le_toInt64 {x y : Int} (hx : InInt64 x) (hy : InInt64 y) : toInt64 x ≤ toInt64 y ↔ x ≤ y := by
  rw [← Subtype.coe_le_coe, toInt64_val hx, toInt64_val hy]

/-- Maps the values of one type into those of another, in order and without gaps. -/
structure Widening (a b : ValueType) where
  map : PhysicalType a → PhysicalType b
  le_iff : ∀ x y, map x ≤ map y ↔ x ≤ y
  onto : ∀ x y z, map x ≤ z → z ≤ map y → ∃ w, map w = z

namespace Widening

def refl (a : ValueType) : Widening a a where
  map x := x
  le_iff _ _ := Iff.rfl
  onto _ _ z _ _ := ⟨z, rfl⟩

def int2ToInt4 : Widening .int2 .int4 where
  map x := toInt32 (Subtype.val x)
  le_iff x y := toInt32_le_toInt32 (signed16_bounds x) (signed16_bounds y)
  onto x y z hx hy := by
    have h1 : Subtype.val x ≤ Subtype.val z := toInt32_val (signed16_bounds x) ▸ Subtype.coe_le_coe.mpr hx
    have h2 : Subtype.val z ≤ Subtype.val y := toInt32_val (signed16_bounds y) ▸ Subtype.coe_le_coe.mpr hy
    refine ⟨⟨z.val, x.2.1.trans h1, h2.trans_lt y.2.2⟩, Subtype.ext ?_⟩
    exact toInt32_val z.2

def int2ToInt8 : Widening .int2 .int8 where
  map x := toInt64 (Subtype.val x)
  le_iff x y := toInt64_le_toInt64 (inInt64_of_signed16 x) (inInt64_of_signed16 y)
  onto x y z hx hy := by
    have h1 : Subtype.val x ≤ Subtype.val z := toInt64_val (inInt64_of_signed16 x) ▸ Subtype.coe_le_coe.mpr hx
    have h2 : Subtype.val z ≤ Subtype.val y := toInt64_val (inInt64_of_signed16 y) ▸ Subtype.coe_le_coe.mpr hy
    refine ⟨⟨z.val, x.2.1.trans h1, h2.trans_lt y.2.2⟩, Subtype.ext ?_⟩
    exact toInt64_val (inInt64_of_signed64 z)

def int4ToInt8 : Widening .int4 .int8 where
  map x := toInt64 (Subtype.val x)
  le_iff x y := toInt64_le_toInt64 (inInt64_of_signed32 x) (inInt64_of_signed32 y)
  onto x y z hx hy := by
    have h1 : Subtype.val x ≤ Subtype.val z := toInt64_val (inInt64_of_signed32 x) ▸ Subtype.coe_le_coe.mpr hx
    have h2 : Subtype.val z ≤ Subtype.val y := toInt64_val (inInt64_of_signed32 y) ▸ Subtype.coe_le_coe.mpr hy
    refine ⟨⟨z.val, x.2.1.trans h1, h2.trans_lt y.2.2⟩, Subtype.ext ?_⟩
    exact toInt64_val (inInt64_of_signed64 z)

/-- The bounds after the cast. -/
def stats {a b : ValueType} (w : Widening a b) (l : MinMaxStats (PhysicalType a)) : MinMaxStats (PhysicalType b) :=
  ⟨w.map l.min, w.map l.max⟩

end Widening

/-! ### The registry -/

def isInteger : ValueType → Bool
  | .int2 | .int4 | .int8 => true
  | _ => false

/-- One type with an order, or two integer types. -/
def ComparableTypes (a b : ValueType) : Prop :=
  (a = b ∧ a.isComparable = true) ∨ (isInteger a = true ∧ isInteger b = true)

/-- The pair of values satisfies the comparison. -/
def Satisfies (functionId : FunctionID) (x y : Scalar) : Prop := compareScalars 0 functionId x y = some (.truth true)

lemma evaluateBinary_eq {type : ValueType} (hcomp : type.isComparable = true) {functionId : FunctionID}
    (hcmp : functionId.isComparison = true) (l r : MinMaxStats (PhysicalType type)) (c c' : CountStats) :
    ∃ count, evaluateBinary functionId ⟨⟨type, l⟩, c⟩ ⟨⟨type, r⟩, c'⟩ =
      .ok ⟨(evaluatorOf functionId l r).toGeneric, count⟩ := by
  simp only [evaluateBinary, dite_true, hcomp, if_true, binaryEvaluator_eq hcmp]
  exact ⟨_, rfl⟩

/-- The registry compares two arguments in a common type, and so do their values. -/
structure Compares (lhs rhs : GenericStats) (type : ValueType) (wl : Widening lhs.minMax.1 type)
    (wr : Widening rhs.minMax.1 type) : Prop where
  comparable : type.isComparable = true
  bounds : ∀ shift functionId, functionId.isComparison = true → ∃ count,
    registryEvaluate shift functionId [lhs, rhs] =
      .ok ⟨(evaluatorOf functionId (wl.stats lhs.minMax.2) (wr.stats rhs.minMax.2)).toGeneric, count⟩
  swapped : ∀ shift functionId, functionId.isComparison = true → ∃ count,
    registryEvaluate shift functionId [rhs, lhs] =
      .ok ⟨(evaluatorOf functionId (wr.stats rhs.minMax.2) (wl.stats lhs.minMax.2)).toGeneric, count⟩
  values : ∀ functionId x y, compareScalars 0 functionId ⟨lhs.minMax.1, x⟩ ⟨rhs.minMax.1, y⟩ =
    some (.truth (comparator functionId (wl.map x) (wr.map y)))

lemma compares_same {type : ValueType} (hcomp : type.isComparable = true) (l r : MinMaxStats (PhysicalType type))
    (c c' : CountStats) :
    Compares ⟨⟨type, l⟩, c⟩ ⟨⟨type, r⟩, c'⟩ type (.refl type) (.refl type) where
  comparable := hcomp
  bounds shift functionId hcmp := by
    simp only [registryEvaluate, hcmp, if_true, castToSameTypeForComparison, ok_bind]
    exact evaluateBinary_eq hcomp hcmp l r c c'
  swapped shift functionId hcmp := by
    simp only [registryEvaluate, hcmp, if_true, castToSameTypeForComparison, ok_bind]
    exact evaluateBinary_eq hcomp hcmp r l c' c
  values functionId x y := by simp [compareScalars, compareSame, hcomp, Widening.refl]

/-- A comparison of different integer types, for which the casts of the registry are `wl` and `wr`. -/
lemma compares_integers {a b type : ValueType} (hcomp : type.isComparable = true) (wl : Widening a type)
    (wr : Widening b type)
    (hcast : ∀ shift (l : MinMaxStats (PhysicalType a)) (r : MinMaxStats (PhysicalType b)) c c',
      castToSameTypeForComparison shift ⟨⟨a, l⟩, c⟩ ⟨⟨b, r⟩, c'⟩ =
          .ok (⟨⟨type, wl.stats l⟩, c⟩, ⟨⟨type, wr.stats r⟩, c'⟩) ∧
        castToSameTypeForComparison shift ⟨⟨b, r⟩, c'⟩ ⟨⟨a, l⟩, c⟩ =
          .ok (⟨⟨type, wr.stats r⟩, c'⟩, ⟨⟨type, wl.stats l⟩, c⟩))
    (hvalues : ∀ functionId x y, compareScalars 0 functionId ⟨a, x⟩ ⟨b, y⟩ =
      compareSame functionId ⟨type, wl.map x⟩ ⟨type, wr.map y⟩)
    (l : MinMaxStats (PhysicalType a)) (r : MinMaxStats (PhysicalType b)) (c c' : CountStats) :
    Compares ⟨⟨a, l⟩, c⟩ ⟨⟨b, r⟩, c'⟩ type wl wr where
  comparable := hcomp
  bounds shift functionId hcmp := by
    simp only [registryEvaluate, hcmp, if_true, (hcast shift l r c c').1, ok_bind]
    exact evaluateBinary_eq hcomp hcmp _ _ c c'
  swapped shift functionId hcmp := by
    simp only [registryEvaluate, hcmp, if_true, (hcast shift l r c c').2, ok_bind]
    exact evaluateBinary_eq hcomp hcmp _ _ c' c
  values functionId x y := by
    rw [hvalues]
    simp [compareSame, hcomp]

lemma exists_compares {lhs rhs : GenericStats} (h : ComparableTypes lhs.minMax.1 rhs.minMax.1) :
    ∃ type wl wr, Compares lhs rhs type wl wr := by
  obtain ⟨⟨a, l⟩, c⟩ := lhs
  obtain ⟨⟨b, r⟩, c'⟩ := rhs
  rcases h with ⟨hab, hcomp⟩ | ⟨ha, hb⟩
  · dsimp only at hab hcomp
    subst hab
    exact ⟨a, _, _, compares_same hcomp l r c c'⟩
  · cases a <;> cases ha <;> cases b <;> cases hb
    · exact ⟨_, _, _, compares_same rfl l r c c'⟩
    · exact ⟨_, _, _,
        compares_integers rfl .int2ToInt4 (.refl _) (fun _ _ _ _ _ => ⟨rfl, rfl⟩) (fun _ _ _ => rfl) l r c c'⟩
    · exact ⟨_, _, _,
        compares_integers rfl .int2ToInt8 (.refl _) (fun _ _ _ _ _ => ⟨rfl, rfl⟩) (fun _ _ _ => rfl) l r c c'⟩
    · exact ⟨_, _, _,
        compares_integers rfl (.refl _) .int2ToInt4 (fun _ _ _ _ _ => ⟨rfl, rfl⟩) (fun _ _ _ => rfl) l r c c'⟩
    · exact ⟨_, _, _, compares_same rfl l r c c'⟩
    · exact ⟨_, _, _,
        compares_integers rfl .int4ToInt8 (.refl _) (fun _ _ _ _ _ => ⟨rfl, rfl⟩) (fun _ _ _ => rfl) l r c c'⟩
    · exact ⟨_, _, _,
        compares_integers rfl (.refl _) .int2ToInt8 (fun _ _ _ _ _ => ⟨rfl, rfl⟩) (fun _ _ _ => rfl) l r c c'⟩
    · exact ⟨_, _, _,
        compares_integers rfl (.refl _) .int4ToInt8 (fun _ _ _ _ _ => ⟨rfl, rfl⟩) (fun _ _ _ => rfl) l r c c'⟩
    · exact ⟨_, _, _, compares_same rfl l r c c'⟩

lemma ComparableTypes.comparable {a b : ValueType} (h : ComparableTypes a b) :
    a.isComparable = true ∧ b.isComparable = true := by
  rcases h with ⟨rfl, h⟩ | ⟨ha, hb⟩
  · exact ⟨h, h⟩
  · constructor
    · cases a <;> first
        | rfl
        | cases ha
    · cases b <;> first
        | rfl
        | cases hb

lemma truth_injective {a b : Bool} (h : Outcome.truth a = Outcome.truth b) : a = b := by
  have hvalue : (⟨.bool, a⟩ : Scalar) = ⟨.bool, b⟩ := Outcome.value.inj h
  exact eq_of_heq (Sigma.mk.inj hvalue).2

/-- The pairs of values of the arguments are the pairs in the common type. -/
lemma Compares.pairs_iff {lhs rhs : GenericStats} {type : ValueType} {wl : Widening lhs.minMax.1 type}
    {wr : Widening rhs.minMax.1 type} (h : Compares lhs rhs type wl wr)
    (htypes : ComparableTypes lhs.minMax.1 rhs.minMax.1) (functionId : FunctionID) (b : Bool) :
    PairsCompare functionId (wl.stats lhs.minMax.2) (wr.stats rhs.minMax.2) b ↔
      ∀ x y, InStats lhs.minMax x → InStats rhs.minMax y → (Satisfies functionId x y ↔ b = true) := by
  have hsatisfies : ∀ x y, Satisfies functionId ⟨lhs.minMax.1, x⟩ ⟨rhs.minMax.1, y⟩ ↔
      comparator functionId (wl.map x) (wr.map y) = true := by
    intro x y
    rw [Satisfies, h.values]
    constructor
    · intro htruth
      exact truth_injective (Option.some.inj htruth)
    · intro htrue
      rw [htrue]
  constructor
  · intro hpairs x y hx hy
    obtain ⟨x, rfl, hx1, hx2⟩ := hx.not_unordered htypes.comparable.1
    obtain ⟨y, rfl, hy1, hy2⟩ := hy.not_unordered htypes.comparable.2
    rw [hsatisfies, hpairs (wl.map x) (wr.map y) ((wl.le_iff _ _).mpr hx1) ((wl.le_iff _ _).mpr hx2)
      ((wr.le_iff _ _).mpr hy1) ((wr.le_iff _ _).mpr hy2)]
  · intro hpairs x y hx1 hx2 hy1 hy2
    obtain ⟨x, rfl⟩ := wl.onto _ _ x hx1 hx2
    obtain ⟨y, rfl⟩ := wr.onto _ _ y hy1 hy2
    have hx : InStats lhs.minMax ⟨lhs.minMax.1, x⟩ := .mk ((wl.le_iff _ _).mp hx1) ((wl.le_iff _ _).mp hx2)
    have hy : InStats rhs.minMax ⟨rhs.minMax.1, y⟩ := .mk ((wr.le_iff _ _).mp hy1) ((wr.le_iff _ _).mp hy2)
    exact Bool.eq_iff_iff.mpr ((hsatisfies x y).symm.trans (hpairs _ _ hx hy))

/-- A comparison of two intervals is `TRUE` exactly when every pair of their values satisfies it,
`FALSE` exactly when none does, and unknown otherwise. The bounds of `<>` are the negation of those
of `=`, and swapping the arguments mirrors the comparison. -/
theorem registryEvaluate_exact (shift : Option (SignedInt 64)) (functionId : FunctionID) (lhs rhs : GenericStats)
    (hcmp : functionId.isComparison = true) (htypes : ComparableTypes lhs.minMax.1 rhs.minMax.1)
    (hl : lhs.minMax.2.min ≤ lhs.minMax.2.max) (hr : rhs.minMax.2.min ≤ rhs.minMax.2.max) :
    ∃ result stats, registryEvaluate shift functionId [lhs, rhs] = .ok result ∧ result.getBool = .ok stats ∧
      (stats = boolStatsTrue ↔ ∀ x y, InStats lhs.minMax x → InStats rhs.minMax y → Satisfies functionId x y) ∧
      (stats = boolStatsFalse ↔ ∀ x y, InStats lhs.minMax x → InStats rhs.minMax y → ¬Satisfies functionId x y) ∧
      (stats ≠ boolStatsTrue → stats ≠ boolStatsFalse → stats = boolStatsUnknown) ∧
      (functionId = .equal → ∃ result', registryEvaluate shift .notEqual [lhs, rhs] = .ok result' ∧
        result'.getBool = .ok stats.not) ∧
      (∃ result', registryEvaluate shift (mirror functionId) [rhs, lhs] = .ok result' ∧
        result'.getBool = .ok stats) := by
  obtain ⟨type, wl, wr, h⟩ := exists_compares htypes
  obtain ⟨count, hresult⟩ := h.bounds shift functionId hcmp
  have hexact := evaluatorOf_eq_iff (l := wl.stats lhs.minMax.2) (r := wr.stats rhs.minMax.2)
    ((wl.le_iff _ _).mpr hl) ((wr.le_iff _ _).mpr hr) hcmp
  refine ⟨_, _, hresult, rfl, ?_, ?_, ?_, ?_, ?_⟩
  · rw [boolStatsTrue, hexact true, h.pairs_iff htypes]
    simp
  · rw [boolStatsFalse, hexact false, h.pairs_iff htypes]
    simp
  · intro htrue hfalse
    rcases evaluatorOf_cases functionId (wl.stats lhs.minMax.2) (wr.stats rhs.minMax.2) with hcase | hcase | hcase
    · exact absurd hcase htrue
    · exact absurd hcase hfalse
    · exact hcase
  · rintro rfl
    obtain ⟨count', hresult'⟩ := h.bounds shift .notEqual rfl
    exact ⟨_, hresult', rfl⟩
  · obtain ⟨count', hresult'⟩ := h.swapped shift (mirror functionId) (isComparison_mirror hcmp)
    refine ⟨_, hresult', ?_⟩
    rw [evaluatorOf_mirror hcmp]
    rfl

/-- The bounds 1 and 3 of a 16-bit column. -/
def int2OneToThree : GenericStats where
  minMax := ⟨.int2, ⟨⟨1, by decide⟩, ⟨3, by decide⟩⟩⟩

/-- The bounds 4 and 5 of a 64-bit column. -/
def int8FourToFive : GenericStats where
  minMax := ⟨.int8, ⟨⟨4, by decide⟩, ⟨5, by decide⟩⟩⟩

theorem registryEvaluate_exact_integers :
    ComparableTypes int2OneToThree.minMax.1 int8FourToFive.minMax.1 ∧
      ∀ x y, InStats int2OneToThree.minMax x → InStats int8FourToFive.minMax y → Satisfies .lessThan x y := by
  refine ⟨.inr ⟨rfl, rfl⟩, ?_⟩
  obtain ⟨result, stats, hresult, hstats, htrue, -⟩ := registryEvaluate_exact none .lessThan int2OneToThree
    int8FourToFive rfl (.inr ⟨rfl, rfl⟩) (by decide) (by decide)
  cases hresult
  cases hstats
  exact htrue.mp (by decide)

end IcebergCxx.Proofs

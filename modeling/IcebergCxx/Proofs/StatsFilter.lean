import IcebergCxx.Proofs.StatsRegistry

/-!
# Soundness of the statistics filter

The statistics that the visitor computes for an expression are sound for its value on every
row that the column statistics describe, as long as the visit is careful: it follows only the
`THEN` branch of an `IF` where the condition is not `NULL`, and its casts to timestamps are safe.
-/

namespace IcebergCxx.Proofs

open Lib

/-- The statistics describe the columns of the row. -/
def DescribesRow (getter : StatsGetter) (row : Bytes → Option Scalar) : Prop :=
  ∀ name type stats, getter name type = some stats → Sound stats (.ofOption (row name))

/-- The statistics of a constant. -/
def constStats (type : ValueType) (x : PhysicalType type) : GenericStats where
  minMax := ⟨type, ⟨x, x⟩⟩
  count := { containsNull := false, containsNonNull := true }

lemma constStats_sound (type : ValueType) (x : PhysicalType type) : Sound (constStats type x) (.value ⟨type, x⟩) :=
  ⟨rfl, .mk le_rfl le_rfl⟩

lemma PairSafe.mono {castSafe castSafe' : GenericStats → Prop} {lhs rhs : GenericStats}
    (hmono : ∀ stats, castSafe stats → castSafe' stats) (h : PairSafe castSafe lhs rhs) : PairSafe castSafe' lhs rhs :=
  fun hts => ⟨hmono lhs (h hts).1, hmono rhs (h hts).2⟩

section
variable (getter : StatsGetter) (shift : Option (SignedInt 64)) (castSafe : GenericStats → Prop)
  (eval : Node → Outcome)

mutual

/-- The visit of an expression does not go wrong on the row of `eval`: whenever it follows `THEN`
alone, the condition is not `NULL`, and the operands it casts to timestamps meet `castSafe`. -/
def Careful : Node → Prop
  | .function signature arguments =>
    CarefulAll arguments ∧
      ∀ l r, visitStatsAll getter shift arguments = .ok [l, r] → signature.functionId.isComparison = true →
        PairSafe castSafe l r
  | .const _ => True
  | .variable _ _ => True
  | .scalarOverArray signature _ scalar array =>
    Careful scalar ∧
      ∀ lhs, visitStats getter shift scalar = .ok lhs → signature.functionId.isComparison = true →
        ∀ x, some x ∈ array.2 → PairSafe castSafe lhs (constStats array.1 x)
  | .ifNode c t e =>
    Careful c ∧
      ∀ stats b, visitStats getter shift c = .ok stats → stats.getBool = .ok b →
        (b.min = true → eval c ≠ .null ∧ Careful t) ∧
        (b.min = false → b.max = false → Careful e) ∧
        (b.min = false → b.max = true → Careful t ∧ Careful e)
  | .logical .not [a] => Careful a
  | .logical .not _ => True
  | .logical .or arguments => CarefulLogical true (BoolStatsAggregator.init true) arguments
  | .logical .and arguments => CarefulLogical false (BoolStatsAggregator.init false) arguments

def CarefulAll : List Node → Prop
  | [] => True
  | a :: arguments => Careful a ∧ ∀ stats, visitStats getter shift a = .ok stats → CarefulAll arguments

/-- The arguments of `AND` and `OR`, up to the one that decides the result. -/
def CarefulLogical (useOr : Bool) (current : BoolStats) : List Node → Prop
  | [] => True
  | a :: arguments =>
    Careful a ∧
      (∀ e, visitStats getter shift a = .error e →
        CarefulLogical useOr (BoolStatsAggregator.add useOr current boolStatsUnknown) arguments) ∧
      ∀ stats b, visitStats getter shift a = .ok stats → stats.getBool = .ok b →
        BoolStatsAggregator.isFinal useOr (BoolStatsAggregator.add useOr current b) = false →
        CarefulLogical useOr (BoolStatsAggregator.add useOr current b) arguments

end

end

/-! ### One step of the visitor -/

section
variable {getter : StatsGetter} {shift : Option (SignedInt 64)} {delta : Int} {functionId : FunctionID}

/-- One element of an array. A null says nothing; only comparisons have a result for another. -/
lemma evaluateElement_sound {lhs : GenericStats} {type : ValueType} {elem : Option (PhysicalType type)} {b : BoolStats}
    {a : Outcome} {t : Truth} (ha : Sound lhs a)
    (hsafe : functionId.isComparison = true → ∀ x, elem = some x → PairSafe (CastSafe shift delta) lhs (constStats type x))
    (ht : functionId.isComparison = true →
      ∀ out, compareElement delta functionId a type elem = some out → t = .fail ∨ t = out.toTruth)
    (h : evaluateElement shift functionId lhs type elem = .ok b) : Allows b t := by
  cases elem with
  | none =>
    cases h
    exact allows_unknown t
  | some x =>
    replace h : (do
      let stats ← registryEvaluate shift functionId [lhs, constStats type x]
      stats.getBool) = .ok b := h
    cases hreg : registryEvaluate shift functionId [lhs, constStats type x] with
    | error e =>
      rw [hreg] at h
      cases h
    | ok stats =>
      rw [hreg] at h
      have hcmp := isComparison_of_registryEvaluate hreg
      obtain ⟨out, hout, hsound⟩ :=
        registryEvaluate_comparison hcmp hreg ha (constStats_sound type x) (hsafe hcmp x rfl)
      rcases ht hcmp out hout with rfl | rfl
      · intro x hx
        cases hx
      · exact hsound.allows h

/-- The loop over an array, from the truth value of the elements before. -/
lemma evaluateArray_sound {useOr : Bool} {lhs result : GenericStats} {type : ValueType}
    {elems : List (Option (PhysicalType type))} {current : BoolStats} {a : Outcome} {t : Truth}
    {truth : Option (PhysicalType type) → Truth} (ha : Sound lhs a) (ht : Allows current t)
    (hsafe : functionId.isComparison = true →
      ∀ x, some x ∈ elems → PairSafe (CastSafe shift delta) lhs (constStats type x))
    (htruth : functionId.isComparison = true →
      ∀ elem out, compareElement delta functionId a type elem = some out →
        truth elem = .fail ∨ truth elem = out.toTruth)
    (h : evaluateArray shift functionId useOr lhs type current elems = .ok result) :
    Sound result (.ofTruth ((elems.map truth).foldl (Truth.join useOr) t)) := by
  induction elems generalizing current t with
  | nil =>
    cases h
    exact sound_result ht
  | cons elem elems ih =>
    rw [List.map_cons, List.foldl_cons]
    simp only [evaluateArray] at h
    cases helem : evaluateElement shift functionId lhs type elem with
    | error e =>
      rw [helem] at h
      cases h
    | ok b =>
      rw [helem] at h
      replace h : (if BoolStatsAggregator.isFinal useOr (BoolStatsAggregator.add useOr current b) = true then
          Except.ok (BoolStatsAggregator.result (BoolStatsAggregator.add useOr current b))
        else evaluateArray shift functionId useOr lhs type (BoolStatsAggregator.add useOr current b) elems) =
          .ok result := h
      have hallows : Allows b (truth elem) :=
        evaluateElement_sound ha (fun hcmp x hx => hsafe hcmp x (by simp [hx])) (fun hcmp => htruth hcmp elem) helem
      have hnext := @allows_add useOr _ _ _ _ ht hallows
      split_ifs at h with hfinal
      · cases h
        exact sound_result (allows_final hfinal hnext _)
      · exact ih hnext (fun hcmp x hx => hsafe hcmp x (by simp [hx])) h

/-- The result of the loop leaves the counts open. -/
lemma evaluateArray_null {useOr : Bool} {lhs result : GenericStats} {type : ValueType}
    {elems : List (Option (PhysicalType type))} {current : BoolStats}
    (h : evaluateArray shift functionId useOr lhs type current elems = .ok result) : Sound result .null := by
  induction elems generalizing current with
  | nil =>
    cases h
    rfl
  | cons elem elems ih =>
    simp only [evaluateArray] at h
    cases helem : evaluateElement shift functionId lhs type elem with
    | error e =>
      rw [helem] at h
      cases h
    | ok b =>
      rw [helem] at h
      replace h : (if BoolStatsAggregator.isFinal useOr (BoolStatsAggregator.add useOr current b) = true then
          Except.ok (BoolStatsAggregator.result (BoolStatsAggregator.add useOr current b))
        else evaluateArray shift functionId useOr lhs type (BoolStatsAggregator.add useOr current b) elems) =
          .ok result := h
      split_ifs at h
      · cases h
        rfl
      · exact ih h

lemma allows_init (useOr : Bool) : Allows (BoolStatsAggregator.init useOr) (.known (!useOr)) := by
  cases useOr <;> decide

/-- The branches of an `IF` whose condition is open. -/
lemma mergeBranches_sound {thenRes elseRes result : GenericStats} {out : Outcome}
    (h : mergeBranches thenRes elseRes = .ok result) (hout : Sound thenRes out ∨ Sound elseRes out) :
    Sound result out := by
  obtain ⟨⟨type, m⟩, count⟩ := thenRes
  obtain ⟨⟨type', m'⟩, count'⟩ := elseRes
  unfold mergeBranches at h
  split_ifs at h with heq hcomp
  simp only at heq
  subst heq
  cases h
  cases out with
  | error => trivial
  | null => rfl
  | value v =>
    refine ⟨rfl, ?_⟩
    rcases hout with ⟨-, hin⟩ | ⟨-, hin⟩
    · obtain ⟨x, rfl, lower, upper⟩ := hin.not_unordered hcomp
      exact .mk ((min_le_left _ _).trans lower) (upper.trans (le_max_left _ _))
    · obtain ⟨x, rfl, lower, upper⟩ := hin.not_unordered hcomp
      exact .mk ((min_le_right _ _).trans lower) (upper.trans (le_max_right _ _))

/-- `IF` with either branch sound. -/
lemma ifOutcome_sound {result : GenericStats} {c t e : Outcome} (ht : Sound result t) (he : Sound result e) :
    Sound result (ifOutcome c t e) := by
  unfold ifOutcome
  split
  · exact ht
  · exact he
  · exact he
  · trivial

/-- A condition with a lower bound of true takes `THEN`, unless it is `NULL`. -/
lemma ifOutcome_then {result : GenericStats} {c t e : Outcome} {hi : Bool} (hc : c ≠ .null)
    (hallows : c.toTruth.Within true hi) (ht : Sound result t) : Sound result (ifOutcome c t e) := by
  unfold ifOutcome
  split
  · exact ht
  · rename_i hfalse
    exact absurd (hallows false hfalse).1 (by decide)
  · rename_i hnull
    cases c with
    | error => cases hnull
    | null => exact absurd rfl hc
    | value v =>
      obtain ⟨type, x⟩ := v
      cases type <;> cases hnull
  · trivial

/-- A condition with an upper bound of false takes `ELSE`, also when it is `NULL`. -/
lemma ifOutcome_else {result : GenericStats} {c t e : Outcome} {lo : Bool} (hallows : c.toTruth.Within lo false)
    (he : Sound result e) : Sound result (ifOutcome c t e) := by
  unfold ifOutcome
  split
  · rename_i htrue
    exact absurd (hallows true htrue).2 (by decide)
  · exact he
  · exact he
  · trivial

/-- A negation keeps the counts of its argument. -/
lemma not_sound {stats : GenericStats} {b : BoolStats} {out : Outcome} (h : Sound stats out)
    (hb : stats.getBool = .ok b) :
    Sound { stats with minMax := b.not.toGeneric } (.ofTruth out.toTruth.not) := by
  have hallows := Truth.within_not (h.allows hb)
  cases out with
  | error => trivial
  | null => exact h
  | value v =>
    obtain ⟨type, x⟩ := v
    cases type <;> try trivial
    exact ⟨h.1, .mk (hallows _ rfl).1 (hallows _ rfl).2⟩

/-- A function of the registry. -/
lemma registryEvaluate_sound {row : Bytes → Option Scalar} {eval : Node → Outcome} {signature : FunctionSignature}
    {arguments : List Node} {stats : List GenericStats} {result : GenericStats} (hsem : RowSemantics delta row eval)
    (hargs : List.Forall₂ (fun a s => Sound s (eval a)) arguments stats)
    (hsafe : ∀ l r, stats = [l, r] → signature.functionId.isComparison = true → PairSafe (CastSafe shift delta) l r)
    (h : registryEvaluate shift signature.functionId stats = .ok result) :
    Sound result (eval (.function signature arguments)) := by
  match stats, hargs with
  | [], .nil => cases h
  | [s], .cons (a := a) ha .nil =>
    rcases evaluateUnary_sound h ha with ⟨hid, hnull⟩ | ⟨hid, out, hout, hcast⟩
    · exact hnull.of_refines (hsem.isNull signature a hid)
    · exact hcast.of_refines (hsem.cast signature a hid out hout)
  | [l, r], .cons (a := a) ha (.cons (a := b) hb .nil) =>
    have hcmp := isComparison_of_registryEvaluate h
    obtain ⟨out, hout, hsound⟩ := registryEvaluate_comparison hcmp h ha hb (hsafe l r rfl hcmp)
    exact hsound.of_refines (hsem.comparison signature a b hcmp out hout)
  | _ :: _ :: _ :: _, _ => cases h

end

/-! ### The visitor -/

section
variable {getter : StatsGetter} {shift : Option (SignedInt 64)} {delta : Int} {row : Bytes → Option Scalar}
  {eval : Node → Outcome} {castSafe : GenericStats → Prop}

mutual

/-- The statistics of an expression are sound for its value on the row. -/
theorem visitStats_sound (hsem : RowSemantics delta row eval) (hrow : DescribesRow getter row)
    (hsafe : ∀ stats, castSafe stats → CastSafe shift delta stats) :
    ∀ (node : Node) {result : GenericStats}, Careful getter shift castSafe eval node →
      visitStats getter shift node = .ok result → Sound result (eval node)
  | .function signature arguments, result, hc, h => by
    simp only [visitStats] at h
    cases hall : visitStatsAll getter shift arguments with
    | error e =>
      rw [hall] at h
      cases h
    | ok stats =>
      rw [hall] at h
      simp only [Careful] at hc
      refine registryEvaluate_sound hsem (visitStatsAll_sound hsem hrow hsafe arguments hc.1 hall) ?_ h
      rintro l r rfl hcmp
      exact (hc.2 l r hall hcmp).mono hsafe
  | .const ⟨type, none⟩, result, hc, h => by
    simp only [visitStats] at h
    cases h
  | .const ⟨type, some x⟩, result, hc, h => by
    simp only [visitStats] at h
    cases h
    cases hcomp : type.isComparable with
    | true => exact (constStats_sound type x).of_refines (hsem.const type x hcomp)
    | false =>
      cases hout : eval (.const ⟨type, some x⟩) with
      | error => trivial
      | null => exact absurd hout (hsem.unorderedConst type x hcomp)
      | value v => exact ⟨rfl, .unordered hcomp⟩
  | .variable type name, result, hc, h => by
    simp only [visitStats] at h
    cases hget : getter name type with
    | none =>
      rw [hget] at h
      cases h
    | some stats =>
      rw [hget] at h
      cases h
      exact (hrow name type result hget).of_refines (hsem.column type name)
  | .scalarOverArray signature useOr scalar array, result, hc, h => by
    simp only [visitStats] at h
    simp only [Careful] at hc
    cases hs : visitStats getter shift scalar with
    | error e =>
      rw [hs] at h
      cases h
    | ok lhs =>
      rw [hs] at h
      replace h : evaluateArray shift signature.functionId useOr lhs array.1 (BoolStatsAggregator.init useOr) array.2 =
        .ok result := h
      have hlhs := visitStats_sound hsem hrow hsafe scalar hc.1 hs
      obtain ⟨truth, htruth, hnull | href⟩ := hsem.array signature useOr scalar array
      · rw [hnull]
        exact evaluateArray_null h
      · refine (evaluateArray_sound hlhs (allows_init useOr) ?_ htruth h).of_refines href
        intro hcmp x hx
        exact (hc.2 lhs hs hcmp x hx).mono hsafe
  | .ifNode c t e, result, hc, h => by
    simp only [visitStats] at h
    simp only [Careful] at hc
    cases hcond : visitStats getter shift c with
    | error err =>
      rw [hcond] at h
      cases h
    | ok stats =>
      rw [hcond] at h
      replace h : (do
        let b ← stats.getBool
        if b.min = true then visitStats getter shift t
        else if (!b.max) = true then visitStats getter shift e
        else do
          let thenRes ← visitStats getter shift t
          let elseRes ← visitStats getter shift e
          mergeBranches thenRes elseRes) = .ok result := h
      cases hb : stats.getBool with
      | error err =>
        rw [hb] at h
        cases h
      | ok b =>
        rw [hb] at h
        obtain ⟨hthen, helse, hboth⟩ := hc.2 stats b hcond hb
        have hallows : (eval c).toTruth.Within b.min b.max := (visitStats_sound hsem hrow hsafe c hc.1 hcond).allows hb
        refine Sound.of_refines (hsem.ifNode c t e) ?_
        cases hmin : b.min with
        | true =>
          replace h : visitStats getter shift t = .ok result := by simpa [hmin] using h
          rw [hmin] at hallows
          exact ifOutcome_then (hthen hmin).1 hallows (visitStats_sound hsem hrow hsafe t (hthen hmin).2 h)
        | false =>
          cases hmax : b.max with
          | false =>
            replace h : visitStats getter shift e = .ok result := by simpa [hmin, hmax] using h
            rw [hmax] at hallows
            exact ifOutcome_else hallows (visitStats_sound hsem hrow hsafe e (helse hmin hmax) h)
          | true =>
            replace h : (do
              let thenRes ← visitStats getter shift t
              let elseRes ← visitStats getter shift e
              mergeBranches thenRes elseRes) = .ok result := by simpa [hmin, hmax] using h
            cases ht : visitStats getter shift t with
            | error err =>
              rw [ht] at h
              cases h
            | ok thenRes =>
              cases he : visitStats getter shift e with
              | error err =>
                rw [ht, he] at h
                cases h
              | ok elseRes =>
                rw [ht, he] at h
                obtain ⟨hct, hce⟩ := hboth hmin hmax
                exact ifOutcome_sound
                  (mergeBranches_sound h (.inl (visitStats_sound hsem hrow hsafe t hct ht)))
                  (mergeBranches_sound h (.inr (visitStats_sound hsem hrow hsafe e hce he)))
  | .logical .not [a], result, hc, h => by
    simp only [visitStats] at h
    simp only [Careful] at hc
    cases hs : visitStats getter shift a with
    | error err =>
      rw [hs] at h
      cases h
    | ok stats =>
      rw [hs] at h
      cases hb : stats.getBool with
      | error err =>
        replace h : (do
          let b ← stats.getBool
          .ok { stats with minMax := b.not.toGeneric }) = Except.ok result := h
        rw [hb] at h
        cases h
      | ok b =>
        replace h : (do
          let b ← stats.getBool
          .ok { stats with minMax := b.not.toGeneric }) = Except.ok result := h
        rw [hb] at h
        cases h
        exact (not_sound (visitStats_sound hsem hrow hsafe a hc hs) hb).of_refines (hsem.not a)
  | .logical .not [], result, hc, h => by
    simp only [visitStats] at h
    cases h
  | .logical .not (_ :: _ :: _), result, hc, h => by
    simp only [visitStats] at h
    cases h
  | .logical .or arguments, result, hc, h => by
    simp only [visitStats] at h
    simp only [Careful] at hc
    exact (visitStatsLogical_sound hsem hrow hsafe arguments hc (allows_init true) h).of_refines (hsem.or arguments)
  | .logical .and arguments, result, hc, h => by
    simp only [visitStats] at h
    simp only [Careful] at hc
    exact (visitStatsLogical_sound hsem hrow hsafe arguments hc (allows_init false) h).of_refines (hsem.and arguments)

lemma visitStatsAll_sound (hsem : RowSemantics delta row eval) (hrow : DescribesRow getter row)
    (hsafe : ∀ stats, castSafe stats → CastSafe shift delta stats) :
    ∀ (arguments : List Node) {stats : List GenericStats}, CarefulAll getter shift castSafe eval arguments →
      visitStatsAll getter shift arguments = .ok stats →
      List.Forall₂ (fun a s => Sound s (eval a)) arguments stats
  | [], stats, hc, h => by
    simp only [visitStatsAll] at h
    cases h
    exact .nil
  | a :: arguments, stats, hc, h => by
    simp only [visitStatsAll] at h
    simp only [CarefulAll] at hc
    cases hs : visitStats getter shift a with
    | error err =>
      rw [hs] at h
      cases h
    | ok s =>
      rw [hs] at h
      cases hrest : visitStatsAll getter shift arguments with
      | error err =>
        rw [hrest] at h
        cases h
      | ok rest =>
        rw [hrest] at h
        cases h
        exact .cons (visitStats_sound hsem hrow hsafe a hc.1 hs) (visitStatsAll_sound hsem hrow hsafe arguments (hc.2 s hs) hrest)

/-- The loop of `AND` and `OR`, from the truth value of the arguments before. -/
lemma visitStatsLogical_sound (hsem : RowSemantics delta row eval) (hrow : DescribesRow getter row)
    (hsafe : ∀ stats, castSafe stats → CastSafe shift delta stats) {useOr : Bool} :
    ∀ (arguments : List Node) {current : BoolStats} {t : Truth} {result : GenericStats},
      CarefulLogical getter shift castSafe eval useOr current arguments → Allows current t →
      visitStatsLogical getter shift useOr current arguments = .ok result →
      Sound result (.ofTruth ((arguments.map (fun a => (eval a).toTruth)).foldl (Truth.join useOr) t))
  | [], current, t, result, hc, ht, h => by
    simp only [visitStatsLogical] at h
    cases h
    exact sound_result ht
  | a :: arguments, current, t, result, hc, ht, h => by
    simp only [visitStatsLogical] at h
    simp only [CarefulLogical] at hc
    rw [List.map_cons, List.foldl_cons]
    cases hs : visitStats getter shift a with
    | error err =>
      simp only [hs] at h
      have hnext := @allows_add useOr _ _ _ _ ht (allows_unknown (eval a).toTruth)
      exact visitStatsLogical_sound hsem hrow hsafe arguments (hc.2.1 err hs) hnext h
    | ok stats =>
      simp only [hs] at h
      cases hb : stats.getBool with
      | error err =>
        rw [hb] at h
        cases h
      | ok b =>
        rw [hb] at h
        replace h : (if BoolStatsAggregator.isFinal useOr (BoolStatsAggregator.add useOr current b) = true then
            Except.ok (BoolStatsAggregator.result (BoolStatsAggregator.add useOr current b))
          else visitStatsLogical getter shift useOr (BoolStatsAggregator.add useOr current b) arguments) =
            .ok result := h
        have hnext := @allows_add useOr _ _ _ _ ht ((visitStats_sound hsem hrow hsafe a hc.1 hs).allows hb)
        split_ifs at h with hfinal
        · cases h
          exact sound_result (allows_final hfinal hnext _)
        · exact visitStatsLogical_sound hsem hrow hsafe arguments (hc.2.2 stats b hs hb (by simpa using hfinal)) hnext h

end

end

end IcebergCxx.Proofs

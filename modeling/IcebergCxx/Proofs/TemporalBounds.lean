import IcebergCxx.TransformSemantics
import IcebergCxx.Proofs.StatsFilterLaw

/-!
# Bounds of a column from bounds of its temporal partition values

The bounds that the getter computes are the first and last instants of the units between the
summary's bounds, where the year of a bound is taken modulo `2^16`. They contain every value of the
column, unless a year was moved inwards by that; then a value is left out if there is one at all.
-/

namespace IcebergCxx.Proofs

open Lib

/-! ### Decoded bounds -/

lemma bmod_natCast {n m : Nat} (h : n < 2 * m) :
    Int.bmod n (2 * m) = if n < m then (n : Int) else n - 2 * m := by
  have hmod : (n : Int) % ((2 * m : Nat) : Int) = n := Int.emod_eq_of_lt (by omega) (by exact_mod_cast h)
  rw [Int.bmod_def, hmod]
  push_cast
  split_ifs <;> omega

lemma signedLe_eq (width : Nat) (b : Bytes) (hw : 0 < width) : signedLe width b = deserializeInt width b := by
  unfold signedLe deserializeInt
  by_cases hlen : b.length = width
  · rw [if_pos hlen, if_pos hlen]
    have hpow : 2 ^ (8 * width) = 2 * 2 ^ (8 * width - 1) := by
      rw [← pow_succ', Nat.sub_add_cancel (by omega)]
    have h256 : 256 ^ width = 2 ^ (8 * width) := by
      rw [pow_mul]
      norm_num
    have hlt := ofLeBytes_lt b
    rw [hlen, h256, hpow] at hlt
    rw [h256, hpow, bmod_natCast hlt]
    have hcast : (256 : Int) ^ width = 2 * (2 ^ (8 * width - 1) : Nat) := by
      have := congrArg (fun n : Nat => (n : Int)) (h256.trans hpow)
      push_cast at this ⊢
      exact this
    rw [hcast]
    congr 1
    split_ifs <;> first | rfl | omega
  · rw [if_neg hlen, if_neg hlen]

lemma convertToInt_ok_iff {b : Bytes} {x : Int} : convertToInt b = .ok x ↔ signedLe 4 b = some x := by
  rw [signedLe_eq 4 b (by decide)]
  unfold convertToInt deserializeInt
  by_cases hlen : b.length = 4
  · have hpow : 2 ^ (8 * 4) = 2 ^ 32 := by norm_num
    simp only [hlen, decide_true, ensure_true, ok_bind, if_true, toInt32, hpow]
    constructor
    · intro h
      rw [Except.ok.inj h]
    · intro h
      rw [Option.some.inj h]
      rfl
  · simp [hlen, ensure]

lemma signedLe_bounds {b : Bytes} {x : Int} (h : signedLe 4 b = some x) : int32Min ≤ x ∧ x ≤ int32Max := by
  have hok := convertToInt_ok_iff.mpr h
  unfold convertToInt at hok
  obtain ⟨-, -, hok⟩ := bind_ok hok
  have hx : (toInt32 (ofLeBytes b)).val = x := Except.ok.inj hok
  have hbounds := (toInt32 (ofLeBytes b)).property
  rw [hx] at hbounds
  unfold int32Min int32Max
  omega

/-! ### Units and their wrapped years -/

/-- The unit whose first instant the code computes for `u`. -/
def wrapUnit : TemporalTransform → Int → Int
  | .year, u => chronoYear (1970 + u) - 1970
  | .month, u => 12 * (chronoYear (1970 + u / 12) - 1970) + u % 12
  | .day, u => u
  | .hour, u => u

lemma chronoYear_bounds (y : Int) : -32768 ≤ chronoYear y ∧ chronoYear y ≤ 32767 := by
  have h1 := @Int.le_bmod y (2 ^ 16) (by decide)
  have h2 := @Int.bmod_lt y (2 ^ 16) (by decide)
  unfold chronoYear
  omega

lemma chronoYear_of_fits {y : Int} (h1 : -32768 ≤ y) (h2 : y ≤ 32767) : chronoYear y = y := by
  unfold chronoYear
  rw [Int.bmod_eq_of_le] <;> omega

/-- A temporal transform whose units begin at midnight. -/
def startDay : TemporalTransform → Int → Int
  | .year, u => yearStart u
  | .month, u => monthStart u
  | .day, u => u
  | .hour, u => u

lemma startDay_strictMono (t : TemporalTransform) : StrictMono (startDay t) := by
  cases t with
  | year => exact yearStart_strictMono
  | month => exact monthStart_strictMono
  | day => exact strictMono_id
  | hour => exact strictMono_id

lemma microsInDay_pos : 0 < microsInDay := by decide

lemma start_strictMono (t : TemporalTransform) : StrictMono t.start := by
  cases t with
  | year => exact yearStart_strictMono.mul_const microsInDay_pos
  | month => exact monthStart_strictMono.mul_const microsInDay_pos
  | day => exact strictMono_id.mul_const microsInDay_pos
  | hour => exact strictMono_id.mul_const (by decide)

lemma start_eq_startDay {t : TemporalTransform} (h : t ≠ .hour) (u : Int) : t.start u = startDay t u * microsInDay := by
  cases t with
  | year => rfl
  | month => rfl
  | day => rfl
  | hour => exact absurd rfl h

/-- The inputs that the unit conversions accept. -/
def Accepted : TemporalTransform → Int → Prop
  | .year, u => -5867441 ≤ u ∧ u ≤ 5867441
  | .month, u => 0 ≤ u ∧ u ≤ 69273666
  | .day, _ => True
  | .hour, _ => True

lemma yearsToDays_ok_iff {u d : Int} : yearsToDays u = .ok d ↔
    Accepted .year u ∧ d = startDay .year (wrapUnit .year u) := by
  have hlimits : (u ≤ int32Max.tdiv 366 ∧ int32Min.tdiv 366 ≤ u) ↔ Accepted .year u := by
    have h1 : int32Max.tdiv 366 = 5867441 := by decide
    have h2 : int32Min.tdiv 366 = -5867441 := by decide
    rw [h1, h2, Accepted]
    omega
  have hday : sysDays (chronoYear (1970 + u)) 1 1 = startDay .year (wrapUnit .year u) := by
    simp only [startDay, wrapUnit, yearStart]
    rw [add_sub_cancel]
  rw [← hlimits]
  unfold yearsToDays ensure
  by_cases h : u ≤ int32Max.tdiv 366 ∧ int32Min.tdiv 366 ≤ u
  · simp only [h, and_self, decide_true, if_true, ok_bind, hday, true_and]
    exact ⟨fun h => (Except.ok.inj h).symm, fun h => by rw [h]; rfl⟩
  · simp [h]

lemma monthsToDays_ok_iff {u d : Int} : monthsToDays u = .ok d ↔
    Accepted .month u ∧ d = startDay .month (wrapUnit .month u) := by
  have hlimits : (u ≤ int32Max.tdiv 31 ∧ int32Min.tdiv 31 ≤ u) ∧ 0 ≤ u ↔ Accepted .month u := by
    have h1 : int32Max.tdiv 31 = 69273666 := by decide
    have h2 : int32Min.tdiv 31 = -69273666 := by decide
    rw [h1, h2, Accepted]
    omega
  have hday : sysDays (chronoYear (1970 + u / 12)) (1 + u % 12) 1 = startDay .month (wrapUnit .month u) := by
    simp only [startDay, wrapUnit, monthStart]
    have h1 : (12 * (chronoYear (1970 + u / 12) - 1970) + u % 12) / 12 = chronoYear (1970 + u / 12) - 1970 := by omega
    have h2 : (12 * (chronoYear (1970 + u / 12) - 1970) + u % 12) % 12 = u % 12 := by omega
    rw [h1, h2, add_sub_cancel]
  rw [← hlimits]
  unfold monthsToDays ensure
  by_cases h1 : u ≤ int32Max.tdiv 31 ∧ int32Min.tdiv 31 ≤ u
  · by_cases h2 : 0 ≤ u
    · simp only [h1, h2, and_self, decide_true, if_true, ok_bind, hday, true_and]
      exact ⟨fun h => (Except.ok.inj h).symm, fun h => by rw [h]; rfl⟩
    · simp [h1, h2]
  · simp [h1]

lemma ofText_cases {transform : Bytes} {t : TemporalTransform} (h : TemporalTransform.ofText transform = some t) :
    (t = .year ∧ transform = bytes "year") ∨ (t = .month ∧ transform = bytes "month") ∨
      (t = .day ∧ transform = bytes "day") ∨ (t = .hour ∧ transform = bytes "hour") := by
  unfold TemporalTransform.ofText at h
  split_ifs at h with h1 h2 h3 h4
  · exact .inl ⟨(Option.some.inj h).symm, h1⟩
  · exact .inr (.inl ⟨(Option.some.inj h).symm, h2⟩)
  · exact .inr (.inr (.inl ⟨(Option.some.inj h).symm, h3⟩))
  · exact .inr (.inr (.inr ⟨(Option.some.inj h).symm, h4⟩))

/-- The days that are computed: the first and the last of the units, with wrapped years. -/
lemma getMinMaxDayFromTemporal_iff {lo hi a b : Int} {transform : Bytes} {t : TemporalTransform}
    (ht : TemporalTransform.ofText transform = some t) :
    ManifestFileStatsGetter.getMinMaxDayFromTemporal lo hi transform = .ok (some (a, b)) ↔
      t ≠ .hour ∧ Accepted t lo ∧ Accepted t (hi + 1) ∧ a = startDay t (wrapUnit t lo) ∧
        b = startDay t (wrapUnit t (hi + 1)) - 1 := by
  -- a computation of two days that succeeds exactly on accepted units
  have htwo : ∀ (f : Int → Except String Int) (t : TemporalTransform),
      (∀ u d, f u = .ok d ↔ Accepted t u ∧ d = startDay t (wrapUnit t u)) →
      ((do let minDay ← f lo
           let maxDay ← f (hi + 1)
           return some (minDay, maxDay - 1)) = (.ok (some (a, b)) : Except String (Option (Int × Int))) ↔
        Accepted t lo ∧ Accepted t (hi + 1) ∧ a = startDay t (wrapUnit t lo) ∧
          b = startDay t (wrapUnit t (hi + 1)) - 1) := by
    intro f t hf
    constructor
    · intro h
      obtain ⟨d1, h1, h⟩ := bind_ok h
      obtain ⟨d2, h2, h⟩ := bind_ok h
      obtain ⟨ha1, hd1⟩ := (hf _ _).mp h1
      obtain ⟨ha2, hd2⟩ := (hf _ _).mp h2
      have heq := Prod.mk.inj (Option.some.inj (Except.ok.inj h))
      exact ⟨ha1, ha2, by rw [← heq.1, hd1], by rw [← heq.2, hd2]⟩
    · rintro ⟨ha1, ha2, rfl, rfl⟩
      rw [(hf _ _).mpr ⟨ha1, rfl⟩, ok_bind, (hf _ _).mpr ⟨ha2, rfl⟩, ok_bind]
      rfl
  unfold ManifestFileStatsGetter.getMinMaxDayFromTemporal
  rcases ofText_cases ht with ⟨rfl, rfl⟩ | ⟨rfl, rfl⟩ | ⟨rfl, rfl⟩ | ⟨rfl, rfl⟩
  · rw [if_pos rfl, htwo yearsToDays .year (fun _ _ => yearsToDays_ok_iff)]
    simp
  · rw [if_neg (by decide), if_pos rfl, htwo monthsToDays .month (fun _ _ => monthsToDays_ok_iff)]
    simp
  · rw [if_neg (by decide), if_neg (by decide), if_pos rfl]
    simp only [Except.ok.injEq, Option.some.injEq, Prod.mk.injEq, Accepted, startDay, wrapUnit]
    constructor
    · rintro ⟨rfl, rfl⟩
      exact ⟨by decide, trivial, trivial, rfl, by omega⟩
    · rintro ⟨-, -, -, h1, h2⟩
      exact ⟨h1.symm, by omega⟩
  · rw [if_neg (by decide), if_neg (by decide), if_neg (by decide)]
    simp

lemma daysToHours_ok_iff {d h : Int} : daysToHours d = .ok h ↔ -89478485 ≤ d ∧ d ≤ 89478485 ∧ h = d * 24 := by
  have h1 : int32Max.tdiv 24 = 89478485 := by decide
  have h2 : int32Min.tdiv 24 = -89478485 := by decide
  unfold daysToHours ensure
  rw [h1, h2]
  by_cases hd : d ≤ 89478485 ∧ -89478485 ≤ d
  · simp only [hd, and_self, decide_true, if_true, ok_bind, true_and]
    exact ⟨fun h => (Except.ok.inj h).symm, fun h => by rw [h]; rfl⟩
  · simp only [hd, decide_false, Bool.false_eq_true, if_false, error_bind, false_iff, reduceCtorEq]
    omega

lemma hoursToMicros_ok_iff {h m : Int} :
    hoursToMicros h = .ok m ↔ -2562047788 ≤ h ∧ h ≤ 2562047788 ∧ m = h * microsPerHour := by
  have h1 : int64Max.tdiv microsPerHour = 2562047788 := by decide
  have h2 : int64Min.tdiv microsPerHour = -2562047788 := by decide
  unfold hoursToMicros ensure
  rw [h1, h2]
  by_cases hd : h ≤ 2562047788 ∧ -2562047788 ≤ h
  · simp only [hd, and_self, decide_true, if_true, ok_bind, true_and]
    exact ⟨fun h => (Except.ok.inj h).symm, fun h => by rw [h]; rfl⟩
  · simp only [hd, decide_false, Bool.false_eq_true, if_false, error_bind, false_iff, reduceCtorEq]
    omega

lemma hours_microsInDay (d : Int) : d * 24 * microsPerHour = d * microsInDay := by
  rw [mul_assoc]
  rfl

/-- The instants that are computed, in the same way. -/
lemma getMinMaxMicrosFromTemporal_iff {lo hi a b : Int} {transform : Bytes} {t : TemporalTransform}
    (ht : TemporalTransform.ofText transform = some t) (hlo : int32Min ≤ lo ∧ lo ≤ int32Max)
    (hhi : int32Min ≤ hi ∧ hi ≤ int32Max) :
    ManifestFileStatsGetter.getMinMaxMicrosFromTemporal lo hi transform = .ok (a, b) ↔
      Accepted t lo ∧ Accepted t (hi + 1) ∧
        (t ≠ .hour → ∀ u ∈ [lo, hi + 1], -89478485 ≤ startDay t (wrapUnit t u) ∧ startDay t (wrapUnit t u) ≤ 89478485) ∧
        a = t.start (wrapUnit t lo) ∧ b = t.start (wrapUnit t (hi + 1)) - 1 := by
  unfold int32Min int32Max at hlo hhi
  unfold ManifestFileStatsGetter.getMinMaxMicrosFromTemporal
  by_cases hhour : t = .hour
  · have htext : transform = bytes "hour" := by
      rcases ofText_cases ht with ⟨h, -⟩ | ⟨h, -⟩ | ⟨h, -⟩ | ⟨-, h⟩
      · exact absurd (hhour.symm.trans h) (by decide)
      · exact absurd (hhour.symm.trans h) (by decide)
      · exact absurd (hhour.symm.trans h) (by decide)
      · exact h
    have h1 : hoursToMicros lo = .ok (lo * microsPerHour) := hoursToMicros_ok_iff.mpr ⟨by omega, by omega, rfl⟩
    have h2 : hoursToMicros (hi + 1) = .ok ((hi + 1) * microsPerHour) :=
      hoursToMicros_ok_iff.mpr ⟨by omega, by omega, rfl⟩
    rw [if_pos htext, h1, ok_bind, h2, ok_bind]
    subst hhour
    constructor
    · intro h
      have heq := Prod.mk.inj (Except.ok.inj h)
      exact ⟨trivial, trivial, fun hne => absurd rfl hne, heq.1.symm, heq.2.symm⟩
    · rintro ⟨-, -, -, rfl, rfl⟩
      rfl
  · have htext : transform ≠ bytes "hour" := by
      intro htext
      subst htext
      exact hhour (Option.some.inj ht).symm
    rw [if_neg htext]
    constructor
    · intro h
      obtain ⟨minMaxDay, hday, h⟩ := bind_ok h
      cases minMaxDay with
      | none => cases h
      | some days =>
        obtain ⟨minDay, maxDay⟩ := days
        obtain ⟨-, ha1, ha2, hmin, hmax⟩ := (getMinMaxDayFromTemporal_iff ht).mp hday
        obtain ⟨h1, hh1, h⟩ := bind_ok h
        obtain ⟨h2, hh2, h⟩ := bind_ok h
        obtain ⟨m1, hm1, h⟩ := bind_ok h
        obtain ⟨m2, hm2, h⟩ := bind_ok h
        have heq := Prod.mk.inj (Except.ok.inj h)
        obtain ⟨hb1, hb2, hh1⟩ := daysToHours_ok_iff.mp hh1
        obtain ⟨hb3, hb4, hh2⟩ := daysToHours_ok_iff.mp hh2
        obtain ⟨-, -, hm1⟩ := hoursToMicros_ok_iff.mp hm1
        obtain ⟨-, -, hm2⟩ := hoursToMicros_ok_iff.mp hm2
        refine ⟨ha1, ha2, fun _ u hu => ?_, ?_, ?_⟩
        · rcases List.mem_cons.mp hu with rfl | hu
          · rw [← hmin]; exact ⟨hb1, hb2⟩
          · rw [List.mem_singleton.mp hu]
            omega
        · rw [← heq.1, hm1, hh1, hours_microsInDay, hmin, start_eq_startDay hhour]
        · have hd : maxDay + 1 = startDay t (wrapUnit t (hi + 1)) := by omega
          rw [← heq.2, hm2, sub_add_cancel, hh2, hours_microsInDay, hd, start_eq_startDay hhour]
    · rintro ⟨ha1, ha2, hbounds, rfl, rfl⟩
      have hb1 := hbounds hhour lo (by simp)
      have hb2 := hbounds hhour (hi + 1) (by simp)
      have hmax : startDay t (wrapUnit t (hi + 1)) - 1 + 1 = startDay t (wrapUnit t (hi + 1)) := by omega
      rw [(getMinMaxDayFromTemporal_iff ht).mpr ⟨hhour, ha1, ha2, rfl, rfl⟩, ok_bind]
      simp only
      rw [hmax, daysToHours_ok_iff.mpr ⟨hb1.1, hb1.2, rfl⟩, ok_bind, daysToHours_ok_iff.mpr ⟨hb2.1, hb2.2, rfl⟩, ok_bind,
        sub_add_cancel, hoursToMicros_ok_iff.mpr ⟨by omega, by omega, rfl⟩, ok_bind,
        hoursToMicros_ok_iff.mpr ⟨by omega, by omega, rfl⟩, ok_bind, hours_microsInDay, hours_microsInDay,
        start_eq_startDay hhour, start_eq_startDay hhour]
      rfl

/-! ### Intervals of units -/

section
variable {S : Int → Int} {lo hi v : Int}

/-- An instant between the starts of two units lies in one of the units between them. -/
lemma exists_unit (hS : StrictMono S) (h1 : S lo ≤ v) (h2 : v < S (hi + 1)) :
    ∃ u, lo ≤ u ∧ u ≤ hi ∧ S u ≤ v ∧ v < S (u + 1) := by
  have hle : lo < hi + 1 := hS.lt_iff_lt.mp (h1.trans_lt h2)
  -- induction on the number of units left above `lo`
  induction hn : (hi - lo).toNat generalizing lo with
  | zero =>
    have : hi = lo := by omega
    subst this
    exact ⟨hi, le_refl _, le_refl _, h1, h2⟩
  | succ n ih =>
    by_cases hv : v < S (lo + 1)
    · exact ⟨lo, le_refl _, by omega, h1, hv⟩
    · obtain ⟨u, hu1, hu2, hu⟩ := ih (not_lt.mp hv) (by omega) (by omega)
      exact ⟨u, by omega, hu2, hu⟩

/-- Starts that are not moved inwards cover the units between them. -/
lemma covered_of_keeps (hS : StrictMono S) {lo' hi' u : Int} (hlo : lo' ≤ lo) (hhi : hi + 1 ≤ hi') (hu1 : lo ≤ u)
    (hu2 : u ≤ hi) (h1 : S u ≤ v) (h2 : v < S (u + 1)) : S lo' ≤ v ∧ v ≤ S hi' - 1 := by
  have ha : S lo' ≤ S u := hS.monotone (hlo.trans hu1)
  have hb : S (u + 1) ≤ S hi' := hS.monotone (by omega)
  omega

/-- A start that is moved inwards leaves out a value, if the interval has one. -/
lemma exists_uncovered (hS : StrictMono S) (vmin vmax : Int) {lo' hi' : Int} (hmoved : lo < lo' ∨ hi' < hi + 1)
    (hlo' : vmin < S lo' ∧ S lo' ≤ vmax) (hhi' : vmin ≤ S hi' ∧ S hi' ≤ vmax) (hv1 : vmin ≤ v) (hv2 : v ≤ vmax)
    (h1 : S lo ≤ v) (h2 : v < S (hi + 1)) :
    ∃ w u, vmin ≤ w ∧ w ≤ vmax ∧ lo ≤ u ∧ u ≤ hi ∧ S u ≤ w ∧ w < S (u + 1) ∧ (w < S lo' ∨ S hi' ≤ w) := by
  rcases hmoved with hm | hm
  · have hlt : S lo < S lo' := hS hm
    set w := min (S (hi + 1) - 1) (S lo' - 1) with hw
    have hw1 : S lo ≤ w := by omega
    have hw2 : w < S (hi + 1) := by omega
    obtain ⟨u, hu1, hu2, hu3, hu4⟩ := exists_unit hS hw1 hw2
    exact ⟨w, u, by omega, by omega, hu1, hu2, hu3, hu4, .inl (by omega)⟩
  · have hlt : S hi' < S (hi + 1) := hS hm
    set w := max (S lo) (S hi') with hw
    have hw1 : S lo ≤ w := by omega
    have hw2 : w < S (hi + 1) := by omega
    obtain ⟨u, hu1, hu2, hu3, hu4⟩ := exists_unit hS hw1 hw2
    exact ⟨w, u, by omega, by omega, hu1, hu2, hu3, hu4, .inr (by omega)⟩

end

/-- The conversions accept the units, and 16 bits do not hold the year of one of them. -/
def YearWraps : TemporalTransform → Int → Int → Prop
  | .year, lo, hi => -5867441 ≤ lo ∧ hi + 1 ≤ 5867441 ∧ (1970 + lo < -32768 ∨ 32767 < 1970 + (hi + 1))
  | .month, lo, hi => 0 ≤ lo ∧ hi + 1 ≤ 69273666 ∧ 32767 < 1970 + (hi + 1) / 12
  | .day, _, _ => False
  | .hour, _, _ => False

lemma keeps_of_not_wraps {t : TemporalTransform} {lo hi : Int} (h1 : Accepted t lo) (h2 : Accepted t (hi + 1))
    (h : ¬ YearWraps t lo hi) : wrapUnit t lo ≤ lo ∧ hi + 1 ≤ wrapUnit t (hi + 1) := by
  cases t with
  | year =>
    simp only [Accepted, YearWraps, wrapUnit] at *
    have hb1 := chronoYear_bounds (1970 + lo)
    have hb2 := chronoYear_bounds (1970 + (hi + 1))
    have hlo : 1970 + lo ≤ 32767 → chronoYear (1970 + lo) = 1970 + lo := chronoYear_of_fits (by omega)
    have hhi : -32768 ≤ 1970 + (hi + 1) → chronoYear (1970 + (hi + 1)) = 1970 + (hi + 1) :=
      fun hge => chronoYear_of_fits hge (by omega)
    omega
  | month =>
    simp only [Accepted, YearWraps, wrapUnit] at *
    have hb := chronoYear_bounds (1970 + lo / 12)
    have hlo : 1970 + lo / 12 ≤ 32767 → chronoYear (1970 + lo / 12) = 1970 + lo / 12 := chronoYear_of_fits (by omega)
    have hhi : chronoYear (1970 + (hi + 1) / 12) = 1970 + (hi + 1) / 12 := chronoYear_of_fits (by omega) (by omega)
    omega
  | day => exact ⟨le_refl _, le_refl _⟩
  | hour => exact ⟨le_refl _, le_refl _⟩

lemma moved_of_wraps {t : TemporalTransform} {lo hi : Int} (h : YearWraps t lo hi) (hle : lo ≤ hi) :
    Accepted t lo ∧ Accepted t (hi + 1) ∧ (lo < wrapUnit t lo ∨ wrapUnit t (hi + 1) < hi + 1) ∧ t ≠ .hour := by
  cases t with
  | year =>
    simp only [Accepted, YearWraps, wrapUnit] at *
    have hb1 := chronoYear_bounds (1970 + lo)
    have hb2 := chronoYear_bounds (1970 + (hi + 1))
    refine ⟨by omega, by omega, by omega, by decide⟩
  | month =>
    simp only [Accepted, YearWraps, wrapUnit] at *
    have hb2 := chronoYear_bounds (1970 + (hi + 1) / 12)
    refine ⟨by omega, by omega, by omega, by decide⟩
  | day => exact h.elim
  | hour => exact h.elim

/-- A wrapped year is a year between -32768 and 32767. -/
lemma startDay_wrapUnit_bounds {t : TemporalTransform} {lo hi : Int} (h : YearWraps t lo hi) (u : Int) :
    -12700000 ≤ startDay t (wrapUnit t u) ∧ startDay t (wrapUnit t u) ≤ 12700000 := by
  cases t with
  | year =>
    have hb := chronoYear_bounds (1970 + u)
    have h1 : yearStart (-34738) ≤ yearStart (wrapUnit .year u) :=
      yearStart_strictMono.monotone (by simp only [wrapUnit]; omega)
    have h2 : yearStart (wrapUnit .year u) ≤ yearStart 30797 :=
      yearStart_strictMono.monotone (by simp only [wrapUnit]; omega)
    have h3 : -12700000 ≤ yearStart (-34738) := by decide
    have h4 : yearStart 30797 ≤ 12700000 := by decide
    exact ⟨h3.trans h1, h2.trans h4⟩
  | month =>
    have hb := chronoYear_bounds (1970 + u / 12)
    have h1 : monthStart (-416856) ≤ monthStart (wrapUnit .month u) :=
      monthStart_strictMono.monotone (by simp only [wrapUnit]; omega)
    have h2 : monthStart (wrapUnit .month u) ≤ monthStart 369575 :=
      monthStart_strictMono.monotone (by simp only [wrapUnit]; omega)
    have h3 : -12700000 ≤ monthStart (-416856) := by decide
    have h4 : monthStart 369575 ≤ 12700000 := by decide
    exact ⟨h3.trans h1, h2.trans h4⟩
  | day => exact h.elim
  | hour => exact h.elim

/-! ### Dates -/

lemma inStats_iff {type : ValueType} {stats : MinMaxStats (PhysicalType type)} {x : PhysicalType type}
    (h : type.isComparable = true) : InStats ⟨type, stats⟩ ⟨type, x⟩ ↔ stats.min ≤ x ∧ x ≤ stats.max := by
  constructor
  · intro hin
    cases hin with
    | mk lower upper => exact ⟨lower, upper⟩
    | unordered hun => exact absurd h (by simp [hun])
  · rintro ⟨lower, upper⟩
    exact .mk lower upper

lemma inStats_date {a b : Int} {x : SignedInt 32} (ha : -2 ^ 31 ≤ a ∧ a < 2 ^ 31) (hb : -2 ^ 31 ≤ b ∧ b < 2 ^ 31) :
    InStats ⟨.date, ⟨toInt32 a, toInt32 b⟩⟩ ⟨.date, x⟩ ↔ a ≤ x.val ∧ x.val ≤ b := by
  refine (@inStats_iff .date ⟨toInt32 a, toInt32 b⟩ x rfl).trans ?_
  change (toInt32 a).val ≤ x.val ∧ x.val ≤ (toInt32 b).val ↔ _
  rw [toInt32_val ha, toInt32_val hb]

lemma hasUnit_date {t : TemporalTransform} (ht : t ≠ .hour) {u d : Int} :
    t.HasUnit u (d * microsInDay) ↔ startDay t u ≤ d ∧ d < startDay t (u + 1) := by
  unfold TemporalTransform.HasUnit
  rw [start_eq_startDay ht, start_eq_startDay ht, mul_le_mul_iff_of_pos_right microsInDay_pos,
    mul_lt_mul_iff_of_pos_right microsInDay_pos]

lemma getStatsFromTemporalForDate_ok {lo hi : Int} {transform : Bytes} {stats : GenericStats}
    (h : ManifestFileStatsGetter.getStatsFromTemporalForDate lo hi transform = .ok (some stats)) :
    ∃ a b, ManifestFileStatsGetter.getMinMaxDayFromTemporal lo hi transform = .ok (some (a, b)) ∧
      stats = { minMax := ⟨.date, ⟨toInt32 a, toInt32 b⟩⟩ } := by
  obtain ⟨minMaxDay, hday, h⟩ := bind_ok h
  cases minMaxDay with
  | none => cases h
  | some days => exact ⟨days.1, days.2, hday, (Option.some.inj (Except.ok.inj h)).symm⟩

section
variable {t : TemporalTransform} {transform : Bytes} {lo hi : Int}

/-- The days between two accepted bounds are 32-bit integers. -/
lemma dayBounds_inInt32 (hlo : int32Min ≤ lo ∧ lo ≤ int32Max) (hhi : int32Min ≤ hi ∧ hi ≤ int32Max) {a b : Int}
    (ht : TemporalTransform.ofText transform = some t)
    (h : ManifestFileStatsGetter.getMinMaxDayFromTemporal lo hi transform = .ok (some (a, b))) :
    (-2 ^ 31 ≤ a ∧ a < 2 ^ 31) ∧ (-2 ^ 31 ≤ b ∧ b < 2 ^ 31) := by
  obtain ⟨hne, -, -, rfl, rfl⟩ := (getMinMaxDayFromTemporal_iff ht).mp h
  unfold int32Min int32Max at hlo hhi
  cases t with
  | year =>
    have hw : YearWraps .year 0 100000 := ⟨by omega, by omega, by omega⟩
    have h1 := startDay_wrapUnit_bounds hw lo
    have h2 := startDay_wrapUnit_bounds hw (hi + 1)
    omega
  | month =>
    have hw : YearWraps .month 0 1000000 := ⟨by omega, by omega, by omega⟩
    have h1 := startDay_wrapUnit_bounds hw lo
    have h2 := startDay_wrapUnit_bounds hw (hi + 1)
    omega
  | day =>
    simp only [startDay, wrapUnit]
    omega
  | hour => exact absurd rfl hne

lemma dateStats_sound (hlo : int32Min ≤ lo ∧ lo ≤ int32Max) (hhi : int32Min ≤ hi ∧ hi ≤ int32Max)
    (ht : TemporalTransform.ofText transform = some t) {stats : GenericStats}
    (h : ManifestFileStatsGetter.getStatsFromTemporalForDate lo hi transform = .ok (some stats))
    (hw : ¬ YearWraps t lo hi) {u : Int} {x : SignedInt 32} (hu1 : lo ≤ u) (hu2 : u ≤ hi)
    (hu : t.HasUnit u (x.val * microsInDay)) : InStats stats.minMax ⟨.date, x⟩ := by
  obtain ⟨a, b, hday, rfl⟩ := getStatsFromTemporalForDate_ok h
  obtain ⟨ha, hb⟩ := dayBounds_inInt32 hlo hhi ht hday
  obtain ⟨hne, hacc1, hacc2, rfl, rfl⟩ := (getMinMaxDayFromTemporal_iff ht).mp hday
  obtain ⟨hk1, hk2⟩ := keeps_of_not_wraps hacc1 hacc2 hw
  obtain ⟨h1, h2⟩ := (hasUnit_date hne).mp hu
  exact (inStats_date ha hb).mpr (covered_of_keeps (startDay_strictMono t) hk1 hk2 hu1 hu2 h1 h2)

lemma dateStats_unsound (hlo : int32Min ≤ lo ∧ lo ≤ int32Max) (hhi : int32Min ≤ hi ∧ hi ≤ int32Max)
    (ht : TemporalTransform.ofText transform = some t) (hw : YearWraps t lo hi) {u : Int} {x : SignedInt 32}
    (hu1 : lo ≤ u) (hu2 : u ≤ hi) (hu : t.HasUnit u (x.val * microsInDay)) :
    ∃ stats, ManifestFileStatsGetter.getStatsFromTemporalForDate lo hi transform = .ok (some stats) ∧
      ∃ (w : Int) (y : SignedInt 32), lo ≤ w ∧ w ≤ hi ∧ t.HasUnit w (y.val * microsInDay) ∧
        ¬ InStats stats.minMax ⟨.date, y⟩ := by
  obtain ⟨hacc1, hacc2, hmoved, hne⟩ := moved_of_wraps hw (hu1.trans hu2)
  have hday := (getMinMaxDayFromTemporal_iff ht).mpr ⟨hne, hacc1, hacc2, rfl, rfl⟩
  obtain ⟨ha, hb⟩ := dayBounds_inInt32 hlo hhi ht hday
  obtain ⟨h1, h2⟩ := (hasUnit_date hne).mp hu
  have hb1 := startDay_wrapUnit_bounds hw lo
  have hb2 := startDay_wrapUnit_bounds hw (hi + 1)
  have hmono := startDay_strictMono t
  obtain ⟨w, u', hw1, hw2, hu1', hu2', hs1, hs2, hout⟩ := exists_uncovered hmono (-2 ^ 31) (2 ^ 31 - 1) hmoved
    (by omega) (by omega) x.property.1 (by have := x.property.2; omega) ((hmono.monotone hu1).trans h1)
    (h2.trans_le (hmono.monotone (by omega)))
  refine ⟨{ minMax := ⟨.date, ⟨toInt32 (startDay t (wrapUnit t lo)), toInt32 (startDay t (wrapUnit t (hi + 1)) - 1)⟩⟩ },
    ?_, u', ⟨w, hw1, by omega⟩, hu1', hu2', (hasUnit_date hne).mpr ⟨hs1, hs2⟩, ?_⟩
  · unfold ManifestFileStatsGetter.getStatsFromTemporalForDate
    rw [hday, ok_bind]
  · intro hin
    have hin := (inStats_date ha hb).mp hin
    simp only at hin
    omega

/-! ### Timestamps -/

lemma inStats_timestamp {a b : Int} {x : SignedInt 64} (ha : InInt64 a) (hb : InInt64 b) :
    InStats ⟨.timestamp, ⟨toInt64 a, toInt64 b⟩⟩ ⟨.timestamp, x⟩ ↔ a ≤ x.val ∧ x.val ≤ b := by
  refine (@inStats_iff .timestamp ⟨toInt64 a, toInt64 b⟩ x rfl).trans ?_
  change (toInt64 a).val ≤ x.val ∧ x.val ≤ (toInt64 b).val ↔ _
  rw [toInt64_val ha, toInt64_val hb]

lemma inStats_timestamptz {a b : Int} {x : SignedInt 64} (ha : InInt64 a) (hb : InInt64 b) :
    InStats ⟨.timestamptz, ⟨toInt64 a, toInt64 b⟩⟩ ⟨.timestamptz, x⟩ ↔ a ≤ x.val ∧ x.val ≤ b := by
  refine (@inStats_iff .timestamptz ⟨toInt64 a, toInt64 b⟩ x rfl).trans ?_
  change (toInt64 a).val ≤ x.val ∧ x.val ≤ (toInt64 b).val ↔ _
  rw [toInt64_val ha, toInt64_val hb]

/-- The instants between two accepted bounds are 64-bit integers. -/
lemma microsBounds_inInt64 (hlo : int32Min ≤ lo ∧ lo ≤ int32Max) (hhi : int32Min ≤ hi ∧ hi ≤ int32Max) {a b : Int}
    (ht : TemporalTransform.ofText transform = some t)
    (h : ManifestFileStatsGetter.getMinMaxMicrosFromTemporal lo hi transform = .ok (a, b)) :
    InInt64 a ∧ InInt64 b := by
  obtain ⟨-, -, hdays, rfl, rfl⟩ := (getMinMaxMicrosFromTemporal_iff ht hlo hhi).mp h
  unfold int32Min int32Max at hlo hhi
  unfold InInt64 int64Min int64Max
  by_cases hhour : t = .hour
  · subst hhour
    simp only [TemporalTransform.start, wrapUnit, microsPerHour]
    omega
  · rw [start_eq_startDay hhour, start_eq_startDay hhour]
    have h1 := hdays hhour lo (by simp)
    have h2 := hdays hhour (hi + 1) (by simp)
    simp only [microsInDay]
    omega

/-- A wrapped year has a few thousand million million microseconds. -/
lemma start_wrapUnit_bounds {lo' hi' : Int} (h : YearWraps t lo' hi') (u : Int) :
    -1100000000000000000 ≤ t.start (wrapUnit t u) ∧ t.start (wrapUnit t u) ≤ 1100000000000000000 := by
  have hne : t ≠ .hour := by
    rintro rfl
    exact h
  have hb := startDay_wrapUnit_bounds h u
  rw [start_eq_startDay hne]
  simp only [microsInDay]
  omega

lemma getMinMaxMicros_of_wraps (hlo : int32Min ≤ lo ∧ lo ≤ int32Max) (hhi : int32Min ≤ hi ∧ hi ≤ int32Max)
    (ht : TemporalTransform.ofText transform = some t) (hw : YearWraps t lo hi) (hle : lo ≤ hi) :
    ManifestFileStatsGetter.getMinMaxMicrosFromTemporal lo hi transform =
      .ok (t.start (wrapUnit t lo), t.start (wrapUnit t (hi + 1)) - 1) := by
  obtain ⟨hacc1, hacc2, -, -⟩ := moved_of_wraps hw hle
  refine (getMinMaxMicrosFromTemporal_iff ht hlo hhi).mpr ⟨hacc1, hacc2, ?_, rfl, rfl⟩
  intro _ u _
  have := startDay_wrapUnit_bounds hw u
  omega

/-- A value that wrapped bounds leave out, if there is any between the true bounds. -/
lemma exists_uncovered_micros (hw : YearWraps t lo hi) {u : Int} {x : SignedInt 64} (hu1 : lo ≤ u) (hu2 : u ≤ hi)
    (hu : t.HasUnit u x.val) :
    ∃ (y : SignedInt 64) (u' : Int), lo ≤ u' ∧ u' ≤ hi ∧ t.HasUnit u' y.val ∧
      (y.val < t.start (wrapUnit t lo) ∨ t.start (wrapUnit t (hi + 1)) ≤ y.val) := by
  obtain ⟨-, -, hmoved, -⟩ := moved_of_wraps hw (hu1.trans hu2)
  have hb1 := start_wrapUnit_bounds hw lo
  have hb2 := start_wrapUnit_bounds hw (hi + 1)
  have hmono := start_strictMono t
  obtain ⟨w, u', hw1, hw2, hu1', hu2', hs1, hs2, hout⟩ := exists_uncovered hmono (-2 ^ 63) (2 ^ 63 - 1) hmoved
    (by omega) (by omega) x.property.1 (by have := x.property.2; omega) ((hmono.monotone hu1).trans hu.1)
    (hu.2.trans_le (hmono.monotone (by omega)))
  exact ⟨⟨w, hw1, by omega⟩, u', hu1', hu2', ⟨hs1, hs2⟩, hout⟩

lemma timestampStats_sound (hlo : int32Min ≤ lo ∧ lo ≤ int32Max) (hhi : int32Min ≤ hi ∧ hi ≤ int32Max)
    (ht : TemporalTransform.ofText transform = some t) {stats : GenericStats}
    (h : ManifestFileStatsGetter.getStatsFromTemporalForTimestamp lo hi transform false = .ok (some stats))
    (hw : ¬ YearWraps t lo hi) {u : Int} {x : SignedInt 64} (hu1 : lo ≤ u) (hu2 : u ≤ hi)
    (hu : t.HasUnit u x.val) : InStats stats.minMax ⟨.timestamp, x⟩ := by
  obtain ⟨⟨a, b⟩, hmicros, h⟩ := bind_ok h
  obtain ⟨ha, hb⟩ := microsBounds_inInt64 hlo hhi ht hmicros
  obtain ⟨hacc1, hacc2, -, rfl, rfl⟩ := (getMinMaxMicrosFromTemporal_iff ht hlo hhi).mp hmicros
  obtain ⟨hk1, hk2⟩ := keeps_of_not_wraps hacc1 hacc2 hw
  rw [← Option.some.inj (Except.ok.inj h)]
  exact (inStats_timestamp ha hb).mpr (covered_of_keeps (start_strictMono t) hk1 hk2 hu1 hu2 hu.1 hu.2)

lemma timestampStats_unsound (hlo : int32Min ≤ lo ∧ lo ≤ int32Max) (hhi : int32Min ≤ hi ∧ hi ≤ int32Max)
    (ht : TemporalTransform.ofText transform = some t) (hw : YearWraps t lo hi) {u : Int} {x : SignedInt 64}
    (hu1 : lo ≤ u) (hu2 : u ≤ hi) (hu : t.HasUnit u x.val) :
    ∃ stats, ManifestFileStatsGetter.getStatsFromTemporalForTimestamp lo hi transform false = .ok (some stats) ∧
      ∃ (w : Int) (y : SignedInt 64), lo ≤ w ∧ w ≤ hi ∧ t.HasUnit w y.val ∧ ¬ InStats stats.minMax ⟨.timestamp, y⟩ := by
  have hmicros := getMinMaxMicros_of_wraps hlo hhi ht hw (hu1.trans hu2)
  obtain ⟨ha, hb⟩ := microsBounds_inInt64 hlo hhi ht hmicros
  obtain ⟨y, u', hu1', hu2', hy, hout⟩ := exists_uncovered_micros hw hu1 hu2 hu
  refine ⟨{ minMax := ⟨.timestamp, ⟨toInt64 (t.start (wrapUnit t lo)), toInt64 (t.start (wrapUnit t (hi + 1)) - 1)⟩⟩ },
    ?_, u', y, hu1', hu2', hy, ?_⟩
  · unfold ManifestFileStatsGetter.getStatsFromTemporalForTimestamp
    rw [hmicros, ok_bind]
    rfl
  · intro hin
    have hin := (inStats_timestamp ha hb).mp hin
    omega

/-- The bounds of a timestamptz are wider by a day on both sides. -/
lemma timestamptzStats_ok {a b : Int}
    (hmicros : ManifestFileStatsGetter.getMinMaxMicrosFromTemporal lo hi transform = .ok (a, b)) {stats : GenericStats} :
    ManifestFileStatsGetter.getStatsFromTemporalForTimestamp lo hi transform true = .ok (some stats) ↔
      int64Min + microsInDay ≤ a ∧ b ≤ int64Max - microsInDay ∧
        stats = { minMax := ⟨.timestamptz, ⟨toInt64 (a - microsInDay), toInt64 (b + microsInDay)⟩⟩ } := by
  unfold ManifestFileStatsGetter.getStatsFromTemporalForTimestamp
  rw [hmicros, ok_bind]
  simp only [if_true]
  by_cases h1 : a < int64Min + microsInDay
  · rw [if_pos h1]
    constructor
    · intro h
      exact absurd (Except.ok.inj h) (by simp)
    · rintro ⟨h, -, -⟩
      omega
  · rw [if_neg h1]
    by_cases h2 : b > int64Max - microsInDay
    · rw [if_pos h2]
      constructor
      · intro h
        exact absurd (Except.ok.inj h) (by simp)
      · rintro ⟨-, h, -⟩
        omega
    · rw [if_neg h2]
      constructor
      · intro h
        exact ⟨by omega, by omega, (Option.some.inj (Except.ok.inj h)).symm⟩
      · rintro ⟨-, -, h⟩
        rw [h]

lemma timestamptzStats_sound (hlo : int32Min ≤ lo ∧ lo ≤ int32Max) (hhi : int32Min ≤ hi ∧ hi ≤ int32Max)
    (ht : TemporalTransform.ofText transform = some t) {stats : GenericStats}
    (h : ManifestFileStatsGetter.getStatsFromTemporalForTimestamp lo hi transform true = .ok (some stats))
    (hw : ¬ YearWraps t lo hi) {u : Int} {x y : SignedInt 64} (hxy : |x.val - y.val| ≤ microsInDay) (hu1 : lo ≤ u)
    (hu2 : u ≤ hi) (hu : t.HasUnit u y.val) : InStats stats.minMax ⟨.timestamptz, x⟩ := by
  obtain ⟨⟨a, b⟩, hmicros, -⟩ := bind_ok h
  obtain ⟨hmin, hmax, rfl⟩ := (timestamptzStats_ok hmicros).mp h
  obtain ⟨ha, hb⟩ := microsBounds_inInt64 hlo hhi ht hmicros
  obtain ⟨hacc1, hacc2, -, rfl, rfl⟩ := (getMinMaxMicrosFromTemporal_iff ht hlo hhi).mp hmicros
  obtain ⟨hk1, hk2⟩ := keeps_of_not_wraps hacc1 hacc2 hw
  have hcov := covered_of_keeps (start_strictMono t) hk1 hk2 hu1 hu2 hu.1 hu.2
  have hxy := abs_le.mp hxy
  have hday := microsInDay_pos
  unfold InInt64 at ha hb
  refine (inStats_timestamptz (by unfold InInt64; omega) (by unfold InInt64; omega)).mpr ?_
  omega

lemma timestamptzStats_unsound (hlo : int32Min ≤ lo ∧ lo ≤ int32Max) (hhi : int32Min ≤ hi ∧ hi ≤ int32Max)
    (ht : TemporalTransform.ofText transform = some t) (hw : YearWraps t lo hi) {u : Int} {x : SignedInt 64}
    (hu1 : lo ≤ u) (hu2 : u ≤ hi) (hu : t.HasUnit u x.val) :
    ∃ stats, ManifestFileStatsGetter.getStatsFromTemporalForTimestamp lo hi transform true = .ok (some stats) ∧
      ∃ (w : Int) (y z : SignedInt 64), lo ≤ w ∧ w ≤ hi ∧ t.HasUnit w y.val ∧ |z.val - y.val| ≤ microsInDay ∧
        ¬ InStats stats.minMax ⟨.timestamptz, z⟩ := by
  have hmicros := getMinMaxMicros_of_wraps hlo hhi ht hw (hu1.trans hu2)
  have hb1 := start_wrapUnit_bounds hw lo
  have hb2 := start_wrapUnit_bounds hw (hi + 1)
  obtain ⟨y, u', hu1', hu2', hy, hout⟩ := exists_uncovered_micros hw hu1 hu2 hu
  have hy1 := y.property.1
  have hy2 := y.property.2
  have hday : microsInDay = 86400000000 := by decide
  -- the other end of the day around the value that is left out, if it is a timestamp
  obtain ⟨z, hz1, hz2, hzy, hzout⟩ : ∃ z : Int, -2 ^ 63 ≤ z ∧ z < 2 ^ 63 ∧ |z - y.val| ≤ microsInDay ∧
      (z < t.start (wrapUnit t lo) - microsInDay ∨ t.start (wrapUnit t (hi + 1)) - 1 + microsInDay < z) := by
    rw [hday]
    rcases hout with hout | hout
    · exact ⟨max (y.val - 86400000000) (-2 ^ 63), by omega, by omega, by rw [abs_le]; omega, .inl (by omega)⟩
    · exact ⟨min (y.val + 86400000000) (2 ^ 63 - 1), by omega, by omega, by rw [abs_le]; omega, .inr (by omega)⟩
  refine ⟨_, (timestamptzStats_ok hmicros).mpr ⟨?_, ?_, rfl⟩, u', y, ⟨z, hz1, hz2⟩, hu1', hu2', hy, hzy, ?_⟩
  · rw [hday]; unfold int64Min; omega
  · rw [hday]; unfold int64Max; omega
  · intro hin
    have hin := (inStats_timestamptz (by rw [hday]; unfold InInt64 int64Min int64Max; omega)
      (by rw [hday]; unfold InInt64 int64Min int64Max; omega)).mp hin
    simp only at hin
    omega

end

end IcebergCxx.Proofs

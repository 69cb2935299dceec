import Mathlib

/-!
# Three-valued logic with failures, and bounds on truth values

`Truth` is the result of evaluating a condition: a truth value, `unknown` for a `NULL`, or
`fail` when the evaluation has no result. A pair of bounds allows a truth value that lies
between them; `unknown` and `fail` are always allowed.
-/

namespace IcebergCxx.Lib

inductive Truth
  | fail
  | unknown
  | known (b : Bool)
deriving DecidableEq, Repr

namespace Truth

/-- Kleene's conjunction, or with `useOr` his disjunction: the absorbing value wins. -/
def join (useOr : Bool) : Truth → Truth → Truth
  | known a, known b => if useOr then known (a || b) else known (a && b)
  | known a, other => if a = useOr then known useOr else other
  | other, known b => if b = useOr then known useOr else other
  | fail, _ => fail
  | _, fail => fail
  | unknown, unknown => unknown

def not : Truth → Truth
  | known b => known (!b)
  | other => other

/-- The bounds `lo` and `hi` allow the truth value. -/
def Within (lo hi : Bool) (t : Truth) : Prop := ∀ b, t = known b → lo ≤ b ∧ b ≤ hi

instance (lo hi : Bool) (t : Truth) : Decidable (Within lo hi t) := inferInstanceAs (Decidable (∀ _, _))

lemma within_not {lo hi : Bool} {t : Truth} (h : Within lo hi t) : Within (!hi) (!lo) t.not := by
  cases t with
  | fail => exact fun b hb => absurd hb (by simp [not])
  | unknown => exact fun b hb => absurd hb (by simp [not])
  | known b => revert h; revert lo hi b; decide

/-- Once the join is bounded by its absorbing value, it stays so. -/
lemma within_join_absorbing {useOr : Bool} {s : Truth} (hs : Within useOr useOr s) (t : Truth) :
    Within useOr useOr (join useOr s t) := by
  cases s <;> cases t <;> revert hs <;> decide +revert

lemma within_foldl_absorbing {useOr : Bool} {s : Truth} (hs : Within useOr useOr s) (l : List Truth) :
    Within useOr useOr (l.foldl (join useOr) s) := by
  induction l generalizing s with
  | nil => exact hs
  | cons t l ih => exact ih (within_join_absorbing hs t)

end Truth

end IcebergCxx.Lib

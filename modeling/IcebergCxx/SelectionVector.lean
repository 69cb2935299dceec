import IcebergCxx.Lib.Compaction

/-!
# Selection vectors

`selection_vector.h`: the rows of a batch that are selected. A sequence of row numbers is given by
iterators over a type that the rows of the vector are converted to before they are compared.
-/

namespace IcebergCxx

open Lib

structure SelectionVector (T : Type) where
  indices : List T
  deriving DecidableEq

namespace SelectionVector

variable {T α : Type} [LinearOrder α] (promote : T → α)

/-- The variables of the loops: the indices with `result_index`, and the rows from `current_iter` to the end. -/
structure LoopState (T α : Type) extends Compacting T where
  currentIter : List α

/-- `while (current_iter != end && *current_iter < row_to_check) ++current_iter`. -/
def advance (rowToCheck : T) (currentIter : List α) : List α :=
  currentIter.dropWhile (fun row => row < promote rowToCheck)

/-- The body of the loop of `KeepIfEqual`. -/
def keepRound (s : LoopState T α) (indexToCheck : Nat) : LoopState T α ⊕ LoopState T α :=
  match s.cells[indexToCheck]? with
  | none => .inr s
  | some rowToCheck =>
    match advance promote rowToCheck s.currentIter with
    | [] => .inr { s with currentIter := [] }
    | row :: rows =>
      if row = promote rowToCheck then .inl { toCompacting := s.keep indexToCheck, currentIter := row :: rows }
      else .inl { s with currentIter := row :: rows }

/-- The body of the loop of `DeleteIfEqual`; with no row left it keeps what has not been checked. -/
def deleteRound (s : LoopState T α) (indexToCheck : Nat) : LoopState T α ⊕ LoopState T α :=
  match s.cells[indexToCheck]? with
  | none => .inr s
  | some rowToCheck =>
    match advance promote rowToCheck s.currentIter with
    | [] =>
      let left := List.range' indexToCheck (s.cells.length - indexToCheck)
      .inr { toCompacting := left.foldl Compacting.keep s.toCompacting, currentIter := [] }
    | row :: rows =>
      if row ≠ promote rowToCheck then .inl { toCompacting := s.keep indexToCheck, currentIter := row :: rows }
      else .inl { s with currentIter := row :: rows }

/-- The loop over all indices and the final `resize`: the vector and the number of removed rows. -/
def compact (round : LoopState T α → Nat → LoopState T α ⊕ LoopState T α) (sv : SelectionVector T) (rows : List α) :
    SelectionVector T × Nat :=
  let s := forUntil round (List.range sv.indices.length) { cells := sv.indices, resultIndex := 0, currentIter := rows }
  (⟨s.cells.take s.resultIndex⟩, s.cells.length - s.resultIndex)

/-- `KeepIfEqual`. -/
def keepIfEqual (sv : SelectionVector T) (rows : List α) : SelectionVector T × Nat :=
  sv.compact (keepRound promote) rows

/-- `DeleteIfEqual`. -/
def deleteIfEqual (sv : SelectionVector T) (rows : List α) : SelectionVector T × Nat :=
  sv.compact (deleteRound promote) rows

end SelectionVector

end IcebergCxx

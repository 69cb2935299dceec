import IcebergCxx.Lib.Bytes

/-!
# Searching in byte strings

`find` and `find_first_of` of `std::string`: the first position of a text, and the first position
from a given one on of a byte of a set. No position stands for `npos`.
-/

namespace IcebergCxx.Lib

/-- The first position at which the text stands. -/
def find (needle : Bytes) : Bytes → Option Nat
  | [] => if needle = [] then some 0 else none
  | c :: s => if needle.isPrefixOf (c :: s) then some 0 else (find needle s).map (· + 1)

/-- The first position of a byte of the set. -/
def findFirst (set : Bytes) : Bytes → Option Nat
  | [] => none
  | c :: s => if c ∈ set then some 0 else (findFirst set s).map (· + 1)

/-- `find_first_of` with a start position. -/
def findFirstOf (set s : Bytes) (pos : Nat) : Option Nat := (findFirst set (s.drop pos)).map (· + pos)

/-- The bytes before a position, or all of them when there is none. -/
def before (pos : Option Nat) (s : Bytes) : Bytes :=
  match pos with
  | some pos => s.take pos
  | none => s

/-- A text found at a position stands there. -/
lemma drop_find {needle s : Bytes} {pos : Nat} (h : find needle s = some pos) :
    s = s.take pos ++ needle ++ s.drop (pos + needle.length) := by
  induction s generalizing pos with
  | nil =>
    rw [find] at h
    split_ifs at h with hn
    cases h
    rw [hn]
    rfl
  | cons c s ih =>
    rw [find] at h
    split_ifs at h with hp
    · cases h
      obtain ⟨t, ht⟩ := List.isPrefixOf_iff_prefix.mp hp
      rw [← ht]
      simp
    · obtain ⟨p, hp, rfl⟩ := Option.map_eq_some_iff.mp h
      rw [Nat.add_right_comm, List.take_succ_cons, List.drop_succ_cons, List.cons_append, List.cons_append, ← ih hp]

lemma find_eq_none_iff {needle s : Bytes} : find needle s = none ↔ ¬needle <:+: s := by
  induction s with
  | nil =>
    rw [find, List.infix_nil]
    split_ifs with hn <;> simp [hn]
  | cons c s ih =>
    rw [find, List.infix_cons_iff, ← List.isPrefixOf_iff_prefix]
    split_ifs with hp
    · simp [hp]
    · rw [Option.map_eq_none_iff, ih, not_or]
      exact ⟨fun h => ⟨hp, h⟩, fun h => h.2⟩

/-- No occurrence of a text comes before the one that is found. -/
lemma find_le {needle l rest : Bytes} {pos : Nat} (h : find needle (l ++ needle ++ rest) = some pos) :
    pos ≤ l.length := by
  induction l generalizing pos with
  | nil =>
    cases hs : needle ++ rest with
    | nil =>
      rw [List.nil_append, hs, find] at h
      split_ifs at h
      cases h
      exact le_rfl
    | cons c s =>
      have hprefix : needle.isPrefixOf (c :: s) = true := by
        rw [← hs]
        exact List.isPrefixOf_iff_prefix.mpr (List.prefix_append needle rest)
      rw [List.nil_append, hs, find, if_pos hprefix] at h
      cases h
      exact le_rfl
  | cons c l ih =>
    rw [List.cons_append, List.cons_append, find] at h
    split_ifs at h
    · cases h
      exact Nat.zero_le _
    · obtain ⟨p, hp, rfl⟩ := Option.map_eq_some_iff.mp h
      exact Nat.succ_le_succ (ih hp)

/-- A text stands first where its first byte does. -/
lemma find_append {c : Byte} {needle l : Bytes} (h : c ∉ l) (rest : Bytes) :
    find (c :: needle) (l ++ (c :: needle ++ rest)) = some l.length := by
  induction l with
  | nil =>
    have hprefix : (c :: needle).isPrefixOf (c :: (needle ++ rest)) = true :=
      List.isPrefixOf_iff_prefix.mpr (List.prefix_append (c :: needle) rest)
    rw [List.nil_append, List.cons_append, find, if_pos hprefix]
    rfl
  | cons d l ih =>
    obtain ⟨hd, hl⟩ := not_or.mp (fun hmem => h (List.mem_cons.mpr hmem))
    have hprefix : ¬(c :: needle).isPrefixOf (d :: (l ++ (c :: needle ++ rest))) = true := by
      simp [List.isPrefixOf, hd]
    rw [List.cons_append, find, if_neg hprefix, ih hl]
    rfl

lemma findFirst_eq_none {set s : Bytes} : findFirst set s = none ↔ ∀ c ∈ s, c ∉ set := by
  induction s with
  | nil => simp [findFirst]
  | cons c s ih =>
    rw [findFirst]
    split_ifs with hc
    · simp [hc]
    · simp [hc, ih]

/-- What stands before the first byte of a set is what has none of its bytes. -/
lemma before_findFirst (set s : Bytes) : before (findFirst set s) s = s.takeWhile (fun c => c ∉ set) := by
  induction s with
  | nil => rfl
  | cons c s ih =>
    rw [findFirst]
    split_ifs with hc
    · simp [before, hc]
    · rw [List.takeWhile_cons_of_pos (by simpa using hc), ← ih]
      cases findFirst set s <;> rfl

lemma findFirst_some {set s : Bytes} {pos : Nat} (h : findFirst set s = some pos) :
    s.takeWhile (fun c => c ∉ set) = s.take pos ∧ ∃ c rest, s.drop pos = c :: rest ∧ c ∈ set := by
  refine ⟨by rw [← before_findFirst, h]; rfl, ?_⟩
  induction s generalizing pos with
  | nil => cases h
  | cons c s ih =>
    rw [findFirst] at h
    split_ifs at h with hc
    · cases h
      exact ⟨c, s, rfl, hc⟩
    · obtain ⟨p, hp, rfl⟩ := Option.map_eq_some_iff.mp h
      exact ih hp

/-- What stands from the first byte of a set on. -/
lemma drop_findFirst {set s : Bytes} {pos : Nat} (h : findFirst set s = some pos) :
    s.drop pos = s.dropWhile (fun c => c ∉ set) := by
  have hsplit := List.takeWhile_append_dropWhile (p := fun c => decide (c ∉ set)) (l := s)
  rw [(findFirst_some h).1] at hsplit
  exact List.append_cancel_left ((List.take_append_drop pos s).trans hsplit.symm)

lemma dropWhile_of_findFirst {set s : Bytes} (h : findFirst set s = none) :
    s.takeWhile (fun c => c ∉ set) = s ∧ s.dropWhile (fun c => c ∉ set) = [] := by
  have hall : ∀ c ∈ s, decide (c ∉ set) = true := by
    intro c hc
    simpa using findFirst_eq_none.mp h c hc
  exact ⟨List.takeWhile_eq_self_iff.mpr hall, List.dropWhile_eq_nil_iff.mpr hall⟩

lemma findFirst_append {set l : Bytes} {c : Byte} (hl : ∀ b ∈ l, b ∉ set) (hc : c ∈ set) (rest : Bytes) :
    findFirst set (l ++ c :: rest) = some l.length := by
  induction l with
  | nil => rw [List.nil_append, findFirst, if_pos hc, List.length_nil]
  | cons b l ih =>
    rw [List.cons_append, findFirst, if_neg (hl b List.mem_cons_self),
      ih (fun b hb => hl b (List.mem_cons_of_mem _ hb))]
    rfl

end IcebergCxx.Lib

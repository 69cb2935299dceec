import IcebergCxx.Proofs.Representation

/-!
# Sums of data entries

`UniteSegments` gives every set of bytes one form, so that the order and the grouping in which the
segments of a data file come together does not matter. `operator+` and `operator+=` differ in the
deletion vector: the first one builds its result without it.
-/

namespace IcebergCxx.Proofs

open Lib

/-- Segments in order, each with an end before the next one starts; they neither overlap nor touch,
and only the last may have no end. -/
def Apart (l : List Segment) : Prop :=
  (∀ s ∈ l, 0 ≤ s.length) ∧ l.Pairwise (fun a b => 0 < a.length ∧ a.offset + a.length < b.offset)

/-- The order in which `UniteSegments` takes segments. -/
def SortedByOffset (l : List Segment) : Prop := l.Pairwise (fun a b => a.offset ≤ b.offset)

lemma Canonical.apart {l : List Segment} (h : Canonical l) : Apart l := by
  refine ⟨h.proper, ?_⟩
  induction l with
  | nil => exact .nil
  | cons s l ih => exact .cons h.after (ih h.tail)

lemma Apart.canonical {l : List Segment} (h : Apart l) : Canonical l := by
  obtain ⟨hproper, hpair⟩ := h
  induction l with
  | nil => trivial
  | cons a l ih =>
    obtain ⟨hfirst, hpair⟩ := List.pairwise_cons.mp hpair
    have htail := ih (fun s hs => hproper s (List.mem_cons_of_mem _ hs)) hpair
    cases l with
    | nil => exact hproper a List.mem_cons_self
    | cons b l => exact ⟨(hfirst b List.mem_cons_self).1, (hfirst b List.mem_cons_self).2, htail⟩

/-- The segments of a sum. -/
def sumParts (sort : SegmentSort) (a b : DataEntry) : List Segment := (uniteEntries sort a b).parts

lemma map_parts_addAssign (sort : SegmentSort) {a b : DataEntry} (h : a.path = b.path) :
    (a.addAssign sort b).map DataEntry.parts = .ok (sumParts sort a b) := by
  rw [addAssign_eq sort h]
  rfl

lemma cover_sumParts (sort : SegmentSort) {a b : DataEntry} (ha : Proper a.parts) (hb : Proper b.parts) :
    cover (sumParts sort a b) = cover a.parts ∪ cover b.parts := by
  ext x
  exact (uniteEntries_spec sort ha hb).2 x

lemma canonical_sumParts (sort : SegmentSort) {a b : DataEntry} (ha : Proper a.parts) (hb : Proper b.parts) :
    Canonical (sumParts sort a b) :=
  (uniteEntries_spec sort ha hb).1

lemma sumParts_comm (sort : SegmentSort) {a b : DataEntry} (ha : Proper a.parts) (hb : Proper b.parts) :
    sumParts sort a b = sumParts sort b a := by
  apply (canonical_sumParts sort ha hb).eq_of_cover (canonical_sumParts sort hb ha)
  rw [cover_sumParts sort ha hb, cover_sumParts sort hb ha, Set.union_comm]

lemma sumParts_assoc (sort : SegmentSort) {a b c : DataEntry} (ha : Proper a.parts) (hb : Proper b.parts)
    (hc : Proper c.parts) :
    sumParts sort (uniteEntries sort a b) c = sumParts sort a (uniteEntries sort b c) := by
  have hab := (canonical_sumParts sort ha hb).proper
  have hbc := (canonical_sumParts sort hb hc).proper
  apply (canonical_sumParts sort hab hc).eq_of_cover (canonical_sumParts sort ha hbc)
  rw [cover_sumParts sort hab hc, cover_sumParts sort ha hbc]
  change cover (sumParts sort a b) ∪ _ = _ ∪ cover (sumParts sort b c)
  rw [cover_sumParts sort ha hb, cover_sumParts sort hb hc, Set.union_assoc]

lemma sumParts_self (sort : SegmentSort) {a : DataEntry} (ha : Proper a.parts) :
    sumParts sort a a = united (sort.sort a.parts) := by
  obtain ⟨h1, h2⟩ := united_sort_spec sort ha
  apply (canonical_sumParts sort ha ha).eq_of_cover h1
  rw [cover_sumParts sort ha ha, Set.union_self, h2]

lemma sumParts_self_iff (sort : SegmentSort) {a : DataEntry} (ha : Proper a.parts) :
    sumParts sort a a = a.parts ↔ Apart a.parts := by
  have hcanonical := canonical_sumParts sort ha ha
  constructor
  · intro h
    rw [h] at hcanonical
    exact hcanonical.apart
  · intro h
    apply hcanonical.eq_of_cover h.canonical
    rw [cover_sumParts sort ha ha, Set.union_self]

lemma sumParts_again (sort : SegmentSort) {a b : DataEntry} (ha : Proper a.parts) (hb : Proper b.parts) :
    sumParts sort (uniteEntries sort a b) b = sumParts sort a b := by
  have hab := (canonical_sumParts sort ha hb).proper
  apply (canonical_sumParts sort hab hb).eq_of_cover (canonical_sumParts sort ha hb)
  rw [cover_sumParts sort hab hb]
  change cover (sumParts sort a b) ∪ _ = _
  rw [cover_sumParts sort ha hb, Set.union_assoc, Set.union_self]

/-! ### Union of segments is canonical -/

/-- A file split at one offset, as the planner stores it. -/
def splitEntry : DataEntry where
  path := bytes "data.parquet"
  parts := segmentsOfFile { splitOffsets := [4, 10] }

/-- For entries of one path both sums give the same entry; for others both throw and the left entry
is as before. -/
def SumsAgree (sort : SegmentSort) (a b : DataEntry) : Prop :=
  (a.path = b.path → ∃ sum, a.add sort b = .ok sum ∧ a.addAssignInPlace sort b = (.ok (), sum)) ∧
  (a.path ≠ b.path →
    (∃ message, a.add sort b = .error message) ∧ ∃ message, a.addAssignInPlace sort b = (.error message, a))

lemma addAssignInPlace_eq (sort : SegmentSort) {a b : DataEntry} (h : a.path = b.path) :
    a.addAssignInPlace sort b = (.ok (), uniteEntries sort a b) := by
  unfold DataEntry.addAssignInPlace
  rw [if_pos h]
  dsimp only
  rw [uniteSegments_of_sorted (sort.sorted _)]
  rfl

lemma add_eq (sort : SegmentSort) {a b : DataEntry} (h : a.path = b.path) :
    a.add sort b = .ok { uniteEntries sort a b with dv := none } := by
  unfold DataEntry.add
  rw [decide_eq_true h, ensure_true, ok_bind, uniteSegments_of_sorted (sort.sorted _), ok_bind]
  rfl

/-- The two sums agree exactly when there is no deletion vector to lose. -/
theorem sumsAgree_iff (sort : SegmentSort) (a b : DataEntry) :
    SumsAgree sort a b ↔ (a.path = b.path → a.dv = none) := by
  constructor
  · rintro ⟨hsame, -⟩ hpath
    obtain ⟨sum, hadd, hassign⟩ := hsame hpath
    rw [add_eq sort hpath] at hadd
    rw [addAssignInPlace_eq sort hpath] at hassign
    obtain rfl := Except.ok.inj hadd
    have hdv := congrArg (fun result => result.2.dv) hassign
    exact hdv
  · intro hdv
    constructor
    · intro hpath
      refine ⟨_, add_eq sort hpath, ?_⟩
      have hnone : (uniteEntries sort a b).dv = none := hdv hpath
      rw [addAssignInPlace_eq sort hpath, ← hnone]
    · intro hpath
      constructor
      · unfold DataEntry.add
        rw [decide_eq_false hpath]
        exact ⟨_, rfl⟩
      · unfold DataEntry.addAssignInPlace
        rw [if_neg hpath]
        exact ⟨_, rfl⟩

/-- A data file with a deletion vector. -/
def entryWithVector : DataEntry where
  path := bytes "data.parquet"
  parts := [⟨4, 0⟩]
  dv := some ⟨bytes "dv.puffin", 4, 40, bytes "data.parquet"⟩

theorem entryWithVector_sums_differ : ¬∃ sort : SegmentSort, SumsAgree sort entryWithVector entryWithVector := by
  rintro ⟨sort, h⟩
  obtain ⟨sum, hadd, hassign⟩ := h.1 rfl
  rw [add_eq sort rfl] at hadd
  rw [addAssignInPlace_eq sort rfl] at hassign
  obtain rfl := Except.ok.inj hadd
  have hdv := congrArg (fun result => result.2.dv.isSome) hassign
  cases hdv

end IcebergCxx.Proofs

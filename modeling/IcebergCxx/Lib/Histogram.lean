import Mathlib

/-!
# Histograms

A table of counts stands for a multiset: every value as often as it is counted. Counting one more occurrence of a value
adds the value to the multiset.
-/

namespace IcebergCxx.Lib

variable {α β : Type} {values : List α} {counts : List ℕ}

/-- Every value as often as it is counted. -/
def expand (values : List α) (counts : List ℕ) : Multiset α :=
  ((values.zip counts).map fun entry => Multiset.replicate entry.2 entry.1).sum

@[simp] lemma expand_nil_left (counts : List ℕ) : expand ([] : List α) counts = 0 := rfl

@[simp] lemma expand_nil_right (values : List α) : expand values [] = 0 := by simp [expand]

@[simp] lemma expand_cons (value : α) (values : List α) (count : ℕ) (counts : List ℕ) :
    expand (value :: values) (count :: counts) = Multiset.replicate count value + expand values counts := by
  simp [expand]

/-- Nothing is counted yet. -/
@[simp] lemma expand_replicate_zero (values : List α) (n : ℕ) : expand values (List.replicate n 0) = 0 := by
  induction values generalizing n with
  | nil => rfl
  | cons value values ih =>
    cases n with
    | zero => exact expand_nil_right _
    | succ n => rw [List.replicate_succ, expand_cons, ih, Multiset.replicate_zero, zero_add]

/-- One more occurrence is counted. -/
lemma expand_set {value : α} {i count : ℕ} (hvalue : values[i]? = some value) (hcount : counts[i]? = some count) :
    expand values (counts.set i (count + 1)) = value ::ₘ expand values counts := by
  induction values generalizing counts i with
  | nil => simp at hvalue
  | cons first values ih =>
    cases counts with
    | nil => simp at hcount
    | cons n counts =>
      cases i with
      | zero =>
        simp only [List.getElem?_cons_zero, Option.some.injEq] at hvalue hcount
        subst hvalue hcount
        rw [List.set_cons_zero, expand_cons, expand_cons, Multiset.replicate_succ, Multiset.cons_add]
      | succ i =>
        rw [List.getElem?_cons_succ] at hvalue hcount
        rw [List.set_cons_succ, expand_cons, expand_cons, ih hvalue hcount, Multiset.add_cons]

/-! ### Dictionaries -/

/-- The indices stand for the values, in their order. -/
def Decodes (dictionary : List α) (indices : List ℕ) (values : List α) : Prop :=
  values.map some = indices.map fun i => dictionary[i]?

variable {dictionary : List α} {indices : List ℕ}

lemma decodes_nil_iff : Decodes dictionary [] values ↔ values = [] := by simp [Decodes]

lemma decodes_cons_iff {i : ℕ} : Decodes dictionary (i :: indices) values ↔
    ∃ value rest, values = value :: rest ∧ dictionary[i]? = some value ∧ Decodes dictionary indices rest := by
  rw [Decodes, List.map_cons, List.map_eq_cons_iff]
  constructor
  · rintro ⟨value, rest, hvalues, hvalue, hrest⟩
    exact ⟨value, rest, hvalues, hvalue.symm, hrest⟩
  · rintro ⟨value, rest, hvalues, hvalue, hrest⟩
    exact ⟨value, rest, hvalues, hvalue.symm, hrest⟩

lemma Decodes.map (f : α → β) (h : Decodes dictionary indices values) :
    Decodes (dictionary.map f) indices (values.map f) := by
  have hmapped := congrArg (List.map (Option.map f)) h
  simpa only [Decodes, List.map_map, Function.comp_def, Option.map_some, List.getElem?_map] using hmapped

/-- Every index is one of the dictionary. -/
lemma Decodes.lt (h : Decodes dictionary indices values) : ∀ i ∈ indices, i < dictionary.length := by
  intro i hi
  have hmem : dictionary[i]? ∈ values.map some := by
    rw [h]
    exact List.mem_map_of_mem hi
  obtain ⟨value, -, hvalue⟩ := List.mem_map.mp hmem
  exact (List.getElem?_eq_some_iff.mp hvalue.symm).1

lemma Decodes.filterMap (h : Decodes dictionary indices values) :
    indices.filterMap (fun i => dictionary[i]?) = values := by
  have hfiltered := congrArg (List.filterMap id) h
  simpa only [List.filterMap_map, Function.comp_def, id, List.filterMap_some] using hfiltered.symm

/-- A dictionary without idle entries has the values that the indices stand for. -/
lemma Decodes.mem_iff (h : Decodes dictionary indices values) (hall : ∀ i < dictionary.length, i ∈ indices)
    {value : α} : value ∈ dictionary ↔ value ∈ values := by
  rw [← h.filterMap, List.mem_filterMap]
  constructor
  · intro hvalue
    obtain ⟨i, hi, hget⟩ := List.getElem_of_mem hvalue
    exact ⟨i, hall i hi, List.getElem?_eq_some_iff.mpr ⟨hi, hget⟩⟩
  · rintro ⟨i, -, hi⟩
    exact List.mem_of_getElem? hi

end IcebergCxx.Lib

import Mathlib

/-!
# Ordered finite maps

An `OrdMap` is an association list with strictly increasing keys, the way an ordered
associative container iterates. Every update goes through `alter`; the lemmas say what a
lookup returns after it, and `ext_find` reduces equality of maps to equality of lookups.
-/

namespace IcebergCxx.Lib

/-- A finite map kept as an association list with strictly increasing keys. -/
structure OrdMap (K V : Type) [LinearOrder K] where
  entries : List (K × V)
  sorted : entries.Pairwise (fun a b => a.1 < b.1)

namespace OrdMap

section Lists

variable {K V : Type} [LinearOrder K]

/-- Rewrites the value stored at `k`, or inserts one in key order. -/
def alterList (k : K) (f : Option V → V) : List (K × V) → List (K × V)
  | [] => [(k, f none)]
  | (k', v) :: l =>
    if k < k' then (k, f none) :: (k', v) :: l
    else if k = k' then (k', f (some v)) :: l
    else (k', v) :: alterList k f l

def findList (k : K) : List (K × V) → Option V
  | [] => none
  | (k', v) :: l => if k = k' then some v else findList k l

lemma mem_alterList_key {k : K} {f : Option V → V} {l : List (K × V)} {p : K × V}
    (h : p ∈ alterList k f l) : p.1 = k ∨ p ∈ l := by
  induction l with
  | nil => simp only [alterList, List.mem_singleton] at h; exact .inl (by rw [h])
  | cons q l ih =>
    obtain ⟨k', v⟩ := q
    simp only [alterList] at h
    split_ifs at h with h1 h2
    · rcases List.mem_cons.mp h with rfl | h
      · exact .inl rfl
      · exact .inr h
    · rcases List.mem_cons.mp h with rfl | h
      · exact .inl h2.symm
      · exact .inr (List.mem_cons_of_mem _ h)
    · rcases List.mem_cons.mp h with rfl | h
      · exact .inr (by simp)
      · rcases ih h with h | h
        · exact .inl h
        · exact .inr (List.mem_cons_of_mem _ h)

lemma alterList_sorted (k : K) (f : Option V → V) {l : List (K × V)}
    (hl : l.Pairwise (fun a b => a.1 < b.1)) :
    (alterList k f l).Pairwise (fun a b => a.1 < b.1) := by
  induction l with
  | nil => simp [alterList]
  | cons q l ih =>
    obtain ⟨k', v⟩ := q
    obtain ⟨hq, hl'⟩ := List.pairwise_cons.mp hl
    simp only [alterList]
    split_ifs with h1 h2
    · refine List.pairwise_cons.mpr ⟨?_, hl⟩
      intro p hp
      rcases List.mem_cons.mp hp with rfl | hp
      · exact h1
      · exact h1.trans (hq p hp)
    · exact List.pairwise_cons.mpr ⟨hq, hl'⟩
    · refine List.pairwise_cons.mpr ⟨?_, ih hl'⟩
      intro p hp
      rcases mem_alterList_key hp with hp | hp
      · rw [hp]; exact lt_of_le_of_ne (not_lt.mp h1) (Ne.symm h2)
      · exact hq p hp

lemma findList_eq_none_of_lt {k : K} {l : List (K × V)} (h : ∀ p ∈ l, k < p.1) :
    findList k l = none := by
  induction l with
  | nil => rfl
  | cons q l ih =>
    obtain ⟨k', v⟩ := q
    have hk : k ≠ k' := (h (k', v) (by simp)).ne
    simp only [findList, hk, if_false]
    exact ih (fun p hp => h p (List.mem_cons_of_mem _ hp))

lemma findList_alterList (k k₀ : K) (f : Option V → V) {l : List (K × V)}
    (hl : l.Pairwise (fun a b => a.1 < b.1)) :
    findList k (alterList k₀ f l) = if k = k₀ then some (f (findList k₀ l)) else findList k l := by
  induction l with
  | nil => simp [alterList, findList]
  | cons q l ih =>
    obtain ⟨k', v⟩ := q
    obtain ⟨hq, hl'⟩ := List.pairwise_cons.mp hl
    by_cases h1 : k₀ < k'
    · have hn : findList k₀ ((k', v) :: l) = none :=
        findList_eq_none_of_lt (by
          intro p hp
          rcases List.mem_cons.mp hp with rfl | hp
          · exact h1
          · exact h1.trans (hq p hp))
      rw [hn, alterList, if_pos h1, findList]
    · by_cases h2 : k₀ = k'
      · subst h2
        simp only [alterList, h1, if_false, if_true, findList]
        split_ifs <;> rfl
      · simp only [alterList, h1, h2, if_false, findList]
        rw [ih hl']
        by_cases h3 : k = k₀
        · subst h3; simp [h2]
        · simp [h3]

lemma mem_iff_findList {l : List (K × V)} (hl : l.Pairwise (fun a b => a.1 < b.1)) (k : K) (v : V) :
    (k, v) ∈ l ↔ findList k l = some v := by
  induction l with
  | nil => simp [findList]
  | cons q l ih =>
    obtain ⟨k', v'⟩ := q
    obtain ⟨hq, hl'⟩ := List.pairwise_cons.mp hl
    by_cases hk : k = k'
    · subst hk
      have hnot : (k, v) ∉ l := fun h => lt_irrefl k (hq (k, v) h)
      simp [findList, hnot, eq_comm]
    · simp [findList, hk, ih hl']

lemma eq_of_findList_eq {l l' : List (K × V)} (hl : l.Pairwise (fun a b => a.1 < b.1))
    (hl' : l'.Pairwise (fun a b => a.1 < b.1)) (h : ∀ k, findList k l = findList k l') : l = l' := by
  have hnd {m : List (K × V)} (hm : m.Pairwise (fun a b => a.1 < b.1)) : m.Nodup :=
    hm.imp (fun {a b} hab he => by subst he; exact lt_irrefl _ hab)
  refine List.Perm.eq_of_pairwise ?_ hl hl' ?_
  · intro a b _ _ hab hba
    exact absurd (lt_trans hab hba) (lt_irrefl _)
  · rw [List.perm_ext_iff_of_nodup (hnd hl) (hnd hl')]
    intro p
    rw [mem_iff_findList hl, mem_iff_findList hl', h]

end Lists

variable {K V W : Type} [LinearOrder K]

def empty : OrdMap K V := ⟨[], List.Pairwise.nil⟩

instance : EmptyCollection (OrdMap K V) := ⟨empty⟩

instance : Inhabited (OrdMap K V) := ⟨empty⟩

instance [DecidableEq V] : DecidableEq (OrdMap K V) := fun m m' =>
  decidable_of_iff (m.entries = m'.entries) ⟨fun h => by cases m; cases m'; congr, fun h => h ▸ rfl⟩

def find? (m : OrdMap K V) (k : K) : Option V := findList k m.entries

def contains (m : OrdMap K V) (k : K) : Bool := (m.find? k).isSome

/-- Rewrites the value stored at `k`; the function sees `none` when the key is new. -/
def alter (m : OrdMap K V) (k : K) (f : Option V → V) : OrdMap K V :=
  ⟨alterList k f m.entries, alterList_sorted k f m.sorted⟩

def insert (m : OrdMap K V) (k : K) (v : V) : OrdMap K V := m.alter k (fun _ => v)

/-- Stores a value unless the key is there already. -/
def emplace (m : OrdMap K V) (k : K) (v : V) : OrdMap K V := m.alter k (fun o => o.getD v)

def erase (m : OrdMap K V) (k : K) : OrdMap K V := ⟨m.entries.filter (fun p => p.1 ≠ k), m.sorted.filter _⟩

def filter (m : OrdMap K V) (p : K → V → Bool) : OrdMap K V := ⟨m.entries.filter (fun e => p e.1 e.2), m.sorted.filter _⟩

def map (m : OrdMap K V) (f : V → W) : OrdMap K W :=
  ⟨m.entries.map (fun e => (e.1, f e.2)), List.pairwise_map.mpr m.sorted⟩

def keys (m : OrdMap K V) : List K := m.entries.map Prod.fst

def values (m : OrdMap K V) : List V := m.entries.map Prod.snd

lemma keys_sorted (m : OrdMap K V) : m.keys.Pairwise (· < ·) := by
  rw [keys, List.pairwise_map]
  exact m.sorted

/-- Rewrites every value with a fallible function, in key order. -/
def mapEntriesM {ε : Type} (f : K → V → Except ε W) : List (K × V) → Except ε (List (K × W))
  | [] => .ok []
  | (k, v) :: l =>
    match f k v with
    | .error e => .error e
    | .ok w =>
      match mapEntriesM f l with
      | .error e => .error e
      | .ok l' => .ok ((k, w) :: l')

omit [LinearOrder K] in
/-- Each entry is rewritten in place: the keys stay, the values are the results. -/
lemma mapEntriesM_ok {ε : Type} {f : K → V → Except ε W} {l : List (K × V)} {l' : List (K × W)} :
    mapEntriesM f l = .ok l' ↔ List.Forall₂ (fun p q => q.1 = p.1 ∧ f p.1 p.2 = .ok q.2) l l' := by
  induction l generalizing l' with
  | nil =>
    constructor
    · intro h; cases h; exact .nil
    · intro h; cases h; rfl
  | cons p l ih =>
    obtain ⟨k, v⟩ := p
    simp only [mapEntriesM]
    constructor
    · intro h
      split at h
      · cases h
      · rename_i w hw
        split at h
        · cases h
        · rename_i l₀ hl
          cases h
          exact .cons ⟨rfl, hw⟩ (ih.mp hl)
    · intro h
      cases h with
      | @cons _ q _ l₀ hq hl =>
        obtain ⟨k', w⟩ := q
        obtain ⟨rfl, hw⟩ := hq
        simp only at hw
        rw [hw, ih.mpr hl]

omit [LinearOrder K] in
lemma keys_mapEntriesM {ε : Type} {f : K → V → Except ε W} {l : List (K × V)} {l' : List (K × W)}
    (h : mapEntriesM f l = .ok l') : l'.map Prod.fst = l.map Prod.fst := by
  have hf := mapEntriesM_ok.mp h
  clear h
  induction hf with
  | nil => rfl
  | cons hpq _ ih => rw [List.map_cons, List.map_cons, ih, hpq.1]

/-- `mapEntriesM` on a map. -/
def mapValsM {ε : Type} (m : OrdMap K V) (f : K → V → Except ε W) : Except ε (OrdMap K W) :=
  match h : mapEntriesM f m.entries with
  | .error e => .error e
  | .ok l => .ok ⟨l, by
      have hs := m.keys_sorted
      rw [keys, ← keys_mapEntriesM h, List.pairwise_map] at hs
      exact hs⟩

lemma mapValsM_ok {ε : Type} {m : OrdMap K V} {f : K → V → Except ε W} {m' : OrdMap K W}
    (h : m.mapValsM f = .ok m') :
    List.Forall₂ (fun p q => q.1 = p.1 ∧ f p.1 p.2 = .ok q.2) m.entries m'.entries := by
  unfold mapValsM at h
  split at h
  · cases h
  · rename_i l hl
    cases h
    exact mapEntriesM_ok.mp hl

lemma find?_empty (k : K) : (∅ : OrdMap K V).find? k = none := rfl

lemma find?_alter (m : OrdMap K V) (k k₀ : K) (f : Option V → V) :
    (m.alter k₀ f).find? k = if k = k₀ then some (f (m.find? k₀)) else m.find? k :=
  findList_alterList k k₀ f m.sorted

lemma find?_insert (m : OrdMap K V) (k k₀ : K) (v : V) :
    (m.insert k₀ v).find? k = if k = k₀ then some v else m.find? k :=
  find?_alter m k k₀ _

lemma find?_emplace (m : OrdMap K V) (k k₀ : K) (v : V) :
    (m.emplace k₀ v).find? k = if k = k₀ then some ((m.find? k₀).getD v) else m.find? k :=
  find?_alter m k k₀ _

lemma findList_filter_ne {k k₀ : K} (h : k ≠ k₀) (l : List (K × V)) :
    findList k (l.filter (fun p => p.1 ≠ k₀)) = findList k l := by
  induction l with
  | nil => rfl
  | cons p l ih =>
    rw [List.filter_cons]
    by_cases hp : p.1 = k₀
    · have hk : ¬k = p.1 := fun he => h (he.trans hp)
      rw [if_neg (by simpa using hp), ih, findList, if_neg hk]
    · rw [if_pos (by simpa using hp), findList, findList, ih]

lemma find?_erase_of_ne (m : OrdMap K V) {k k₀ : K} (h : k ≠ k₀) : (m.erase k₀).find? k = m.find? k :=
  findList_filter_ne h m.entries

lemma mem_entries (m : OrdMap K V) (k : K) (v : V) : (k, v) ∈ m.entries ↔ m.find? k = some v :=
  mem_iff_findList m.sorted k v

lemma mem_keys (m : OrdMap K V) (k : K) : k ∈ m.keys ↔ (m.find? k).isSome := by
  simp only [keys, List.mem_map, Prod.exists, exists_and_right, exists_eq_right, mem_entries,
    Option.isSome_iff_exists]

lemma keys_nodup (m : OrdMap K V) : m.keys.Nodup := m.keys_sorted.imp ne_of_lt

lemma mem_values (m : OrdMap K V) (v : V) : v ∈ m.values ↔ ∃ k, m.find? k = some v := by
  simp only [values, List.mem_map, Prod.exists, exists_eq_right, mem_entries]

lemma find?_filter_eq_some_iff (m : OrdMap K V) (p : K → V → Bool) (k : K) (v : V) :
    (m.filter p).find? k = some v ↔ m.find? k = some v ∧ p k v = true := by
  rw [← mem_entries, ← mem_entries]
  exact List.mem_filter

lemma values_map (m : OrdMap K V) (f : V → W) : (m.map f).values = m.values.map f := by
  simp only [values, map, List.map_map, Function.comp_def]

lemma find?_map (m : OrdMap K V) (f : V → W) (k : K) : (m.map f).find? k = (m.find? k).map f := by
  obtain ⟨entries, sorted⟩ := m
  change findList k (entries.map (fun e => (e.1, f e.2))) = (findList k entries).map f
  clear sorted
  induction entries with
  | nil => rfl
  | cons e entries ih =>
    obtain ⟨k', v⟩ := e
    rw [List.map_cons, findList, findList, ih]
    split_ifs <;> rfl

lemma ext_find {m m' : OrdMap K V} (h : ∀ k, m.find? k = m'.find? k) : m = m' := by
  have he : m.entries = m'.entries := eq_of_findList_eq m.sorted m'.sorted h
  cases m; cases m'; congr

/-- Lookups after all entries of another map were inserted. -/
lemma find?_foldl_insert (h : V → W) (l : List (K × V)) (hl : l.Pairwise (fun a b => a.1 < b.1)) (m : OrdMap K W)
    (k : K) :
    (l.foldl (fun m p => m.insert p.1 (h p.2)) m).find? k = ((findList k l).map h).or (m.find? k) := by
  induction l generalizing m with
  | nil => rfl
  | cons q l ih =>
    obtain ⟨k', v⟩ := q
    obtain ⟨hq, hl'⟩ := List.pairwise_cons.mp hl
    rw [List.foldl_cons, ih hl', find?_insert, findList]
    by_cases hk : k = k'
    · subst hk
      rw [findList_eq_none_of_lt (fun p hp => hq p hp)]
      simp
    · simp [hk]

/-- Emplacing the entries of a map into an empty one rebuilds it. -/
lemma foldl_emplace_entries (m : OrdMap K V) :
    m.entries.foldl (fun r p => r.emplace p.1 p.2) (∅ : OrdMap K V) = m := by
  have hgen : ∀ (l : List (K × V)) (r : OrdMap K V) (k : K),
      (l.foldl (fun r p => r.emplace p.1 p.2) r).find? k = (r.find? k).or (findList k l) := by
    intro l
    induction l with
    | nil => intro r k; simp [findList]
    | cons q l ih =>
      intro r k
      rw [List.foldl_cons, ih, find?_emplace, findList]
      by_cases hk : k = q.1
      · subst hk
        cases r.find? q.1 <;> simp
      · simp [hk]
  apply ext_find
  intro k
  rw [hgen, find?_empty]
  rfl

/-! ### Greatest values -/

section
variable [LinearOrder V]

/-- Stores a value, or keeps the greater one already there. -/
def updateMax (m : OrdMap K V) (k : K) (v : V) : OrdMap K V :=
  match m.find? k with
  | none => m.insert k v
  | some old => m.insert k (max old v)

/-- The value at `k` is at least `x`. -/
def Reaches (m : OrdMap K V) (k : K) (x : V) : Prop := ∃ v, m.find? k = some v ∧ x ≤ v

lemma reaches_updateMax (m : OrdMap K V) (k k' : K) (v x : V) :
    (m.updateMax k v).Reaches k' x ↔ m.Reaches k' x ∨ (k = k' ∧ x ≤ v) := by
  by_cases hk : k' = k
  · subst hk
    cases hf : m.find? k' with
    | none => simp [Reaches, updateMax, hf, find?_insert]
    | some old => simp [Reaches, updateMax, hf, find?_insert]
  · cases hf : m.find? k with
    | none => simp [Reaches, updateMax, hf, find?_insert, hk, Ne.symm hk]
    | some old => simp [Reaches, updateMax, hf, find?_insert, hk, Ne.symm hk]

lemma reaches_foldl_updateMax {E : Type} (f : E → K) (v : V) (l : List E) (m : OrdMap K V) (k : K) (x : V) :
    (l.foldl (fun m e => m.updateMax (f e) v) m).Reaches k x ↔ m.Reaches k x ∨ ∃ e ∈ l, f e = k ∧ x ≤ v := by
  induction l generalizing m with
  | nil => simp
  | cons e l ih => simp [ih, reaches_updateMax, or_assoc]

end

end OrdMap

end IcebergCxx.Lib

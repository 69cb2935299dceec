import IcebergCxx.Lib.OrdMap

/-!
# Layered maps

A stack of tiers holds items and two kinds of marks; a mark reaches the items of its own tier
and of every tier below. When the tiers are the values of a map ordered by a level, what
reaches an item is decided by comparing levels, so that the map can be replaced by the
multisets of its contents, each located at its key.
-/

namespace IcebergCxx.Lib

/-! ### The contents of an association list, each with its key -/

section Locate

variable {K V X Y : Type}

/-- The contents of the values, each with the key of its value. -/
def locate (f : V → Multiset X) : List (K × V) → Multiset (K × X)
  | [] => 0
  | (k, v) :: l => (f v).map (Prod.mk k) + locate f l

lemma mem_locate {f : V → Multiset X} {l : List (K × V)} {k : K} {x : X} :
    (k, x) ∈ locate f l ↔ ∃ v, (k, v) ∈ l ∧ x ∈ f v := by
  induction l with
  | nil => simp [locate]
  | cons p l ih =>
    obtain ⟨k', v⟩ := p
    simp only [locate, Multiset.mem_add, Multiset.mem_map, Prod.mk.injEq, ih, List.mem_cons]
    constructor
    · rintro (⟨x', hx, rfl, rfl⟩ | ⟨w, hw, hx⟩)
      · exact ⟨v, .inl ⟨rfl, rfl⟩, hx⟩
      · exact ⟨w, .inr hw, hx⟩
    · rintro ⟨w, ⟨rfl, rfl⟩ | hw, hx⟩
      · exact .inl ⟨x, hx, rfl, rfl⟩
      · exact .inr ⟨w, hw, hx⟩

/-- Contents located at one key, when the keys are distinct. -/
lemma filter_locate [DecidableEq K] (f : V → Multiset X) {l : List (K × V)} (hl : (l.map Prod.fst).Nodup)
    {k : K} {v : V} (h : (k, v) ∈ l) :
    (locate f l).filter (fun p => p.1 = k) = (f v).map (Prod.mk k) := by
  have hout : ∀ {l : List (K × V)}, k ∉ l.map Prod.fst → (locate f l).filter (fun p => p.1 = k) = 0 := by
    intro l hk
    rw [Multiset.filter_eq_nil]
    rintro ⟨k', x⟩ hx rfl
    obtain ⟨w, hw, -⟩ := mem_locate.mp hx
    exact hk (List.mem_map.mpr ⟨_, hw, rfl⟩)
  have hself : ∀ w : V, ((f w).map (Prod.mk k)).filter (fun p => p.1 = k) = (f w).map (Prod.mk k) := by
    intro w
    rw [Multiset.filter_eq_self]
    intro p hp
    obtain ⟨x, -, rfl⟩ := Multiset.mem_map.mp hp
    rfl
  induction l with
  | nil => exact absurd h List.not_mem_nil
  | cons q l ih =>
    obtain ⟨k', w⟩ := q
    rw [List.map_cons, List.nodup_cons] at hl
    rw [locate, Multiset.filter_add]
    rcases List.mem_cons.mp h with he | h
    · cases he
      rw [hself, hout hl.1, add_zero]
    · have hne : k' ≠ k := by
        rintro rfl
        exact hl.1 (List.mem_map.mpr ⟨_, h, rfl⟩)
      have hzero : ((f w).map (Prod.mk k')).filter (fun p => p.1 = k) = 0 := by
        rw [Multiset.filter_eq_nil]
        intro p hp he
        obtain ⟨x, -, rfl⟩ := Multiset.mem_map.mp hp
        exact hne he
      rw [hzero, zero_add, ih hl.2 h]

variable [LinearOrder K]

lemma locate_alterList (f : V → Multiset X) (k : K) (g : Option V → V) {l : List (K × V)}
    (hl : l.Pairwise (fun a b => a.1 < b.1)) :
    locate f (OrdMap.alterList k g l) + ((OrdMap.findList k l).elim 0 f).map (Prod.mk k) =
      locate f l + (f (g (OrdMap.findList k l))).map (Prod.mk k) := by
  induction l with
  | nil => simp [OrdMap.alterList, OrdMap.findList, locate]
  | cons q l ih =>
    obtain ⟨k', v⟩ := q
    obtain ⟨hq, hl'⟩ := List.pairwise_cons.mp hl
    by_cases h1 : k < k'
    · have hn : OrdMap.findList k ((k', v) :: l) = none :=
        OrdMap.findList_eq_none_of_lt (by
          intro p hp
          rcases List.mem_cons.mp hp with rfl | hp
          · exact h1
          · exact h1.trans (hq p hp))
      rw [hn, OrdMap.alterList, if_pos h1]
      simp only [locate, Option.elim_none, Multiset.map_zero, add_zero]
      rw [add_comm]
    · by_cases h2 : k = k'
      · subst h2
        simp only [OrdMap.alterList, h1, if_false, if_true, OrdMap.findList, locate, Option.elim_some]
        abel
      · simp only [OrdMap.alterList, h1, h2, if_false, OrdMap.findList, locate]
        rw [add_assoc, ih hl', add_assoc]

/-- An update that adds contents adds them at its key. -/
lemma locate_alter (f : V → Multiset X) (m : OrdMap K V) (k : K) (g : Option V → V) (x : Multiset X)
    (h : f (g (m.find? k)) = (m.find? k).elim 0 f + x) :
    locate f (m.alter k g).entries = locate f m.entries + x.map (Prod.mk k) := by
  have ha := locate_alterList f k g m.sorted
  change locate f (m.alter k g).entries + ((m.find? k).elim 0 f).map (Prod.mk k) =
    locate f m.entries + (f (g (m.find? k))).map (Prod.mk k) at ha
  rw [h, Multiset.map_add, ← add_assoc, add_right_comm] at ha
  exact add_right_cancel ha

end Locate

/-- Matchings of multisets compose. -/
lemma rel_comp {A B C : Type} {r : A → B → Prop} {p : B → C → Prop} {q : A → C → Prop}
    (h : ∀ a b c, r a b → p b c → q a c) {s : Multiset A} {t : Multiset B} {u : Multiset C}
    (hst : Multiset.Rel r s t) (htu : Multiset.Rel p t u) : Multiset.Rel q s u := by
  induction hst generalizing u with
  | zero =>
    rw [Multiset.rel_zero_left.mp htu]
    exact .zero
  | @cons a b s t hab _ ih =>
    obtain ⟨c, u', hbc, htu', rfl⟩ := Multiset.rel_cons_left.mp htu
    exact .cons (h a b c hab hbc) (ih htu')

/-- Two disjoint selections from a list together. -/
lemma coe_filter_add_filter {A : Type} {p q : A → Bool} (h : ∀ a, p a = true → q a = false) (l : List A) :
    (l.filter p : Multiset A) + (l.filter q : Multiset A) = (l.filter (fun a => p a || q a) : List A) := by
  induction l with
  | nil => rfl
  | cons a l ih =>
    by_cases hp : p a = true
    · have hq := h a hp
      rw [List.filter_cons_of_pos hp, List.filter_cons_of_neg (by simp [hq]), List.filter_cons_of_pos (by simp [hp]),
        ← Multiset.cons_coe, ← Multiset.cons_coe, ← ih, Multiset.cons_add]
    · rw [List.filter_cons_of_neg hp]
      by_cases hq : q a = true
      · rw [List.filter_cons_of_pos hq, List.filter_cons_of_pos (by simp [hq]), ← Multiset.cons_coe,
          ← Multiset.cons_coe, ← ih, Multiset.add_cons]
      · rw [List.filter_cons_of_neg hq, List.filter_cons_of_neg (by simp [hp, hq]), ih]

/-! ### Stacks of tiers -/

/-- A tier of items `D` with marks `P` and `E`. -/
structure Tier (D P E : Type) where
  data : Multiset D
  first : Multiset P
  second : Multiset E

/-- An item with the marks that reach it. -/
structure Reach (D P E : Type) where
  item : D
  first : Multiset P
  second : Multiset E

section Tiers

variable {D P E : Type}

def firsts : List (Tier D P E) → Multiset P
  | [] => 0
  | t :: ts => t.first + firsts ts

def seconds : List (Tier D P E) → Multiset E
  | [] => 0
  | t :: ts => t.second + seconds ts

def items : List (Tier D P E) → Multiset D
  | [] => 0
  | t :: ts => t.data + items ts

/-- Every item of a stack with the marks of its tier and of the tiers after it. -/
def reach : List (Tier D P E) → Multiset (Reach D P E)
  | [] => 0
  | t :: ts => t.data.map (fun d => ⟨d, firsts (t :: ts), seconds (t :: ts)⟩) + reach ts

/-- More marks for an item. -/
def Reach.extend (p : Multiset P) (e : Multiset E) (r : Reach D P E) : Reach D P E :=
  ⟨r.item, r.first + p, r.second + e⟩

lemma Reach.extend_comp (p p' : Multiset P) (e e' : Multiset E) :
    (Reach.extend p' e' ∘ Reach.extend p e : Reach D P E → Reach D P E) = Reach.extend (p + p') (e + e') := by
  funext r
  simp [Reach.extend, add_assoc]

lemma firsts_append (a b : List (Tier D P E)) : firsts (a ++ b) = firsts a + firsts b := by
  induction a with
  | nil => simp [firsts]
  | cons t a ih => simp [firsts, ih, add_assoc]

lemma seconds_append (a b : List (Tier D P E)) : seconds (a ++ b) = seconds a + seconds b := by
  induction a with
  | nil => simp [seconds]
  | cons t a ih => simp [seconds, ih, add_assoc]

@[simp] lemma Reach.extend_zero : (Reach.extend 0 0 : Reach D P E → Reach D P E) = id := by
  funext r
  simp [Reach.extend]

/-- The marks of later tiers reach every earlier item. -/
lemma reach_append (a b : List (Tier D P E)) :
    reach (a ++ b) = (reach a).map (Reach.extend (firsts b) (seconds b)) + reach b := by
  induction a with
  | nil => simp [reach]
  | cons t a ih =>
    rw [List.cons_append, reach, ih, reach, Multiset.map_add, Multiset.map_map, ← List.cons_append,
      firsts_append, seconds_append, add_assoc]
    rfl

lemma items_eq_map_reach (ts : List (Tier D P E)) : items ts = (reach ts).map Reach.item := by
  induction ts with
  | nil => rfl
  | cons t ts ih => simp [items, reach, ih]

variable {K : Type} [LinearOrder K]

omit [LinearOrder K] in
lemma firsts_eq_locate (l : List (K × Tier D P E)) :
    firsts (l.map Prod.snd) = (locate Tier.first l).map Prod.snd := by
  induction l with
  | nil => rfl
  | cons p l ih =>
    rw [locate, Multiset.map_add, Multiset.map_map, ← ih]
    exact congrArg (· + _) (Multiset.map_id _).symm

omit [LinearOrder K] in
lemma seconds_eq_locate (l : List (K × Tier D P E)) :
    seconds (l.map Prod.snd) = (locate Tier.second l).map Prod.snd := by
  induction l with
  | nil => rfl
  | cons p l ih =>
    rw [locate, Multiset.map_add, Multiset.map_map, ← ih]
    exact congrArg (· + _) (Multiset.map_id _).symm

/-- Above every level of the list there is nothing to filter out. -/
lemma filter_locate_of_le {V X : Type} (f : V → Multiset X) {k : K} {l : List (K × V)} (h : ∀ p ∈ l, k ≤ p.1) :
    (locate f l).filter (fun q => k ≤ q.1) = locate f l := by
  rw [Multiset.filter_eq_self]
  rintro ⟨k', x⟩ hx
  obtain ⟨v, hv, -⟩ := mem_locate.mp hx
  exact h _ hv

lemma filter_locate_cons_of_lt {V X : Type} (f : V → Multiset X) {k k' : K} (h : k < k') (v : V) (l : List (K × V)) :
    (locate f ((k, v) :: l)).filter (fun q => k' ≤ q.1) = (locate f l).filter (fun q => k' ≤ q.1) := by
  have hzero : ((f v).map (Prod.mk k)).filter (fun q => k' ≤ q.1) = 0 := by
    rw [Multiset.filter_eq_nil]
    intro q hq hle
    obtain ⟨x, -, rfl⟩ := Multiset.mem_map.mp hq
    exact absurd hle (not_le.mpr h)
  rw [locate, Multiset.filter_add, hzero, zero_add]

/-- The marks that reach an item are those located at its level or above. -/
lemma reach_sorted {l : List (K × Tier D P E)} (hl : l.Pairwise (fun a b => a.1 < b.1)) :
    reach (l.map Prod.snd) = (locate Tier.data l).map (fun p =>
      ⟨p.2, ((locate Tier.first l).filter (fun q => p.1 ≤ q.1)).map Prod.snd,
        ((locate Tier.second l).filter (fun q => p.1 ≤ q.1)).map Prod.snd⟩) := by
  induction l with
  | nil => rfl
  | cons p l ih =>
    obtain ⟨k, t⟩ := p
    obtain ⟨hk, hl'⟩ := List.pairwise_cons.mp hl
    have hge : ∀ p ∈ (k, t) :: l, k ≤ p.1 := by
      intro p hp
      rcases List.mem_cons.mp hp with rfl | hp
      · exact le_rfl
      · exact (hk p hp).le
    have hdata : locate Tier.data ((k, t) :: l) = t.data.map (Prod.mk k) + locate Tier.data l := rfl
    rw [hdata, Multiset.map_add, Multiset.map_map, List.map_cons, reach, ih hl', ← List.map_cons (f := Prod.snd)
      (a := (k, t)), firsts_eq_locate, seconds_eq_locate]
    congr 1
    · refine Multiset.map_congr rfl (fun d _ => ?_)
      simp only [Function.comp_apply]
      rw [filter_locate_of_le _ hge, filter_locate_of_le _ hge]
    · refine Multiset.map_congr rfl (fun q hq => ?_)
      obtain ⟨k', d⟩ := q
      obtain ⟨v, hv, -⟩ := mem_locate.mp hq
      rw [filter_locate_cons_of_lt _ (hk _ hv), filter_locate_cons_of_lt _ (hk _ hv)]

end Tiers

end IcebergCxx.Lib

import IcebergCxx.Lib.OrdMap

/-!
# Runs over rearranged lists

Two fallible computations agree up to a relation when both fail, or both succeed with related
results. A loop whose steps respect the relation, and commute up to it, agrees with itself on every
rearrangement of its list. Ordered maps with related values are treated alike by the operations on
them.
-/

namespace IcebergCxx.Lib

variable {ε α β γ δ σ τ : Type}

/-! ### Agreement of fallible computations -/

/-- Both fail, or both succeed with related results; the errors may differ. -/
inductive Agree (R : α → β → Prop) : Except ε α → Except ε β → Prop
  | error (e e' : ε) : Agree R (.error e) (.error e')
  | ok {a : α} {b : β} (h : R a b) : Agree R (.ok a) (.ok b)

namespace Agree

variable {R : α → β → Prop} {S : γ → δ → Prop}

lemma refl {R : α → α → Prop} (h : ∀ a, R a a) (x : Except ε α) : Agree R x x := by
  cases x with
  | error e => exact .error e e
  | ok a => exact .ok (h a)

lemma imp {R' : α → β → Prop} (h : ∀ a b, R a b → R' a b) {x : Except ε α} {y : Except ε β} (hxy : Agree R x y) :
    Agree R' x y := by
  cases hxy with
  | error e e' => exact .error e e'
  | ok hab => exact .ok (h _ _ hab)

lemma trans {R : α → β → Prop} {S : β → γ → Prop} {T : α → γ → Prop} (h : ∀ a b c, R a b → S b c → T a c)
    {x : Except ε α} {y : Except ε β} {z : Except ε γ} (hxy : Agree R x y) (hyz : Agree S y z) : Agree T x z := by
  cases hxy with
  | error e e' =>
    cases hyz with
    | error => exact .error _ _
  | ok hab =>
    cases hyz with
    | ok hbc => exact .ok (h _ _ _ hab hbc)

lemma symm {R : α → α → Prop} (h : ∀ a b, R a b → R b a) {x y : Except ε α} (hxy : Agree R x y) : Agree R y x := by
  cases hxy with
  | error e e' => exact .error e' e
  | ok hab => exact .ok (h _ _ hab)

/-- Agreeing computations continued by agreeing ones. -/
lemma bind {x : Except ε α} {y : Except ε β} (hxy : Agree R x y) {f : α → Except ε γ} {g : β → Except ε δ}
    (hfg : ∀ a b, R a b → Agree S (f a) (g b)) : Agree S (x >>= f) (y >>= g) := by
  cases hxy with
  | error e e' => exact .error e e'
  | ok hab => exact hfg _ _ hab

/-- Two independent computations, run in either order. -/
lemma bind_swap {x : Except ε α} {y : Except ε β} {f g : α → β → Except ε γ} {T : γ → γ → Prop}
    (hfg : ∀ a b, x = .ok a → y = .ok b → Agree T (f a b) (g a b)) :
    Agree T (x >>= fun a => y >>= fun b => f a b) (y >>= fun b => x >>= fun a => g a b) := by
  cases x with
  | error e =>
    cases y with
    | error e' => exact .error _ _
    | ok b => exact .error _ _
  | ok a =>
    cases y with
    | error e' => exact .error _ _
    | ok b => exact hfg a b rfl rfl

/-- Agreement up to equality of the results. -/
lemma of_eq {x y : Except ε α} (h : x = y) : Agree Eq x y := by
  subst h
  exact refl (fun _ => rfl) x

end Agree

/-! ### Loops -/

/-- One loop over related lists. -/
lemma foldlM_agree {R : σ → τ → Prop} {S : α → β → Prop} {f : σ → α → Except ε σ} {g : τ → β → Except ε τ}
    (hfg : ∀ s t a b, R s t → S a b → Agree R (f s a) (g t b)) {l : List α} {l' : List β} (hl : List.Forall₂ S l l')
    {s : σ} {t : τ} (hst : R s t) : Agree R (l.foldlM f s) (l'.foldlM g t) := by
  induction hl generalizing s t with
  | nil => exact .ok hst
  | cons hab _ ih =>
    rw [List.foldlM_cons, List.foldlM_cons]
    apply (hfg _ _ _ _ hst hab).bind
    intro s' t' hst'
    exact ih hst'

lemma foldl_related {R : σ → τ → Prop} {S : α → β → Prop} {f : σ → α → σ} {g : τ → β → τ}
    (hfg : ∀ s t a b, R s t → S a b → R (f s a) (g t b)) {l : List α} {l' : List β} (hl : List.Forall₂ S l l')
    {s : σ} {t : τ} (hst : R s t) : R (l.foldl f s) (l'.foldl g t) := by
  induction hl generalizing s t with
  | nil => exact hst
  | cons hab _ ih => exact ih (hfg _ _ _ _ hst hab)

section Perm

variable {R : σ → σ → Prop} {f : σ → α → Except ε σ} {C : α → α → Prop}

/-- The rearrangement rule: steps that respect an equivalence, and commute up to it wherever `C`
holds of two elements, give agreeing loops. -/
lemma foldlM_perm (hR : Equivalence R) (hf : ∀ s t a, R s t → Agree R (f s a) (f t a))
    (hC : ∀ a b, C a b → C b a) (hcomm : ∀ s a b, C a b → Agree R (f s a >>= (f · b)) (f s b >>= (f · a)))
    {l l' : List α} (hl : l.Perm l') (hpair : l.Pairwise C) {s t : σ} (hst : R s t) :
    Agree R (l.foldlM f s) (l'.foldlM f t) := by
  have hsame : ∀ (m : List α) {s t : σ}, R s t → Agree R (m.foldlM f s) (m.foldlM f t) := by
    intro m s t hst
    apply foldlM_agree (S := Eq) _ (List.forall₂_same.mpr (fun _ _ => rfl)) hst
    rintro s t a _ hst rfl
    exact hf s t a hst
  have htrans : ∀ a b c, R a b → R b c → R a c := fun _ _ _ => hR.trans
  induction hl generalizing s t with
  | nil => exact .ok hst
  | cons a _ ih =>
    rw [List.foldlM_cons, List.foldlM_cons]
    apply (hf s t a hst).bind
    intro s' t' hst'
    exact ih (List.pairwise_cons.mp hpair).2 hst'
  | swap a b m =>
    have hba : C b a := (List.pairwise_cons.mp hpair).1 a List.mem_cons_self
    have hswap : Agree R (f s b >>= (f · a)) (f t a >>= (f · b)) := by
      apply (hcomm s b a hba).trans htrans
      apply (hf s t a hst).bind
      exact fun s' t' hst' => hf s' t' b hst'
    rw [List.foldlM_cons, List.foldlM_cons]
    simp only [List.foldlM_cons]
    rw [← bind_assoc, ← bind_assoc]
    exact hswap.bind (fun s' t' hst' => hsame m hst')
  | trans h₁ _ ih₁ ih₂ =>
    have hpair' := (h₁.pairwise_iff (fun {a b} => hC a b)).mp hpair
    exact (ih₁ hpair hst).trans htrans (ih₂ hpair' (hR.refl t))

/-- The rearrangement rule for steps that do not fail. -/
lemma foldl_perm {g : σ → α → σ} (hR : Equivalence R) (hg : ∀ s t a, R s t → R (g s a) (g t a))
    (hC : ∀ a b, C a b → C b a) (hcomm : ∀ s a b, C a b → R (g (g s a) b) (g (g s b) a))
    {l l' : List α} (hl : l.Perm l') (hpair : l.Pairwise C) (s : σ) : R (l.foldl g s) (l'.foldl g s) := by
  have hpure : ∀ (m : List α) (s : σ),
      m.foldlM (fun s a => (Except.ok (g s a) : Except Unit σ)) s = .ok (m.foldl g s) := by
    intro m
    induction m with
    | nil => exact fun s => rfl
    | cons a m ih => exact fun s => ih (g s a)
  have hagree := foldlM_perm (f := fun s a => (Except.ok (g s a) : Except Unit σ)) hR
    (fun s t a hst => .ok (hg s t a hst)) hC (fun s a b hab => .ok (hcomm s a b hab)) hl hpair (hR.refl s)
  rw [hpure, hpure] at hagree
  cases hagree with
  | ok h => exact h

end Perm

/-- A fallible pass over a rearranged list gives the rearranged results. -/
lemma mapM_perm {f : α → Except ε β} {l l' : List α} (hl : l.Perm l') :
    Agree List.Perm (l.mapM f) (l'.mapM f) := by
  induction hl with
  | nil => exact .ok .nil
  | cons a _ ih =>
    rw [List.mapM_cons, List.mapM_cons]
    apply (Agree.of_eq rfl).bind
    rintro b _ rfl
    exact ih.bind (fun bs bs' hbs => .ok (hbs.cons b))
  | swap a b m =>
    simp only [List.mapM_cons]
    cases f a with
    | error e =>
      cases f b with
      | error e' => exact .error _ _
      | ok y => exact .error _ _
    | ok x =>
      cases f b with
      | error e' => exact .error _ _
      | ok y =>
        cases m.mapM f with
        | error e => exact .error _ _
        | ok ys => exact .ok (.swap x y ys)
  | trans _ _ ih₁ ih₂ => exact ih₁.trans (fun _ _ _ h h' => h.trans h') ih₂

/-- A fallible pass over related lists. -/
lemma mapM_agree {R : α → β → Prop} {S : γ → δ → Prop} {f : α → Except ε γ} {g : β → Except ε δ}
    {l : List α} {l' : List β} (hl : List.Forall₂ R l l')
    (hfg : ∀ a ∈ l, ∀ b, R a b → Agree S (f a) (g b)) : Agree (List.Forall₂ S) (l.mapM f) (l'.mapM g) := by
  induction hl with
  | nil => exact .ok .nil
  | cons hab _ ih =>
    rw [List.mapM_cons, List.mapM_cons]
    apply (hfg _ List.mem_cons_self _ hab).bind
    intro c d hcd
    apply (ih (fun a ha b hab => hfg a (List.mem_cons_of_mem _ ha) b hab)).bind
    intro cs ds hcds
    exact .ok (.cons hcd hcds)

/-- Two passes, and one pass that makes both steps on each element. -/
lemma mapM_mapM_agree (f : α → Except ε β) (g : β → Except ε γ) (l : List α) :
    Agree Eq (l.mapM (fun a => f a >>= g)) (l.mapM f >>= fun m => m.mapM g) := by
  induction l with
  | nil => exact .ok rfl
  | cons a l ih =>
    simp only [List.mapM_cons, bind_assoc, pure_bind]
    apply (Agree.of_eq rfl).bind
    rintro b _ rfl
    -- the tail of the first pass comes before the head of the second one
    have hhead : Agree Eq (g b >>= fun c => l.mapM (fun a => f a >>= g) >>= fun cs => .ok (c :: cs))
        (g b >>= fun c => (l.mapM f >>= fun m => m.mapM g) >>= fun cs => .ok (c :: cs)) := by
      apply (Agree.of_eq rfl).bind
      rintro c _ rfl
      apply ih.bind
      rintro cs _ rfl
      exact .ok rfl
    apply hhead.trans (S := Eq) (fun _ _ _ h h' => h.trans h')
    simp only [bind_assoc]
    apply Agree.bind_swap
    exact fun c m _ _ => .of_eq rfl

/-- A loop that makes each of its elements first, and a loop over the elements made before. -/
lemma foldlM_mapM_agree (f : α → Except ε β) (g : σ → β → Except ε σ) (l : List α) (s : σ) :
    Agree Eq (l.foldlM (fun s a => f a >>= g s) s) (l.mapM f >>= fun m => m.foldlM g s) := by
  induction l generalizing s with
  | nil => exact .ok rfl
  | cons a l ih =>
    simp only [List.foldlM_cons, List.mapM_cons, bind_assoc, pure_bind]
    apply (Agree.of_eq rfl).bind
    rintro b _ rfl
    have hhead : Agree Eq (g s b >>= fun s' => l.foldlM (fun s a => f a >>= g s) s')
        (g s b >>= fun s' => l.mapM f >>= fun m => m.foldlM g s') := by
      apply (Agree.of_eq rfl).bind
      rintro s' _ rfl
      exact ih s'
    apply hhead.trans (S := Eq) (fun _ _ _ h h' => h.trans h')
    apply Agree.bind_swap
    exact fun s' m _ _ => .of_eq rfl

/-! ### Lists of related elements -/

lemma forall₂_equivalence {R : α → α → Prop} (h : Equivalence R) : Equivalence (List.Forall₂ R) where
  refl l := List.forall₂_same.mpr (fun a _ => h.refl a)
  symm hl := hl.flip.imp (fun _ _ => h.symm)
  trans {l₁ l₂ l₃} h₁ h₂ := by
    induction h₁ generalizing l₃ with
    | nil => exact h₂
    | cons hab _ ih =>
      cases h₂ with
      | cons hbc h₂ => exact .cons (h.trans hab hbc) (ih h₂)

lemma modify_related {R : α → α → Prop} {f g : α → α} (hfg : ∀ a b, R a b → R (f a) (g b)) {l l' : List α}
    (hl : List.Forall₂ R l l') (n : Nat) : List.Forall₂ R (l.modify n f) (l'.modify n g) := by
  induction hl generalizing n with
  | nil =>
    rw [List.modify_nil, List.modify_nil]
    exact .nil
  | cons hab hl ih =>
    cases n with
    | zero =>
      rw [List.modify_zero_cons, List.modify_zero_cons]
      exact .cons (hfg _ _ hab) hl
    | succ n =>
      rw [List.modify_succ_cons, List.modify_succ_cons]
      exact .cons hab (ih n)

/-- Two changes of a list, in either order. -/
lemma modify_modify_related {R : α → α → Prop} (hR : ∀ a, R a a) {f g : α → α}
    (hfg : ∀ a, R (g (f a)) (f (g a))) (l : List α) (i j : Nat) :
    List.Forall₂ R ((l.modify i f).modify j g) ((l.modify j g).modify i f) := by
  by_cases hij : i = j
  · subst hij
    rw [List.modify_modify_eq, List.modify_modify_eq]
    induction l generalizing i with
    | nil =>
      rw [List.modify_nil, List.modify_nil]
      exact .nil
    | cons a l ih =>
      cases i with
      | zero =>
        rw [List.modify_zero_cons, List.modify_zero_cons]
        exact .cons (hfg a) (List.forall₂_same.mpr (fun b _ => hR b))
      | succ i =>
        rw [List.modify_succ_cons, List.modify_succ_cons]
        exact .cons (hR a) (ih i)
  · rw [List.modify_modify_ne _ _ _ hij]
    exact List.forall₂_same.mpr (fun b _ => hR b)

lemma forall₂_concat {R : α → β → Prop} {l : List α} {l' : List β} (h : List.Forall₂ R l l') :
    (l = [] ∧ l' = []) ∨
      ∃ m a m' b, l = m ++ [a] ∧ l' = m' ++ [b] ∧ List.Forall₂ R m m' ∧ R a b := by
  induction h with
  | nil => exact .inl ⟨rfl, rfl⟩
  | @cons a b l l' hab _ ih =>
    rcases ih with ⟨rfl, rfl⟩ | ⟨m, c, m', d, rfl, rfl, hm, hcd⟩
    · exact .inr ⟨[], a, [], b, rfl, rfl, .nil, hab⟩
    · exact .inr ⟨a :: m, c, b :: m', d, rfl, rfl, .cons hab hm, hcd⟩

lemma forall₂_getElem? {α β : Type} {R : α → β → Prop} {l : List α} {l' : List β} (h : List.Forall₂ R l l') {i : Nat}
    {a : α} (ha : l[i]? = some a) : ∃ b, l'[i]? = some b ∧ R a b := by
  induction h generalizing i with
  | nil => cases ha
  | cons hab _ ih =>
    cases i with
    | zero =>
      cases ha
      exact ⟨_, rfl, hab⟩
    | succ i => exact ih ha

lemma forall₂_append_left {α β : Type} {R : α → β → Prop} {l₁ l₂ : List α} {l : List β}
    (h : List.Forall₂ R (l₁ ++ l₂) l) :
    ∃ r₁ r₂, l = r₁ ++ r₂ ∧ List.Forall₂ R l₁ r₁ ∧ List.Forall₂ R l₂ r₂ := by
  induction l₁ generalizing l with
  | nil => exact ⟨[], l, rfl, .nil, h⟩
  | cons a l₁ ih =>
    cases h with
    | cons hab hrest =>
      obtain ⟨r₁, r₂, rfl, h₁, h₂⟩ := ih hrest
      exact ⟨_ :: r₁, r₂, rfl, .cons hab h₁, h₂⟩

lemma forall₂_flatten_left {α β : Type} {R : α → β → Prop} {ls : List (List α)} {l : List β}
    (h : List.Forall₂ R ls.flatten l) : ∃ rs, l = rs.flatten ∧ List.Forall₂ (List.Forall₂ R) ls rs := by
  induction ls generalizing l with
  | nil =>
    cases h
    exact ⟨[], rfl, .nil⟩
  | cons l₁ ls ih =>
    obtain ⟨r₁, r₂, rfl, h₁, h₂⟩ := forall₂_append_left h
    obtain ⟨rs, rfl, hrs⟩ := ih h₂
    exact ⟨r₁ :: rs, rfl, .cons h₁ hrs⟩

/-- A sort by an antisymmetric order forgets the order of the list. -/
lemma insertionSort_eq_of_perm {r : α → α → Prop} [DecidableRel r] [Std.Total r] [IsTrans α r]
    (hr : ∀ a b, r a b → r b a → a = b) {l l' : List α} (h : l.Perm l') : l.insertionSort r = l'.insertionSort r := by
  apply List.Perm.eq_of_pairwise (fun a b _ _ => hr a b) (List.pairwise_insertionSort r l)
    (List.pairwise_insertionSort r l')
  exact (List.perm_insertionSort r l).trans (h.trans (List.perm_insertionSort r l').symm)

/-! ### Maps with related values -/

namespace OrdMap

variable {K V W : Type} [LinearOrder K] {R : V → V → Prop}

/-- The same keys with related values. -/
def Rel (R : V → V → Prop) (m m' : OrdMap K V) : Prop :=
  List.Forall₂ (fun p q => p.1 = q.1 ∧ R p.2 q.2) m.entries m'.entries

lemma forall₂_of_findList {l l' : List (K × V)} (hl : l.Pairwise (fun a b => a.1 < b.1))
    (hl' : l'.Pairwise (fun a b => a.1 < b.1)) (h : ∀ k, Option.Rel R (findList k l) (findList k l')) :
    List.Forall₂ (fun p q => p.1 = q.1 ∧ R p.2 q.2) l l' := by
  induction l generalizing l' with
  | nil =>
    cases l' with
    | nil => exact .nil
    | cons q l' =>
      have hq := h q.1
      rw [findList, findList, if_pos rfl] at hq
      cases hq
  | cons p l ih =>
    obtain ⟨hp, hls⟩ := List.pairwise_cons.mp hl
    cases l' with
    | nil =>
      have hp' := h p.1
      rw [findList, findList, if_pos rfl] at hp'
      cases hp'
    | cons q l' =>
      obtain ⟨hq, hls'⟩ := List.pairwise_cons.mp hl'
      -- the least keys agree: the smaller one would be missing on the other side
      have hkey : p.1 = q.1 := by
        rcases lt_trichotomy p.1 q.1 with hlt | he | hlt
        · have hpk := h p.1
          rw [findList, if_pos rfl, findList, if_neg hlt.ne,
            findList_eq_none_of_lt (fun r hr => hlt.trans (hq r hr))] at hpk
          cases hpk
        · exact he
        · have hqk := h q.1
          rw [findList, if_neg hlt.ne, findList, if_pos rfl,
            findList_eq_none_of_lt (fun r hr => hlt.trans (hp r hr))] at hqk
          cases hqk
      have hval : R p.2 q.2 := by
        have hpk := h p.1
        rw [findList, if_pos rfl, findList, if_pos hkey] at hpk
        cases hpk with
        | some hr => exact hr
      apply List.Forall₂.cons ⟨hkey, hval⟩
      apply ih hls hls'
      intro k
      by_cases hk : k = p.1
      · rw [hk, findList_eq_none_of_lt hp, findList_eq_none_of_lt (fun r hr => hkey ▸ hq r hr)]
        exact .none
      · have hfind := h k
        rwa [findList, if_neg hk, findList, if_neg (fun he => hk (he.trans hkey.symm))] at hfind

lemma findList_related {l l' : List (K × V)} (h : List.Forall₂ (fun p q => p.1 = q.1 ∧ R p.2 q.2) l l') (k : K) :
    Option.Rel R (findList k l) (findList k l') := by
  induction h with
  | nil => exact .none
  | @cons p q l l' hpq _ ih =>
    obtain ⟨hkey, hval⟩ := hpq
    rw [findList, findList, ← hkey]
    by_cases hk : k = p.1
    · rw [if_pos hk, if_pos hk]
      exact .some hval
    · rw [if_neg hk, if_neg hk]
      exact ih

lemma rel_iff_find {m m' : OrdMap K V} : m.Rel R m' ↔ ∀ k, Option.Rel R (m.find? k) (m'.find? k) :=
  ⟨findList_related, forall₂_of_findList m.sorted m'.sorted⟩

omit [LinearOrder K] in
lemma mapEntriesM_cons (f : K → V → Except ε W) (p : K × V) (l : List (K × V)) :
    mapEntriesM f (p :: l) =
      (f p.1 p.2 >>= fun w => mapEntriesM f l >>= fun l' => .ok ((p.1, w) :: l')) := by
  rw [mapEntriesM]
  cases f p.1 p.2 with
  | error e => rfl
  | ok w => cases mapEntriesM f l <;> rfl

omit [LinearOrder K] in
lemma mapEntriesM_agree {S : W → W → Prop} {f g : K → V → Except ε W}
    (hfg : ∀ k v w, R v w → Agree S (f k v) (g k w)) {l l' : List (K × V)}
    (h : List.Forall₂ (fun p q => p.1 = q.1 ∧ R p.2 q.2) l l') :
    Agree (List.Forall₂ (fun p q => p.1 = q.1 ∧ S p.2 q.2)) (mapEntriesM f l) (mapEntriesM g l') := by
  induction h with
  | nil => exact .ok .nil
  | @cons p q l l' hpq _ ih =>
    obtain ⟨hkey, hval⟩ := hpq
    rw [mapEntriesM_cons, mapEntriesM_cons, ← hkey]
    apply (hfg p.1 p.2 q.2 hval).bind
    intro v w hvw
    apply ih.bind
    intro r r' hr
    exact .ok (.cons ⟨rfl, hvw⟩ hr)

namespace Rel

variable {m m' m'' : OrdMap K V}

lemma refl (h : ∀ v, R v v) (m : OrdMap K V) : m.Rel R m :=
  List.forall₂_same.mpr (fun p _ => ⟨rfl, h p.2⟩)

lemma symm (h : ∀ v w, R v w → R w v) (hm : m.Rel R m') : m'.Rel R m :=
  hm.flip.imp (fun _ _ hpq => ⟨hpq.1.symm, h _ _ hpq.2⟩)

lemma trans (h : ∀ u v w, R u v → R v w → R u w) (hm : m.Rel R m') (hm' : m'.Rel R m'') : m.Rel R m'' := by
  apply rel_iff_find.mpr
  intro k
  have h₁ := rel_iff_find.mp hm k
  have h₂ := rel_iff_find.mp hm' k
  revert h₁ h₂
  cases m.find? k <;> cases m'.find? k <;> cases m''.find? k <;> intro h₁ h₂ <;> cases h₁ <;> cases h₂
  · exact .none
  · rename_i h₁ h₂
    exact .some (h _ _ _ h₁ h₂)

lemma equivalence (h : Equivalence R) : Equivalence (Rel (K := K) R) :=
  ⟨refl h.refl, symm (fun _ _ => h.symm), trans (fun _ _ _ => h.trans)⟩

lemma values (hm : m.Rel R m') : List.Forall₂ R m.values m'.values := by
  unfold OrdMap.values
  rw [List.forall₂_map_left_iff, List.forall₂_map_right_iff]
  exact hm.imp (fun _ _ hpq => hpq.2)

lemma alter (hm : m.Rel R m') {f g : Option V → V} (hfg : ∀ a b, Option.Rel R a b → R (f a) (g b)) (k : K) :
    (m.alter k f).Rel R (m'.alter k g) := by
  apply rel_iff_find.mpr
  intro k'
  rw [find?_alter, find?_alter]
  by_cases hk : k' = k
  · rw [if_pos hk, if_pos hk]
    exact .some (hfg _ _ (rel_iff_find.mp hm k))
  · rw [if_neg hk, if_neg hk]
    exact rel_iff_find.mp hm k'

/-- A fallible rewrite of all values respects the relation when it does on every value. -/
lemma mapValsM {S : W → W → Prop} {f g : K → V → Except ε W} (hm : m.Rel R m')
    (hfg : ∀ k v w, R v w → Agree S (f k v) (g k w)) : Agree (Rel S) (m.mapValsM f) (m'.mapValsM g) := by
  have hlist := mapEntriesM_agree hfg hm
  unfold OrdMap.mapValsM
  split <;> split <;> rename_i h₁ _ h₂ <;> rw [h₁, h₂] at hlist <;> cases hlist
  · exact .error _ _
  · rename_i h
    exact .ok h

end Rel

/-- Two updates of a map, in either order. -/
lemma rel_alter_comm (hR : ∀ v, R v v) (m : OrdMap K V) {k k' : K} {f g : Option V → V}
    (h : k = k' → ∀ a, R (g (some (f a))) (f (some (g a)))) :
    ((m.alter k f).alter k' g).Rel R ((m.alter k' g).alter k f) := by
  apply rel_iff_find.mpr
  intro k₀
  simp only [find?_alter]
  by_cases hk : k = k'
  · subst hk
    by_cases hk₀ : k₀ = k
    · simp only [hk₀, if_true]
      exact .some (h rfl _)
    · simp only [hk₀, if_false]
      cases m.find? k₀ with
      | none => exact .none
      | some v => exact .some (hR v)
  · have hk' : ¬k' = k := fun he => hk he.symm
    simp only [hk, hk', if_false]
    by_cases h₁ : k₀ = k
    · subst h₁
      simp only [hk, if_true, if_false]
      exact .some (hR _)
    · simp only [h₁, if_false]
      split_ifs with h₂
      · exact .some (hR _)
      · cases m.find? k₀ with
        | none => exact .none
        | some v => exact .some (hR v)

/-- Inserts under a new key, or fails with `e`. -/
def insertNew (m : OrdMap K V) (k : K) (v : V) (e : ε) : Except ε (OrdMap K V) :=
  if m.contains k then .error e else .ok (m.insert k v)

lemma contains_insert (m : OrdMap K V) (k k' : K) (v : V) :
    (m.insert k v).contains k' = (decide (k' = k) || m.contains k') := by
  unfold contains
  rw [find?_insert]
  by_cases hk : k' = k
  · simp [hk]
  · simp [hk]

lemma insert_comm (m : OrdMap K V) {k k' : K} (hk : k ≠ k') (v v' : V) :
    (m.insert k v).insert k' v' = (m.insert k' v').insert k v := by
  apply ext_find
  intro k₀
  simp only [find?_insert]
  by_cases h₁ : k₀ = k
  · rw [if_neg (fun h₂ => hk (h₁.symm.trans h₂)), if_pos h₁, if_pos h₁]
  · rw [if_neg h₁, if_neg h₁]

/-- Two insertions of new keys, in either order. -/
lemma insertNew_comm (m : OrdMap K V) (k k' : K) (v v' : V) (e e' : ε) :
    Agree Eq (m.insertNew k v e >>= fun m₁ => m₁.insertNew k' v' e')
      (m.insertNew k' v' e' >>= fun m₁ => m₁.insertNew k v e) := by
  by_cases hk : k = k'
  · subst hk
    have hfails : ∀ w w' (d d' : ε), ∃ d₁, (m.insertNew k w d >>= fun m₁ => m₁.insertNew k w' d') = .error d₁ := by
      intro w w' d d'
      unfold insertNew
      split_ifs
      · exact ⟨d, rfl⟩
      · refine ⟨d', ?_⟩
        change (if (m.insert k w).contains k then Except.error d' else Except.ok ((m.insert k w).insert k w')) = _
        rw [if_pos]
        rw [contains_insert, decide_eq_true rfl, Bool.true_or]
    obtain ⟨d, hd⟩ := hfails v v' e e'
    obtain ⟨d', hd'⟩ := hfails v' v e' e
    rw [hd, hd']
    exact .error d d'
  · have hfirst : ∀ w, (m.insert k w).contains k' = m.contains k' := by
      intro w
      rw [contains_insert, decide_eq_false (fun h => hk h.symm), Bool.false_or]
    have hsecond : ∀ w, (m.insert k' w).contains k = m.contains k := by
      intro w
      rw [contains_insert, decide_eq_false hk, Bool.false_or]
    unfold insertNew
    by_cases h : m.contains k = true
    · by_cases h' : m.contains k' = true
      · rw [if_pos h, if_pos h']
        exact .error _ _
      · rw [if_pos h, if_neg h']
        change Agree Eq (.error e) (if (m.insert k' v').contains k then _ else _)
        rw [hsecond, if_pos h]
        exact .error _ _
    · by_cases h' : m.contains k' = true
      · rw [if_neg h, if_pos h']
        change Agree Eq (if (m.insert k v).contains k' then _ else _) (.error e')
        rw [hfirst, if_pos h']
        exact .error _ _
      · rw [if_neg h, if_neg h']
        change Agree Eq (if (m.insert k v).contains k' then _ else _) (if (m.insert k' v').contains k then _ else _)
        rw [hfirst, hsecond, if_neg h, if_neg h', insert_comm m hk]
        exact .ok rfl

end OrdMap

end IcebergCxx.Lib

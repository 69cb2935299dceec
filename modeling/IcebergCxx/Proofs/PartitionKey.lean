import IcebergCxx.PartitionKey

/-!
# When serialized partition keys decode

A field of fixed width can be read off either end of the string, a single field of variable
width is what remains, and two fields of variable width can always be confused.
-/

namespace IcebergCxx.Proofs

open Lib

variable {decimalSize : Int → Nat}

/-! ### One value -/

lemma word_eq_of_leBytes {n : Nat} {a b : BitVec (8 * n)} (h : leBytes n a.toNat = leBytes n b.toNat) :
    a = b := by
  have hpow : (256 : Nat) ^ n = 2 ^ (8 * n) := by rw [pow_mul]; rfl
  exact BitVec.eq_of_toNat_eq (leBytes_inj (hpow ▸ a.isLt) (hpow ▸ b.isLt) h)

/-- The alternative and the bytes determine a value. -/
lemma serializeValue_inj {v w : AvroValue} (hi : v.index = w.index)
    (h : serializeValue v = serializeValue w) : v = w := by
  cases v <;> cases w <;> first | (simp [AvroValue.index] at hi; done) | skip
  case null.null => rfl
  case bool.bool a b => cases a <;> cases b <;> first | rfl | exact absurd h (by decide)
  case int.int a b => exact congrArg _ (word_eq_of_leBytes (n := 4) h)
  case long.long a b => exact congrArg _ (word_eq_of_leBytes (n := 8) h)
  case float.float a b => exact congrArg _ (word_eq_of_leBytes (n := 4) h)
  case double.double a b => exact congrArg _ (word_eq_of_leBytes (n := 8) h)
  case string.string a b => exact congrArg _ h
  case bytes.bytes a b => exact congrArg _ h
  case fixed.fixed a b => exact congrArg _ h

/-- The number of bytes of a value of a type of fixed width. -/
def valueWidth (decimalSize : Int → Nat) : IceType → Nat
  | .boolean => 1
  | .int | .date | .float => 4
  | .uuid => 16
  | .fixed size => size.toNat
  | .decimal precision _ => decimalSize precision
  | _ => 8

lemma length_serializeValue {t : IceType} {v : AvroValue} (hv : valueFits decimalSize t v = true)
    (hs : t ≠ .string) (hb : t ≠ .binary) : (serializeValue v).length = valueWidth decimalSize t := by
  cases t <;> cases v <;> simp_all [valueFits, serializeValue, valueWidth]
  omega

/-- The variant alternative that holds the values of a type. -/
def typeIndex : IceType → Nat
  | .boolean => 1
  | .int | .date => 2
  | .float => 4
  | .double => 5
  | .string => 6
  | .binary => 7
  | .uuid | .fixed _ | .decimal _ _ => 8
  | _ => 3

lemma index_of_valueFits {t : IceType} {v : AvroValue} (hv : valueFits decimalSize t v = true) :
    v.index = typeIndex t := by
  cases t <;> cases v <;> first | rfl | exact absurd hv (by simp [valueFits])

/-! ### One field -/

/-- The bytes before the value of a field that is not null. -/
def fieldHead (name : Bytes) (t : IceType) : Bytes := name ++ t.toText ++ toDecimal (typeIndex t)

/-- The two forms of a serialized key of a field. -/
lemma serializePartitionKey_cases {f : PartitionKeyField} {k : PartitionKey}
    (h : conformsField decimalSize f k = true) :
    (k = ⟨f.name, .null, none⟩ ∧ serializePartitionKey k = f.name ++ bytes "0null") ∨
    (∃ t, f.type = some t ∧ k = ⟨f.name, k.value, some t⟩ ∧ valueFits decimalSize t k.value = true ∧
      serializePartitionKey k = fieldHead f.name t ++ serializeValue k.value) := by
  obtain ⟨name, value, type⟩ := k
  cases type with
  | none =>
    simp only [conformsField, Bool.and_eq_true, decide_eq_true_eq] at h
    obtain ⟨rfl, rfl⟩ := h
    refine .inl ⟨rfl, ?_⟩
    simp [serializePartitionKey, AvroValue.index, toDecimal, serializeValue]
    rfl
  | some t =>
    simp only [conformsField, Bool.and_eq_true, decide_eq_true_eq] at h
    obtain ⟨rfl, ht, hv⟩ := h
    refine .inr ⟨t, ht, rfl, hv, ?_⟩
    simp [serializePartitionKey, fieldHead, index_of_valueFits hv]

lemma eq_of_serializeValue {n : Bytes} {t : IceType} {k k' : PartitionKey}
    (hk : k = ⟨n, k.value, some t⟩) (hk' : k' = ⟨n, k'.value, some t⟩)
    (hv : valueFits decimalSize t k.value = true) (hv' : valueFits decimalSize t k'.value = true)
    (h : serializeValue k.value = serializeValue k'.value) : k = k' := by
  have hi : k.value.index = k'.value.index := by rw [index_of_valueFits hv, index_of_valueFits hv']
  rw [hk, hk', serializeValue_inj hi h]

lemma toText_head (t : IceType) : ∃ c l, t.toText = c :: l ∧ c ≠ 48 := by
  cases t <;> exact ⟨_, _, rfl, by decide⟩

/-- The byte after the name says whether a key is null. -/
lemma null_ne_fieldHead {n r r' : Bytes} {t : IceType} : n ++ bytes "0null" ++ r ≠ fieldHead n t ++ r' := by
  intro h
  obtain ⟨c, l, ht, hc⟩ := toText_head t
  simp only [fieldHead, List.append_assoc, ht] at h
  have h0 := List.append_cancel_left h
  have hb : bytes "0null" = 48 :: bytes "null" := by decide
  rw [hb] at h0
  exact hc (List.cons.inj h0).1.symm

lemma serializePartitionKey_inj {f : PartitionKeyField} {k k' : PartitionKey}
    (hk : conformsField decimalSize f k = true) (hk' : conformsField decimalSize f k' = true)
    (h : serializePartitionKey k = serializePartitionKey k') : k = k' := by
  rcases serializePartitionKey_cases hk with ⟨e, s⟩ | ⟨t, ht, e, hv, s⟩
  · rcases serializePartitionKey_cases hk' with ⟨e', s'⟩ | ⟨t', ht', e', hv', s'⟩
    · rw [e, e']
    · rw [s, s'] at h
      exact absurd (by rw [List.append_nil, h]) (null_ne_fieldHead (r := []))
  · rcases serializePartitionKey_cases hk' with ⟨e', s'⟩ | ⟨t', ht', e', hv', s'⟩
    · rw [s, s'] at h
      exact absurd (by rw [List.append_nil, h]) (null_ne_fieldHead (r := []))
    · obtain rfl : t = t' := Option.some.inj (ht.symm.trans ht')
      rw [s, s'] at h
      exact eq_of_serializeValue e e' hv hv' (List.append_cancel_left h)

/-! ### Reading a field of fixed width off either end -/

lemma not_isVariable {f : PartitionKeyField} (hf : f.isVariable = false) {t : IceType} (ht : f.type = some t) :
    t ≠ .string ∧ t ≠ .binary := by
  rw [PartitionKeyField.isVariable, ht] at hf
  constructor <;> rintro rfl <;> simp at hf

lemma sizedKey_front {f : PartitionKeyField} (hf : f.isVariable = false) {k k' : PartitionKey} {r r' : Bytes}
    (hk : conformsField decimalSize f k = true) (hk' : conformsField decimalSize f k' = true)
    (h : sizedKey (serializePartitionKey k) ++ r = sizedKey (serializePartitionKey k') ++ r') :
    k = k' ∧ r = r' := by
  suffices hs : (serializePartitionKey k).length = (serializePartitionKey k').length by
    have hlen : (sizedKey (serializePartitionKey k)).length = (sizedKey (serializePartitionKey k')).length := by
      simp [sizedKey, hs]
    obtain ⟨hkey, hr⟩ := List.append_inj h hlen
    exact ⟨serializePartitionKey_inj hk hk' (List.append_inj hkey hs).1, hr⟩
  simp only [sizedKey, List.append_assoc] at h
  rcases serializePartitionKey_cases hk with ⟨e, s⟩ | ⟨t, ht, e, hv, s⟩
  · rcases serializePartitionKey_cases hk' with ⟨e', s'⟩ | ⟨t', ht', e', hv', s'⟩
    · rw [s, s']
    · rw [s, s', List.append_assoc (fieldHead f.name t')] at h
      exact absurd h null_ne_fieldHead
  · rcases serializePartitionKey_cases hk' with ⟨e', s'⟩ | ⟨t', ht', e', hv', s'⟩
    · rw [s, s', List.append_assoc (fieldHead f.name t)] at h
      exact absurd h.symm null_ne_fieldHead
    · obtain rfl : t = t' := Option.some.inj (ht.symm.trans ht')
      obtain ⟨hns, hnb⟩ := not_isVariable hf ht
      rw [s, s', List.length_append, List.length_append, length_serializeValue hv hns hnb,
        length_serializeValue hv' hns hnb]

/-- A numeral after a letter is no suffix of a greater numeral. -/
lemma letter_toDecimal_ne {r r' : Bytes} {c : Byte} {a b : Nat} (hc : 57 < c.val) (hab : a < b) :
    r ++ c :: toDecimal a ≠ r' ++ toDecimal b := by
  intro h
  have hle := length_toDecimal_mono hab.le
  rcases Nat.eq_or_lt_of_le hle with heq | hlt
  · have h' : (r ++ [c]) ++ toDecimal a = r' ++ toDecimal b := by simpa using h
    have := toDecimal_inj (List.append_inj_right' h' heq)
    omega
  · have h1 : c :: toDecimal a <:+ r' ++ toDecimal b := ⟨r, h⟩
    have h2 : c :: toDecimal a <:+ toDecimal b :=
      List.suffix_of_suffix_length_le h1 (List.suffix_append r' _) (by simpa using hlt)
    have := isDigit_of_mem_toDecimal (h2.subset (List.mem_cons_self))
    omega

lemma length_toText_ge (t : IceType) (hs : t ≠ .string) (hb : t ≠ .binary) :
    5 < t.toText.length + 1 + valueWidth decimalSize t := by
  have hd : (bytes "decimal(").length = 8 := by decide
  have hf : (bytes "fixed(").length = 6 := by decide
  have hl : (bytes "list(").length = 5 := by decide
  cases t <;> first
    | exact absurd rfl hs
    | exact absurd rfl hb
    | simp only [IceType.toText, List.length_append, valueWidth, hd, hf, hl]; omega
    | simp [IceType.toText, valueWidth, bytes]

lemma null_ne_value_back {n r r' v : Bytes} {t : IceType} (hs : t ≠ .string) (hb : t ≠ .binary)
    (hv : v.length = valueWidth decimalSize t) :
    r ++ sizedKey (n ++ bytes "0null") ≠ r' ++ sizedKey (fieldHead n t ++ v) := by
  intro h
  have hnull : bytes "0null" = bytes "0nul" ++ [108] := by decide
  have hlen : (n ++ bytes "0null").length < (fieldHead n t ++ v).length := by
    have h5 : (bytes "0null").length = 5 := by decide
    have hge : 5 < t.toText.length + 1 + valueWidth decimalSize t := length_toText_ge t hs hb
    have hpos := length_toDecimal_pos (typeIndex t)
    simp only [fieldHead, List.length_append, h5, hv]
    omega
  apply @letter_toDecimal_ne (r ++ (n ++ bytes "0nul")) (r' ++ (fieldHead n t ++ v)) 108 _ _ (by decide) hlen
  simpa [sizedKey, hnull] using h

lemma sizedKey_back {f : PartitionKeyField} (hf : f.isVariable = false) {k k' : PartitionKey} {r r' : Bytes}
    (hk : conformsField decimalSize f k = true) (hk' : conformsField decimalSize f k' = true)
    (h : r ++ sizedKey (serializePartitionKey k) = r' ++ sizedKey (serializePartitionKey k')) :
    k = k' ∧ r = r' := by
  suffices hs : (serializePartitionKey k).length = (serializePartitionKey k').length by
    have hlen : (sizedKey (serializePartitionKey k)).length = (sizedKey (serializePartitionKey k')).length := by
      simp [sizedKey, hs]
    obtain ⟨hr, hkey⟩ := List.append_inj' h hlen
    exact ⟨serializePartitionKey_inj hk hk' (List.append_inj hkey hs).1, hr⟩
  rcases serializePartitionKey_cases hk with ⟨e, s⟩ | ⟨t, ht, e, hv, s⟩
  · rcases serializePartitionKey_cases hk' with ⟨e', s'⟩ | ⟨t', ht', e', hv', s'⟩
    · rw [s, s']
    · obtain ⟨hns, hnb⟩ := not_isVariable hf ht'
      rw [s, s'] at h
      exact absurd h (null_ne_value_back hns hnb (length_serializeValue hv' hns hnb))
  · obtain ⟨hns, hnb⟩ := not_isVariable hf ht
    rcases serializePartitionKey_cases hk' with ⟨e', s'⟩ | ⟨t', ht', e', hv', s'⟩
    · rw [s, s'] at h
      exact absurd h.symm (null_ne_value_back hns hnb (length_serializeValue hv hns hnb))
    · obtain rfl : t = t' := Option.some.inj (ht.symm.trans ht')
      rw [s, s', List.length_append, List.length_append, length_serializeValue hv hns hnb,
        length_serializeValue hv' hns hnb]

/-- A key followed by its own length is the key. -/
lemma sizedKey_inj {a b : Bytes} (h : sizedKey a = sizedKey b) : a = b :=
  append_toDecimal_inj (c := 0) (by simpa [sizedKey] using h)

/-! ### Tuples with at most one field of variable width -/

/-- `SerializePartitionTuple` of the remaining fields. -/
def serializeFields (fields : List PartitionKey) : Bytes :=
  fields.flatMap (fun field => sizedKey (serializePartitionKey field))

lemma serializeFields_back {fs : List PartitionKeyField} (hfs : ∀ f ∈ fs, f.isVariable = false)
    {ks ks' : List PartitionKey} {r r' : Bytes}
    (hk : List.Forall₂ (fun f k => conformsField decimalSize f k = true) fs ks)
    (hk' : List.Forall₂ (fun f k => conformsField decimalSize f k = true) fs ks')
    (h : r ++ serializeFields ks = r' ++ serializeFields ks') : ks = ks' ∧ r = r' := by
  induction hk generalizing ks' r r' with
  | nil =>
    cases hk'
    exact ⟨rfl, List.append_cancel_right h⟩
  | @cons f k fs ks hf _ ih =>
    cases hk' with
    | @cons _ k' _ ks' hf' hks' =>
      have hrec : (r ++ sizedKey (serializePartitionKey k)) ++ serializeFields ks =
          (r' ++ sizedKey (serializePartitionKey k')) ++ serializeFields ks' := by
        simpa [serializeFields] using h
      obtain ⟨rfl, hr⟩ := ih (fun g hg => hfs g (List.mem_cons_of_mem _ hg)) hks' hrec
      obtain ⟨rfl, rfl⟩ := sizedKey_back (hfs f List.mem_cons_self) hf hf' hr
      exact ⟨rfl, rfl⟩

lemma serializeFields_inj {fs : List PartitionKeyField} (hfs : (fs.filter (·.isVariable)).length ≤ 1)
    {ks ks' : List PartitionKey}
    (hk : List.Forall₂ (fun f k => conformsField decimalSize f k = true) fs ks)
    (hk' : List.Forall₂ (fun f k => conformsField decimalSize f k = true) fs ks')
    (h : serializeFields ks = serializeFields ks') : ks = ks' := by
  induction hk generalizing ks' with
  | nil => cases hk'; rfl
  | @cons f k fs ks hf hks ih =>
    cases hk' with
    | @cons _ k' _ ks' hf' hks' =>
      have h' : sizedKey (serializePartitionKey k) ++ serializeFields ks =
          sizedKey (serializePartitionKey k') ++ serializeFields ks' := h
      cases hvar : f.isVariable with
      | true =>
        have hrest : ∀ g ∈ fs, g.isVariable = false := by
          have hnil : (fs.filter (·.isVariable)).length = 0 := by
            rw [List.filter_cons_of_pos (by simpa using hvar), List.length_cons] at hfs
            omega
          intro g hg
          by_contra hne
          have hmem : g ∈ fs.filter (·.isVariable) := List.mem_filter.mpr ⟨hg, by simpa using hne⟩
          rw [List.eq_nil_of_length_eq_zero hnil] at hmem
          exact absurd hmem List.not_mem_nil
        obtain ⟨rfl, hkey⟩ := serializeFields_back hrest hks hks' h'
        rw [serializePartitionKey_inj hf hf' (sizedKey_inj hkey)]
      | false =>
        rw [List.filter_cons_of_neg (by simp [hvar])] at hfs
        obtain ⟨rfl, hrec⟩ := sizedKey_front hvar hf hf' h'
        rw [ih hfs hks' hrec]

lemma serializeFields_eq_nil {ks : List PartitionKey} (h : serializeFields ks = []) : ks = [] := by
  cases ks with
  | nil => rfl
  | cons k ks => simp [serializeFields, sizedKey, toDecimal_ne_nil] at h

/-! ### Two fields of variable width -/

/-- A value of the type of a variable field. -/
def variableKey (f : PartitionKeyField) (v : Bytes) : PartitionKey :=
  ⟨f.name, if f.type = some .string then .string v else .bytes v, f.type⟩

/-- The bytes before the value of a variable field. -/
def variableHead (f : PartitionKeyField) : Bytes :=
  fieldHead f.name (if f.type = some .string then .string else .binary)

lemma variableKey_conforms {f : PartitionKeyField} (hf : f.isVariable = true) (v : Bytes) :
    conformsField decimalSize f (variableKey f v) = true ∧
      serializePartitionKey (variableKey f v) = variableHead f ++ v := by
  obtain ⟨n, t⟩ := f
  simp only [PartitionKeyField.isVariable, Bool.or_eq_true, decide_eq_true_eq] at hf
  rcases hf with rfl | rfl <;>
    simp [conformsField, variableKey, variableHead, fieldHead, valueFits, serializePartitionKey,
      AvroValue.index, typeIndex, serializeValue]

lemma variableKey_inj {f : PartitionKeyField} {v w : Bytes} (h : variableKey f v = variableKey f w) :
    v = w := by
  have hv := congrArg PartitionKey.value h
  simp only [variableKey] at hv
  split_ifs at hv with hs
  · exact AvroValue.string.inj hv
  · exact AvroValue.bytes.inj hv

def nullKey (f : PartitionKeyField) : PartitionKey := ⟨f.name, .null, none⟩

lemma nullKeys_conform (fs : List PartitionKeyField) :
    List.Forall₂ (fun f k => conformsField decimalSize f k = true) fs (fs.map nullKey) := by
  induction fs with
  | nil => exact .nil
  | cons f fs ih => exact .cons (by simp [conformsField, nullKey]) ih

/-- Two values around a fixed middle part that imitate each other's lengths: the first value
of the second pair contains the length and the middle part of the first. -/
lemma exists_collision (a b : Nat) (M : Bytes) : ∃ v₁ v₂ w₁ w₂ : Bytes, v₁ ≠ w₁ ∧
    v₁ ++ toDecimal (a + v₁.length) ++ M ++ v₂ ++ toDecimal (b + v₂.length) =
      w₁ ++ toDecimal (a + w₁.length) ++ M ++ w₂ ++ toDecimal (b + w₂.length) := by
  obtain ⟨da, hda⟩ : ∃ da, da = (toDecimal a).length := ⟨_, rfl⟩
  obtain ⟨j, hj⟩ : ∃ j, j = a + da + M.length + b + 1 := ⟨_, rfl⟩
  obtain ⟨T, hT⟩ : ∃ T, T = 10 ^ j := ⟨_, rfl⟩
  have hjT : j < T := hT ▸ Nat.lt_pow_self (by norm_num)
  have hpow : 10 ^ (j + 1) = 10 * T := by rw [hT, pow_succ, mul_comm]
  obtain ⟨m, hm⟩ : ∃ m, m = 10 * T + a + da - j := ⟨_, rfl⟩
  obtain ⟨x, hx⟩ : ∃ x : Bytes, x.length = 10 * T - j - M.length := ⟨List.replicate _ 0, List.length_replicate⟩
  obtain ⟨y, hy⟩ : ∃ y : Bytes, y.length = T - b - 1 := ⟨List.replicate _ 0, List.length_replicate⟩
  have hlm : (toDecimal m).length = j + 1 := length_toDecimal_eq (by omega) (by omega)
  refine ⟨[], x ++ toDecimal m ++ M ++ y, toDecimal a ++ M ++ x, y ++ [49], ?_, ?_⟩
  · intro h
    have := congrArg List.length h
    simp only [List.length_nil, List.length_append] at this
    have := length_toDecimal_pos a
    omega
  · have h1 : a + (toDecimal a ++ M ++ x).length = m := by
      simp only [List.length_append]
      omega
    have h2 : b + (y ++ [(49 : Byte)]).length = T := by
      simp only [List.length_append, List.length_cons, List.length_nil]
      omega
    have h3 : b + (x ++ toDecimal m ++ M ++ y).length = 10 ^ (j + 1) + T := by
      simp only [List.length_append]
      omega
    have h4 : toDecimal (10 ^ (j + 1) + T) = 49 :: toDecimal T :=
      toDecimal_pow_add hT.ge (by omega)
    rw [h1, h2, h3, h4]
    simp

lemma exists_two_variable {fs : List PartitionKeyField} (h : 2 ≤ (fs.filter (·.isVariable)).length) :
    ∃ p f q g s, fs = p ++ f :: q ++ g :: s ∧ f.isVariable = true ∧ g.isVariable = true := by
  induction fs with
  | nil => simp at h
  | cons f fs ih =>
    by_cases hf : f.isVariable = true
    · rw [List.filter_cons_of_pos hf, List.length_cons] at h
      obtain ⟨g, hg⟩ := List.exists_mem_of_length_pos (Nat.le_of_succ_le_succ h)
      obtain ⟨hmem, hgv⟩ := List.mem_filter.mp hg
      obtain ⟨q, s, rfl⟩ := List.append_of_mem hmem
      exact ⟨[], f, q, g, s, rfl, hf, hgv⟩
    · rw [List.filter_cons_of_neg hf] at h
      obtain ⟨p, f', q, g, s, rfl, hf', hg⟩ := ih h
      exact ⟨f :: p, f', q, g, s, rfl, hf', hg⟩

lemma exists_confused {fs : List PartitionKeyField} (h : 2 ≤ (fs.filter (·.isVariable)).length) :
    ∃ t t' : PartitionTuple, Conforms decimalSize fs t ∧ Conforms decimalSize fs t' ∧
      serializePartitionTuple t = serializePartitionTuple t' ∧ t ≠ t' := by
  obtain ⟨p, f, q, g, s, rfl, hf, hg⟩ := exists_two_variable h
  obtain ⟨v₁, v₂, w₁, w₂, hne, heq⟩ := exists_collision (variableHead f).length (variableHead g).length
    (serializeFields (q.map nullKey) ++ variableHead g)
  have hconf : ∀ a b : Bytes, Conforms decimalSize (p ++ f :: q ++ g :: s)
      ⟨p.map nullKey ++ variableKey f a :: q.map nullKey ++ variableKey g b :: s.map nullKey⟩ := by
    intro a b
    refine List.rel_append (List.rel_append (nullKeys_conform p) ?_) ?_
    · exact .cons (variableKey_conforms hf a).1 (nullKeys_conform q)
    · exact .cons (variableKey_conforms hg b).1 (nullKeys_conform s)
  have hser : ∀ a b : Bytes, serializePartitionTuple
      ⟨p.map nullKey ++ variableKey f a :: q.map nullKey ++ variableKey g b :: s.map nullKey⟩ =
      serializeFields (p.map nullKey) ++ variableHead f ++
        (a ++ toDecimal ((variableHead f).length + a.length) ++
          (serializeFields (q.map nullKey) ++ variableHead g) ++ b ++
          toDecimal ((variableHead g).length + b.length)) ++ serializeFields (s.map nullKey) := by
    intro a b
    have ha := (@variableKey_conforms decimalSize f hf a).2
    have hb := (@variableKey_conforms decimalSize g hg b).2
    simp [serializePartitionTuple, serializeFields, sizedKey, ha, hb]
  refine ⟨_, _, hconf v₁ v₂, hconf w₁ w₂, by rw [hser, hser, heq], ?_⟩
  intro h
  have hlist := congrArg PartitionTuple.fields h
  simp only [List.append_assoc, List.append_cancel_left_eq, List.cons_append, List.cons.injEq] at hlist
  exact hne (variableKey_inj hlist.1)

end IcebergCxx.Proofs

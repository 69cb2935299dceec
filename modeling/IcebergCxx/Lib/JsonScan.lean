import IcebergCxx.Lib.Json

/-!
# Nesting of JSON texts

`scan` follows a JSON text byte by byte: whether the position is inside a string, and how deep
in brackets. A text that the parser accepts ends outside of strings at the depth where it began,
every proper cut of a printed object lies at a greater depth or inside a string, and a scan that
starts on the wrong side of the quotes stays there. So no proper suffix of a printed object is
itself a document.
-/

namespace IcebergCxx.Lib

namespace Json

inductive ScanState where
  | outside
  | inString
  | afterBackslash
  deriving DecidableEq

open ScanState

/-- The change of depth at a byte outside of strings. -/
def depthOf (c : Byte) : Int :=
  if c = 91 ∨ c = 123 then 1 else if c = 93 ∨ c = 125 then -1 else 0

/-- The state and the depth after a text; a backslash outside of a string is an error. -/
def scan : ScanState → Int → Bytes → Option (ScanState × Int)
  | s, d, [] => some (s, d)
  | outside, d, c :: l =>
    if c = 34 then scan inString d l
    else if c = 92 then none
    else scan outside (d + depthOf c) l
  | inString, d, c :: l =>
    if c = 34 then scan outside d l
    else if c = 92 then scan afterBackslash d l
    else scan inString d l
  | afterBackslash, d, _ :: l => scan inString d l

lemma scan_append (s : ScanState) (d : Int) (l l' : Bytes) :
    scan s d (l ++ l') = (scan s d l).bind (fun p => scan p.1 p.2 l') := by
  induction l generalizing s d with
  | nil => cases s <;> simp [scan]
  | cons c l ih =>
    cases s with
    | outside =>
      simp only [List.cons_append, scan]
      split_ifs
      · exact ih _ _
      · rfl
      · exact ih _ _
    | inString =>
      simp only [List.cons_append, scan]
      split_ifs <;> exact ih _ _
    | afterBackslash => exact ih _ _

lemma scan_nil (s : ScanState) (d : Int) : scan s d [] = some (s, d) := by
  cases s <;> rfl

/-- The depth only shifts the result. -/
lemma scan_shift (s : ScanState) (d e : Int) (l : Bytes) :
    scan s (d + e) l = (scan s d l).map (fun p => (p.1, p.2 + e)) := by
  induction l generalizing s d with
  | nil => simp [scan_nil]
  | cons c l ih =>
    cases s with
    | outside =>
      simp only [scan]
      split_ifs
      · exact ih _ _
      · rfl
      · rw [← ih]
        congr 1
        omega
    | inString =>
      simp only [scan]
      split_ifs <;> exact ih _ _
    | afterBackslash => exact ih _ _

/-- Two scans on opposite sides of the quotes never both end outside. -/
lemma scan_opposite (l : Bytes) (d e a b : Int) :
    ¬(scan inString d l = some (outside, a) ∧ scan outside e l = some (outside, b)) := by
  rintro ⟨h1, h2⟩
  induction l generalizing d e a b with
  | nil => simp [scan] at h1
  | cons c l ih =>
    simp only [scan] at h1 h2
    by_cases hq : c = 34
    · simp only [hq, if_true] at h1 h2
      exact ih _ _ _ _ h2 h1
    · by_cases hb : c = 92
      · simp [hb] at h2
      · simp only [hq, hb, if_false] at h1 h2
        exact ih _ _ _ _ h1 h2

/-! ### Texts that the parser reads -/

/-- A text after which the scan is outside, `k` levels higher. -/
def Ends (k : Int) (u : Bytes) : Prop := ∀ d, scan outside d u = some (outside, d + k)

lemma Ends.append {j k : Int} {u v : Bytes} (hu : Ends j u) (hv : Ends k v) : Ends (j + k) (u ++ v) := by
  intro d
  rw [scan_append, hu d, Option.bind_some, hv, add_assoc]

lemma ends_nil : Ends 0 [] := fun d => by simp [scan]

lemma Ends.cons {k : Int} {u : Bytes} {c : Byte} (h1 : c ≠ 34) (h2 : c ≠ 92) (hu : Ends k u) :
    Ends (depthOf c + k) (c :: u) := by
  intro d
  simp only [scan, h1, h2, if_false]
  rw [hu, add_assoc]

lemma depthOf_of_isDigit {c : Byte} (h : isDigit c = true) : depthOf c = 0 := by
  have hd : c ≠ 125 := by
    rintro rfl
    exact absurd h (by decide)
  simp [depthOf, ne_of_isDigit h, hd]

lemma ne_backslash_of_isDigit {c : Byte} (h : isDigit c = true) : c ≠ 92 := by
  rintro rfl
  exact absurd h (by decide)

lemma ends_of_isDigit {u : Bytes} (h : ∀ c ∈ u, isDigit c = true) : Ends 0 u := by
  induction u with
  | nil => exact ends_nil
  | cons c u ih =>
    have hc := h c List.mem_cons_self
    have hu := ih (fun x hx => h x (List.mem_cons_of_mem _ hx))
    have he := Ends.cons (ne_of_isDigit hc).2.2.2.1 (ne_backslash_of_isDigit hc) hu
    rwa [depthOf_of_isDigit hc] at he

lemma skip_some {w l r : Bytes} (h : skip w l = some r) : l = w ++ r := by
  induction w generalizing l with
  | nil => cases h; rfl
  | cons c w ih =>
    cases l with
    | nil => cases h
    | cons d l =>
      simp only [skip] at h
      split_ifs at h with hd
      rw [hd, ih h, List.cons_append]

lemma parseNat_some {l r : Bytes} {n : Nat} (h : parseNat l = some (n, r)) : ∃ u, l = u ++ r ∧ Ends 0 u := by
  unfold parseNat at h
  split_ifs at h with he
  cases h
  refine ⟨l.takeWhile isDigit, (List.takeWhile_append_dropWhile).symm, ends_of_isDigit ?_⟩
  intro c hc
  exact List.mem_takeWhile_imp hc

lemma hexValue_some {c : Byte} {n : Nat} (h : hexValue c = some n) : c ≠ 34 ∧ c ≠ 92 := by
  constructor
  · rintro rfl; cases h
  · rintro rfl; cases h

lemma hexEscape_some {a b c d x : Byte} (h : hexEscape a b c d = some x) :
    (a ≠ 34 ∧ a ≠ 92) ∧ (b ≠ 34 ∧ b ≠ 92) ∧ (c ≠ 34 ∧ c ≠ 92) ∧ (d ≠ 34 ∧ d ≠ 92) := by
  unfold hexEscape at h
  split_ifs at h with hab
  split at h
  · rename_i m n hm hn
    rw [hab.1, hab.2]
    exact ⟨by decide, by decide, hexValue_some hm, hexValue_some hn⟩
  · cases h

lemma parseString_some {l r s : Bytes} (h : parseString l = some (s, r)) :
    ∃ u, l = u ++ r ∧ ∀ d, scan inString d u = some (outside, d) := by
  fun_induction parseString l generalizing s with
  | case1 => cases h
  | case2 l => cases h; exact ⟨[34], rfl, fun d => by simp [scan]⟩
  | case3 => cases h
  | case4 => cases h
  | case5 a b c d l x hx _ ih =>
    obtain ⟨p, hp, he⟩ := Option.map_eq_some_iff.mp h
    cases he
    obtain ⟨u, rfl, hu⟩ := ih hp
    obtain ⟨ha, hb, hc, hd⟩ := hexEscape_some hx
    refine ⟨92 :: 117 :: a :: b :: c :: d :: u, rfl, fun e => ?_⟩
    simp [scan, ha, hb, hc, hd, hu]
  | case6 => cases h
  | case7 => cases h
  | case8 e l he x hx _ ih =>
    obtain ⟨p, hp, he⟩ := Option.map_eq_some_iff.mp h
    cases he
    obtain ⟨u, rfl, hu⟩ := ih hp
    refine ⟨92 :: e :: u, rfl, fun d => ?_⟩
    simp [scan, hu]
  | case9 => cases h
  | case10 c l h1 h2 _ ih =>
    obtain ⟨p, hp, he⟩ := Option.map_eq_some_iff.mp h
    cases he
    obtain ⟨u, rfl, hu⟩ := ih hp
    refine ⟨c :: u, rfl, fun d => ?_⟩
    simp [scan, h1, h2, hu]

/-- What one of the parsers has read: the text splits and its first part ends as expected. -/
def Reads (k : Int) (l r : Bytes) : Prop := ∃ u, l = u ++ r ∧ Ends k u

lemma Reads.trans {j k : Int} {l m r : Bytes} (h1 : Reads j l m) (h2 : Reads k m r) : Reads (j + k) l r := by
  obtain ⟨u, rfl, hu⟩ := h1
  obtain ⟨v, rfl, hv⟩ := h2
  exact ⟨u ++ v, by rw [List.append_assoc], hu.append hv⟩

lemma reads_cons {c : Byte} (l : Bytes) (h1 : c ≠ 34) (h2 : c ≠ 92) : Reads (depthOf c) (c :: l) l :=
  ⟨[c], rfl, by simpa using Ends.cons h1 h2 ends_nil⟩

lemma reads_skip {w l r : Bytes} (h : skip w l = some r) {k : Int} (hw : Ends k w) : Reads k l r :=
  ⟨w, skip_some h, hw⟩

lemma reads_string {l r s : Bytes} (h : parseString l = some (s, r)) : Reads 0 (34 :: l) r := by
  obtain ⟨u, rfl, hu⟩ := parseString_some h
  refine ⟨34 :: u, rfl, fun d => ?_⟩
  simp [scan, hu]

lemma reads_word {c : Byte} {w l r : Bytes} (h : skip w l = some r) (hw : Ends 0 (c :: w)) : Reads 0 (c :: l) r :=
  ⟨c :: w, by rw [skip_some h]; rfl, hw⟩

mutual

/-- An accepted value is a text that ends where it began. -/
theorem parseValue_reads : ∀ (n : Nat) (l r : Bytes) (j : Json), parseValue n l = some (j, r) → Reads 0 l r
  | 0, _, _, _, h => by simp [parseValue] at h
  | _ + 1, [], _, _, h => by simp [parseValue] at h
  | n + 1, c :: l, r, j, h => by
    simp only [parseValue] at h
    split_ifs at h with h1 h2 h3 h4 h5 h6 h7
    · obtain ⟨m, hm, he⟩ := Option.map_eq_some_iff.mp h
      cases he
      exact reads_word hm (fun d => by subst h1; simp [scan, depthOf])
    · obtain ⟨m, hm, he⟩ := Option.map_eq_some_iff.mp h
      cases he
      exact reads_word hm (fun d => by subst h2; simp [scan, depthOf])
    · obtain ⟨m, hm, he⟩ := Option.map_eq_some_iff.mp h
      cases he
      exact reads_word hm (fun d => by subst h3; simp [scan, depthOf])
    · obtain ⟨p, hp, he⟩ := Option.map_eq_some_iff.mp h
      cases he
      rw [h4]
      exact reads_string hp
    · obtain ⟨p, hp, he⟩ := Option.map_eq_some_iff.mp h
      cases he
      have hr := (reads_cons (c := c) l (by rw [h5]; decide) (by rw [h5]; decide)).trans (parseNat_some hp)
      simpa [h5, depthOf] using hr
    · have ho := reads_cons (c := c) l (by rw [h6]; decide) (by rw [h6]; decide)
      split at h
      · rename_i m hm
        cases h
        have hr := ho.trans (reads_skip hm (Ends.cons (by decide) (by decide) ends_nil))
        simpa [h6, depthOf] using hr
      · simp only [Option.bind_eq_bind, Option.bind_eq_some_iff] at h
        obtain ⟨⟨v, m⟩, hv, ⟨vs, m'⟩, hvs, he⟩ := h
        cases he
        have hr := (ho.trans (parseValue_reads n _ _ _ hv)).trans (parseElements_reads n _ _ _ hvs)
        simpa [h6, depthOf] using hr
    · have ho := reads_cons (c := c) l (by rw [h7]; decide) (by rw [h7]; decide)
      split at h
      · rename_i m hm
        cases h
        have hr := ho.trans (reads_skip hm (Ends.cons (by decide) (by decide) ends_nil))
        simpa [h7, depthOf] using hr
      · simp only [Option.bind_eq_bind, Option.bind_eq_some_iff] at h
        obtain ⟨⟨p, m⟩, hp, ⟨ps, m'⟩, hps, he⟩ := h
        cases he
        have hr := (ho.trans (parseMember_reads n _ _ _ hp)).trans (parseMembers_reads n _ _ _ hps)
        simpa [h7, depthOf] using hr
    · obtain ⟨p, hp, he⟩ := Option.map_eq_some_iff.mp h
      cases he
      exact parseNat_some hp

theorem parseElements_reads : ∀ (n : Nat) (l r : Bytes) (vs : List Json),
    parseElements n l = some (vs, r) → Reads (-1) l r
  | 0, _, _, _, h => by simp [parseElements] at h
  | n + 1, l, r, vs, h => by
    simp only [parseElements] at h
    split at h
    · rename_i m hm
      cases h
      exact reads_skip hm (by simpa [depthOf] using Ends.cons (c := 93) (by decide) (by decide) ends_nil)
    · simp only [Option.bind_eq_bind, Option.bind_eq_some_iff] at h
      obtain ⟨m₀, hc, ⟨v, m⟩, hv, ⟨vs, m'⟩, hvs, he⟩ := h
      cases he
      have ho : Reads 0 l m₀ :=
        reads_skip hc (by simpa [depthOf] using Ends.cons (c := 44) (by decide) (by decide) ends_nil)
      simpa using (ho.trans (parseValue_reads n _ _ _ hv)).trans (parseElements_reads n _ _ _ hvs)

theorem parseMember_reads : ∀ (n : Nat) (l r : Bytes) (p : Bytes × Json),
    parseMember n l = some (p, r) → Reads 0 l r
  | 0, _, _, _, h => by simp [parseMember] at h
  | n + 1, l, r, p, h => by
    simp only [parseMember, Option.bind_eq_bind, Option.bind_eq_some_iff] at h
    obtain ⟨m₀, hq, ⟨k, m⟩, hk, m', hc, ⟨v, m''⟩, hv, he⟩ := h
    cases he
    have hs : Reads 0 l m := by rw [skip_some hq]; exact reads_string hk
    have hd : Reads 0 m m' :=
      reads_skip hc (by simpa [depthOf] using Ends.cons (c := 58) (by decide) (by decide) ends_nil)
    simpa using (hs.trans hd).trans (parseValue_reads n _ _ _ hv)

theorem parseMembers_reads : ∀ (n : Nat) (l r : Bytes) (ps : List (Bytes × Json)),
    parseMembers n l = some (ps, r) → Reads (-1) l r
  | 0, _, _, _, h => by simp [parseMembers] at h
  | n + 1, l, r, ps, h => by
    simp only [parseMembers] at h
    split at h
    · rename_i m hm
      cases h
      exact reads_skip hm (by simpa [depthOf] using Ends.cons (c := 125) (by decide) (by decide) ends_nil)
    · simp only [Option.bind_eq_bind, Option.bind_eq_some_iff] at h
      obtain ⟨m₀, hc, ⟨p, m⟩, hp, ⟨ps, m'⟩, hps, he⟩ := h
      cases he
      have ho : Reads 0 l m₀ :=
        reads_skip hc (by simpa [depthOf] using Ends.cons (c := 44) (by decide) (by decide) ends_nil)
      simpa using (ho.trans (parseMember_reads n _ _ _ hp)).trans (parseMembers_reads n _ _ _ hps)

end

lemma parse_ends {l : Bytes} {j : Json} (h : parse l = some j) : Ends 0 l := by
  unfold parse at h
  split at h
  · rename_i v hv
    obtain ⟨u, hl, hu⟩ := parseValue_reads _ _ _ _ hv
    rwa [hl, List.append_nil]
  · cases h

/-! ### Printed texts -/

/-- The scan does not fail, and is at depth `b` or more before every byte. -/
def Stays (b : Int) : ScanState → Int → Bytes → Prop
  | _, _, [] => True
  | outside, d, c :: l =>
    b ≤ d ∧ if c = 34 then Stays b inString d l else c ≠ 92 ∧ Stays b outside (d + depthOf c) l
  | inString, d, c :: l =>
    b ≤ d ∧ if c = 34 then Stays b outside d l
      else if c = 92 then Stays b afterBackslash d l else Stays b inString d l
  | afterBackslash, d, _ :: l => b ≤ d ∧ Stays b inString d l

lemma Stays.append {b d e : Int} {s s' : ScanState} {u v : Bytes} (hu : Stays b s d u)
    (hs : scan s d u = some (s', e)) (hv : Stays b s' e v) : Stays b s d (u ++ v) := by
  induction u generalizing s d with
  | nil =>
    rw [scan_nil] at hs
    cases hs
    exact hv
  | cons c u ih =>
    cases s with
    | outside =>
      simp only [Stays, scan, List.cons_append] at hu hs ⊢
      refine ⟨hu.1, ?_⟩
      split_ifs at hu hs ⊢
      · exact ih hu.2 hs
      · exact ⟨hu.2.1, ih hu.2.2 hs⟩
    | inString =>
      simp only [Stays, scan, List.cons_append] at hu hs ⊢
      refine ⟨hu.1, ?_⟩
      split_ifs at hu hs ⊢
      · exact ih hu.2 hs
      · exact ih hu.2 hs
      · exact ih hu.2 hs
    | afterBackslash => exact ⟨hu.1, ih hu.2 hs⟩

/-- A cut that leaves something behind it lies at depth `b` or more. -/
lemma Stays.cut {b d : Int} {s : ScanState} {x y : Bytes} (h : Stays b s d (x ++ y)) (hy : y ≠ []) :
    ∃ s' e, scan s d x = some (s', e) ∧ b ≤ e := by
  induction x generalizing s d with
  | nil =>
    refine ⟨s, d, scan_nil s d, ?_⟩
    cases y with
    | nil => exact absurd rfl hy
    | cons c y => cases s <;> exact h.1
  | cons c x ih =>
    cases s with
    | outside =>
      simp only [List.cons_append, Stays, scan] at h ⊢
      split_ifs at h ⊢ with h1 h2
      · exact ih h.2
      · exact absurd h2 h.2.1
      · exact ih h.2.2
    | inString =>
      simp only [List.cons_append, Stays, scan] at h ⊢
      split_ifs at h ⊢ with h1 h2
      · exact ih h.2
      · exact ih h.2
      · exact ih h.2
    | afterBackslash => exact ih h.2

lemma Stays.cons {b d : Int} {c : Byte} {l : Bytes} (hd : b ≤ d) (h1 : c ≠ 34) (h2 : c ≠ 92)
    (h : Stays b outside (d + depthOf c) l) : Stays b outside d (c :: l) := by
  simp only [Stays, h1, if_false]
  exact ⟨hd, h2, h⟩

lemma hexDigit_ne_quote : ∀ n < 16, hexDigit n ≠ 34 ∧ hexDigit n ≠ 92 := by decide

lemma stays_escapeByte {b d : Int} (hd : b ≤ d) (c : Byte) {l : Bytes} (h : Stays b inString d l) :
    Stays b inString d (escapeByte c ++ l) := by
  unfold escapeByte
  cases hs : shortEscape c with
  | some e => simp [Stays, hd, h]
  | none =>
    obtain ⟨h1, h2⟩ := ne_quote_of_shortEscape hs
    by_cases hc : c.val < 32
    · have hx := hexDigit_ne_quote (c.val / 16) (by omega)
      have hy := hexDigit_ne_quote (c.val % 16) (by omega)
      simp [hc, Stays, hd, h, hx, hy]
    · simp [hc, Stays, hd, h, h1, h2]

lemma stays_printString {b d : Int} (hd : b ≤ d) (s : Bytes) : Stays b outside d (printString s) := by
  have he : Stays b inString d (escape s ++ [34]) := by
    induction s with
    | nil => simp [escape, Stays, hd]
    | cons c s ih =>
      rw [escape, List.append_assoc]
      exact stays_escapeByte hd c ih
  simp [printString, Stays, hd, he]

lemma ends_print (j : Json) : Ends 0 (print j) := parse_ends (parse_print j)

lemma ends_printString (s : Bytes) : Ends 0 (printString s) := by
  have h := ends_print (string s)
  rwa [print] at h

lemma stays_member {b d : Int} (hd : b ≤ d) (k : Bytes) {l : Bytes} (h : Stays b outside d l) :
    Stays b outside d (printString k ++ 58 :: l) := by
  refine (stays_printString hd k).append (ends_printString k d) ?_
  have h0 : d + 0 + depthOf 58 = d := by simp [depthOf]
  exact Stays.cons (by omega) (by decide) (by decide) (by rwa [h0])

lemma stays_comma {b d : Int} (hd : b ≤ d) {l : Bytes} (h : Stays b outside d l) :
    Stays b outside d (44 :: l) := by
  have h0 : d + depthOf 44 = d := by simp [depthOf]
  exact Stays.cons hd (by decide) (by decide) (by rwa [h0])

lemma stays_then {b d : Int} {u v : Bytes} (hu : Stays b outside d u) (he : Ends 0 u) (hv : Stays b outside d v) :
    Stays b outside d (u ++ v) :=
  hu.append (he d) (by rwa [add_zero])

lemma stays_decimal {b d : Int} (hd : b ≤ d) {u : Bytes} (h : ∀ c ∈ u, isDigit c = true) :
    Stays b outside d u := by
  induction u with
  | nil => simp [Stays]
  | cons c u ih =>
    have hc := h c List.mem_cons_self
    have hz : d + depthOf c = d := by simp [depthOf_of_isDigit hc]
    refine Stays.cons hd (ne_of_isDigit hc).2.2.2.1 (ne_backslash_of_isDigit hc) ?_
    rw [hz]
    exact ih (fun x hx => h x (List.mem_cons_of_mem _ hx))

mutual

/-- A printed value is never above the level where it starts. -/
theorem stays_print {b d : Int} (hd : b ≤ d) : ∀ j : Json, Stays b outside d (print j)
  | null => by simp [print, Stays, hd, depthOf]
  | bool true => by simp [print, Stays, hd, depthOf]
  | bool false => by simp [print, Stays, hd, depthOf]
  | int (.ofNat n) => by rw [print]; exact stays_decimal hd (isDigit_toDecimal n)
  | int (.negSucc n) => by
    rw [print, toDecimalInt]
    have h0 : d + depthOf 45 = d := by simp [depthOf]
    refine Stays.cons hd (by decide) (by decide) ?_
    rw [h0]
    exact stays_decimal hd (isDigit_toDecimal (n + 1))
  | string s => by rw [print]; exact stays_printString hd s
  | array [] => by simp [print, Stays, depthOf]; omega
  | array (v :: vs) => by
    have h1 : b ≤ d + depthOf 91 := by simp [depthOf]; omega
    rw [print]
    exact Stays.cons hd (by decide) (by decide) (stays_then (stays_print h1 v) (ends_print v) (stays_printElements h1 vs))
  | object [] => by simp [print, Stays, depthOf]; omega
  | object ((k, v) :: ps) => by
    have h1 : b ≤ d + depthOf 123 := by simp [depthOf]; omega
    rw [print]
    exact Stays.cons hd (by decide) (by decide)
      (stays_member h1 k (stays_then (stays_print h1 v) (ends_print v) (stays_printMembers h1 ps)))

theorem stays_printElements {b d : Int} (hd : b ≤ d) : ∀ vs : List Json, Stays b outside d (printElements vs)
  | [] => by simp [printElements, Stays, hd]
  | v :: vs => by
    rw [printElements]
    exact stays_comma hd (stays_then (stays_print hd v) (ends_print v) (stays_printElements hd vs))

theorem stays_printMembers {b d : Int} (hd : b ≤ d) :
    ∀ ps : List (Bytes × Json), Stays b outside d (printMembers ps)
  | [] => by simp [printMembers, Stays, hd]
  | (k, v) :: ps => by
    rw [printMembers]
    exact stays_comma hd
      (stays_member hd k (stays_then (stays_print hd v) (ends_print v) (stays_printMembers hd ps)))

end

/-- Every cut inside of a printed object lies at depth one or more. -/
lemma print_object_cut {m : List (Bytes × Json)} {t u : Bytes} (h : print (object m) = t ++ u)
    (ht : t ≠ []) (hu : u ≠ []) : ∃ s e, scan outside 0 t = some (s, e) ∧ 1 ≤ e := by
  obtain ⟨w, hw, hs⟩ : ∃ w, print (object m) = 123 :: w ∧ Stays 1 outside 1 w := by
    cases m with
    | nil => exact ⟨[125], by rw [print], by simp [Stays]⟩
    | cons p ps =>
      obtain ⟨k, v⟩ := p
      refine ⟨_, by rw [print], ?_⟩
      exact stays_member le_rfl k (stays_then (stays_print le_rfl v) (ends_print v) (stays_printMembers le_rfl ps))
  cases t with
  | nil => exact absurd rfl ht
  | cons c t =>
    rw [hw, List.cons_append, List.cons.injEq] at h
    obtain ⟨rfl, rfl⟩ := h
    obtain ⟨s, e, h1, h2⟩ := hs.cut hu
    exact ⟨s, e, by simpa [scan, depthOf] using h1, h2⟩

/-- No proper suffix of a printed object is a document. -/
theorem parse_suffix {m : List (Bytes × Json)} {t u : Bytes} (h : print (object m) = t ++ u) (ht : t ≠ []) :
    parse u = none := by
  by_contra hp
  obtain ⟨j, hj⟩ := Option.ne_none_iff_exists'.mp hp
  have hu : u ≠ [] := by
    rintro rfl
    simp [parse, parseValue] at hj
  obtain ⟨s, e, hs, he⟩ := print_object_cut h ht hu
  have hend : scan s e u = some (outside, 0) := by
    have := ends_print (object m) 0
    rwa [h, scan_append, hs] at this
  have hsuf := parse_ends hj
  cases s with
  | outside =>
    -- the same scan, `e` levels deeper
    have := hsuf e
    rw [hend] at this
    simp at this
    omega
  | inString => exact scan_opposite u e 0 0 _ ⟨hend, hsuf 0⟩
  | afterBackslash =>
    cases u with
    | nil => exact hu rfl
    | cons c u =>
      have h0 := hsuf 0
      simp only [scan] at hend h0
      split_ifs at h0 with h1 h2
      · -- both scans are inside the string now
        have hshift := scan_shift inString 0 e u
        rw [h0, zero_add, hend] at hshift
        simp at hshift
        omega
      · exact scan_opposite u e _ 0 _ ⟨hend, h0⟩

end Json

/-- The printer and the parser of this library. -/
def compactJson : JsonLibrary where
  print := Json.print
  parse := Json.parse
  parse_print := Json.parse_print
  zero_notMem_print := Json.zero_notMem_print
  parse_suffix := fun _ _ _ h ht => Json.parse_suffix h ht

end IcebergCxx.Lib

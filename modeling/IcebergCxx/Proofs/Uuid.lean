import IcebergCxx.Uuid

/-!
# The grammar of UUIDs

The parser takes a UUID off the front of the text and does not look at what follows. It accepts
exactly the texts that begin with a UUID, and so it is exact for every text that does not go on
after one.
-/

namespace IcebergCxx.Proofs

open Lib Uuid

/-- `n` hexadecimal digits. -/
def HexText (n : Nat) (s : Bytes) : Prop := s.length = n ∧ ∀ c ∈ s, Hex.isDigit c = true

instance (n : Nat) (s : Bytes) : Decidable (HexText n s) := inferInstanceAs (Decidable (_ ∧ _))

/-- The digits of the five fields of a UUID. -/
structure UuidGroups where
  timeLow : Bytes
  timeMid : Bytes
  timeHiAndVersion : Bytes
  clockSeq : Bytes
  node : Bytes
  timeLow_hex : HexText 8 timeLow
  timeMid_hex : HexText 4 timeMid
  timeHiAndVersion_hex : HexText 4 timeHiAndVersion
  clockSeq_hex : HexText 4 clockSeq
  node_hex : HexText 12 node

/-- The groups one after the other, with a separator between them. -/
def UuidGroups.join (g : UuidGroups) (sep : Bytes) : Bytes :=
  g.timeLow ++ (sep ++ (g.timeMid ++ (sep ++ (g.timeHiAndVersion ++ (sep ++ (g.clockSeq ++ (sep ++ g.node)))))))

/-- Exactly 32 digits, or 8-4-4-4-12 digits with hyphens between the groups. -/
def UuidText (s : Bytes) : Prop := HexText 32 s ∨ ∃ g : UuidGroups, s = g.join [45]

/-- The digits of a text in lower case and with hyphens. -/
def hyphenatedForm (s : Bytes) : Bytes :=
  let ds := (s.filter (fun c => c ≠ 45)).map Hex.lower
  ds.take 8 ++ [45] ++ (ds.drop 8).take 4 ++ [45] ++ (ds.drop 12).take 4 ++ [45] ++ (ds.drop 16).take 4 ++ [45] ++
    ds.drop 20

/-- A text that goes on after a UUID. -/
def GoesOnAfterUuid (s : Bytes) : Prop := ∃ t, t <+: s ∧ t ≠ s ∧ UuidText t

/-- `Parse` accepts the text exactly when it is that of a UUID, reads this UUID, and otherwise throws and keeps the
object. -/
structure ParsesExactly (s : Bytes) : Prop where
  accepts : ∀ self, (∃ u, parse self s = (.ok (), u)) ↔ UuidText s
  prints : ∀ self u, parse self s = (.ok (), u) → u.toText = hyphenatedForm s
  keeps : ∀ self failure self', parse self s = (.error failure, self') →
    (∃ message, failure = .thrown message) ∧ self' = self

/-! ### Digits of a field -/

lemma nibble_eq : ∀ c : Byte, nibble c = (Hex.digitValue c).elim (-1) (fun n => (n : Int)) := by decide +kernel

lemma nextNibble_digit {c : Byte} {n : Nat} (h : Hex.digitValue c = some n) (uuid it : Bytes) (description : String) :
    nextNibble uuid description (c :: it) = .ok (n, it) := by
  have hn : nibble c = n := by
    rw [nibble_eq, h]
    rfl
  rw [nextNibble, hn, if_neg (by omega), Int.toNat_natCast]

lemma nextNibble_other {c : Byte} (h : Hex.isDigit c = false) (uuid it : Bytes) (description : String) :
    nextNibble uuid description (c :: it) = throwIncorrect uuid description := by
  have hnone : Hex.digitValue c = none := by simpa [Hex.isDigit] using h
  have hn : nibble c = -1 := by
    rw [nibble_eq, hnone]
    rfl
  rw [nextNibble, hn, if_pos (by decide)]

lemma or_digit (v : Nat) {n : Nat} (h : n < 16) : v <<< 4 ||| n = 16 * v + n := by
  rw [Nat.shiftLeft_eq, mul_comm]
  exact (Nat.two_pow_add_eq_or_of_lt (i := 4) h v).symm

lemma ofNat_or_digit (w v : Nat) {n : Nat} (h : n < 16) :
    BitVec.ofNat w v <<< 4 ||| BitVec.ofNat w n = BitVec.ofNat w (16 * v + n) := by
  apply BitVec.eq_of_toNat_eq
  rw [← or_digit v h]
  simp only [BitVec.toNat_or, BitVec.toNat_shiftLeft, BitVec.toNat_ofNat, Nat.or_mod_two_pow]
  congr 1
  rw [Nat.shiftLeft_eq, Nat.shiftLeft_eq, Nat.mod_mul_mod]

lemma foldl_digits (v : Nat) (c : Byte) (ds : Bytes) :
    (c :: ds).foldl (fun v c => 16 * v + (Hex.digitValue c).getD 0) v =
      ds.foldl (fun v c => 16 * v + (Hex.digitValue c).getD 0) (16 * v + (Hex.digitValue c).getD 0) := rfl

/-- Enough characters are digits, which are read, or one of them is not and is reported. -/
lemma setDigits_cases (uuid : Bytes) (description : String) {w : Nat} (n v : Nat) (it : Bytes) (h : n ≤ it.length) :
    (∃ ds rest, it = ds ++ rest ∧ HexText n ds ∧ setDigits uuid description n (BitVec.ofNat w v) it =
      .ok (BitVec.ofNat w (ds.foldl (fun v c => 16 * v + (Hex.digitValue c).getD 0) v), rest)) ∨
    (¬(∀ c ∈ it.take n, Hex.isDigit c = true)) ∧
      ∃ message, setDigits uuid description n (BitVec.ofNat w v) it = .error (.thrown message) := by
  induction n generalizing v it with
  | zero => exact .inl ⟨[], it, rfl, ⟨rfl, by simp⟩, rfl⟩
  | succ n ih =>
    obtain ⟨c, it, rfl⟩ : ∃ c l, it = c :: l := List.exists_cons_of_length_pos (by omega)
    cases hc : Hex.isDigit c with
    | false =>
      refine .inr ⟨fun hall => ?_, "Incorrect uuid " ++ text uuid ++ " : " ++ description, ?_⟩
      · exact absurd (hall c (by simp)) (by simp [hc])
      · rw [setDigits, nextNibble_other hc]
        rfl
    | true =>
      obtain ⟨x, hx⟩ := Hex.isDigit_iff.mp hc
      have hstep : setDigits uuid description (n + 1) (BitVec.ofNat w v) (c :: it) =
          setDigits uuid description n (BitVec.ofNat w (16 * v + x)) it := by
        rw [setDigits, nextNibble_digit hx, ← ofNat_or_digit w v (Hex.digitValue_lt hx)]
        rfl
      rw [hstep]
      rcases ih (16 * v + x) it (by simpa using h) with ⟨ds, rest, rfl, hds, hread⟩ | ⟨hnot, message, hthrow⟩
      · refine .inl ⟨c :: ds, rest, rfl, ⟨by simp [hds.1], ?_⟩, ?_⟩
        · exact List.forall_mem_cons.mpr ⟨hc, hds.2⟩
        · rw [hread, foldl_digits, hx, Option.getD_some]
      · refine .inr ⟨fun hall => hnot (fun d hd => hall d ?_), message, hthrow⟩
        rw [List.take_succ_cons]
        exact List.mem_cons_of_mem _ hd

def separatorLength (haveHyphens : Bool) : Nat := if haveHyphens then 1 else 0

lemma skipHyphen_append {haveHyphens : Bool} {it : Bytes} (h : separatorLength haveHyphens ≤ it.length) :
    ∃ sep rest, it = sep ++ rest ∧ sep.length = separatorLength haveHyphens ∧ skipHyphen haveHyphens it = .ok rest := by
  cases haveHyphens with
  | false => exact ⟨[], it, rfl, rfl, rfl⟩
  | true =>
    obtain ⟨c, it, rfl⟩ : ∃ c l, it = c :: l := List.exists_cons_of_length_pos h
    exact ⟨[c], it, rfl, rfl, rfl⟩

/-- What `setField` does where the text is long enough. -/
lemma setField_cases (uuid : Bytes) (haveHyphens : Bool) {w : Nat} (description : String) (it : Bytes)
    (h : w / 4 + separatorLength haveHyphens ≤ it.length) :
    (∃ ds sep rest, it = ds ++ (sep ++ rest) ∧ HexText (w / 4) ds ∧ sep.length = separatorLength haveHyphens ∧
      setField uuid haveHyphens w description it = .ok (BitVec.ofNat w (Hex.value ds), rest)) ∨
    (¬(∀ c ∈ it.take (w / 4), Hex.isDigit c = true)) ∧
      ∃ message, setField uuid haveHyphens w description it = .error (.thrown message) := by
  rcases setDigits_cases uuid ("error while parsing field" ++ description) (w := w) (w / 4) 0 it (by omega) with
    ⟨ds, rest, rfl, hds, hread⟩ | ⟨hnot, message, hthrow⟩
  · have hlen : separatorLength haveHyphens ≤ rest.length := by
      rw [List.length_append, hds.1] at h
      omega
    obtain ⟨sep, rest, rfl, hsep, hskip⟩ := skipHyphen_append hlen
    refine .inl ⟨ds, sep, rest, rfl, hds, hsep, ?_⟩
    have hread' : setDigits uuid ("error while parsing field" ++ description) (w / 4) (0 : BitVec w)
        (ds ++ (sep ++ rest)) = .ok (BitVec.ofNat w (Hex.value ds), sep ++ rest) := hread
    rw [setField, hread']
    change (skipHyphen haveHyphens (sep ++ rest) >>= fun it => .ok (BitVec.ofNat w (Hex.value ds), it)) = _
    rw [hskip]
    rfl
  · refine .inr ⟨hnot, message, ?_⟩
    have hthrow' : setDigits uuid ("error while parsing field" ++ description) (w / 4) (0 : BitVec w) it =
        .error (.thrown message) := hthrow
    rw [setField, hthrow']
    rfl

/-! ### The node -/

/-- The bytes that pairs of digits denote. -/
def nodeBytes : Nat → Bytes → List (BitVec 8)
  | 0, _ => []
  | n + 1, ds => BitVec.ofNat 8 (Hex.value (ds.take 2)) :: nodeBytes n (ds.drop 2)

lemma setNode_cases (uuid : Bytes) (n : Nat) (it : Bytes) (h : 2 * n ≤ it.length) :
    (∃ ds rest, it = ds ++ rest ∧ HexText (2 * n) ds ∧ setNode uuid n it = .ok (nodeBytes n ds, rest)) ∨
    (¬(∀ c ∈ it.take (2 * n), Hex.isDigit c = true)) ∧
      ∃ message, setNode uuid n it = .error (.thrown message) := by
  induction n generalizing it with
  | zero => exact .inl ⟨[], it, rfl, ⟨rfl, by simp⟩, rfl⟩
  | succ n ih =>
    obtain ⟨c1, it, rfl⟩ : ∃ c l, it = c :: l := List.exists_cons_of_length_pos (by omega)
    obtain ⟨c2, it, rfl⟩ : ∃ c l, it = c :: l := List.exists_cons_of_length_pos (by simp at h; omega)
    have hlen : 2 * n ≤ it.length := by simp at h; omega
    have htake : (c1 :: c2 :: it).take (2 * (n + 1)) = c1 :: c2 :: it.take (2 * n) := rfl
    rw [htake]
    cases h1 : Hex.isDigit c1 with
    | false =>
      refine .inr ⟨fun hall => absurd (hall c1 (by simp)) (by simp [h1]),
        "Incorrect uuid " ++ text uuid ++ " : " ++ "incorrect mac address", ?_⟩
      rw [setNode, nextNibble_other h1]
      rfl
    | true =>
      obtain ⟨n1, hn1⟩ := Hex.isDigit_iff.mp h1
      cases h2 : Hex.isDigit c2 with
      | false =>
        refine .inr ⟨fun hall => absurd (hall c2 (by simp)) (by simp [h2]),
          "Incorrect uuid " ++ text uuid ++ " : " ++ "incorrect mac address", ?_⟩
        rw [setNode, nextNibble_digit hn1]
        change (nextNibble uuid "incorrect mac address" (c2 :: it) >>= _) = _
        rw [nextNibble_other h2]
        rfl
      | true =>
        obtain ⟨n2, hn2⟩ := Hex.isDigit_iff.mp h2
        have hstep : setNode uuid (n + 1) (c1 :: c2 :: it) =
            (setNode uuid n it >>= fun p => .ok (BitVec.ofNat 8 (n1 <<< 4 ||| n2) :: p.1, p.2)) := by
          rw [setNode, nextNibble_digit hn1]
          change (nextNibble uuid "incorrect mac address" (c2 :: it) >>= _) = _
          rw [nextNibble_digit hn2]
          rfl
        rcases ih _ hlen with ⟨ds, rest, rfl, hds, hread⟩ | ⟨hnot, message, hthrow⟩
        · refine .inl ⟨c1 :: c2 :: ds, rest, rfl, ⟨by simp [hds.1]; omega, ?_⟩, ?_⟩
          · exact List.forall_mem_cons.mpr ⟨h1, List.forall_mem_cons.mpr ⟨h2, hds.2⟩⟩
          · have hvalue : Hex.value [c1, c2] = n1 <<< 4 ||| n2 := by
              rw [or_digit n1 (Hex.digitValue_lt hn2)]
              simp [Hex.value, hn1, hn2]
            rw [hstep, hread, ← hvalue]
            rfl
        · refine .inr ⟨fun hall => hnot (fun d hd => hall d (by simp [hd])), message, ?_⟩
          rw [hstep, hthrow]
          rfl

lemma length_nodeBytes (n : Nat) (ds : Bytes) : (nodeBytes n ds).length = n := by
  induction n generalizing ds with
  | zero => rfl
  | succ n ih => rw [nodeBytes, List.length_cons, ih]

/-! ### Printing -/

lemma digitAt_eq : ∀ i < 16, digitAt i = Hex.digit i := by decide

lemma appendHex8_eq (str : Bytes) (n : BitVec 8) : appendHex8 str n = str ++ Hex.numeral 2 n.toNat := by
  have hlt := n.isLt
  have hhigh : ((n >>> 4) &&& 0xF).toNat = n.toNat / 16 % 16 := by
    rw [BitVec.toNat_and, BitVec.toNat_ushiftRight, Nat.shiftRight_eq_div_pow]
    exact Nat.and_two_pow_sub_one_eq_mod _ 4
  have hlow : (n &&& 0xF).toNat = n.toNat % 16 := by
    rw [BitVec.toNat_and]
    exact Nat.and_two_pow_sub_one_eq_mod _ 4
  rw [appendHex8, hhigh, hlow, digitAt_eq _ (Nat.mod_lt _ (by norm_num)), digitAt_eq _ (Nat.mod_lt _ (by norm_num)),
    List.append_assoc]
  rfl

lemma appendHex16_eq (str : Bytes) (n : BitVec 16) : appendHex16 str n = str ++ Hex.numeral 4 n.toNat := by
  have hlt := n.isLt
  have hhigh : ((n >>> 8).setWidth 8).toNat = n.toNat / 16 ^ 2 := by
    rw [BitVec.toNat_setWidth, BitVec.toNat_ushiftRight, Nat.shiftRight_eq_div_pow]
    omega
  have hlow : ((n &&& 0xFF).setWidth 8).toNat = n.toNat % 16 ^ 2 := by
    rw [BitVec.toNat_setWidth, BitVec.toNat_and]
    have : n.toNat &&& (0xFF : BitVec 16).toNat = n.toNat % 2 ^ 8 := Nat.and_two_pow_sub_one_eq_mod _ 8
    omega
  rw [appendHex16, appendHex8_eq, appendHex8_eq, hhigh, hlow, List.append_assoc, ← Hex.numeral_add 2 2]

lemma appendHex32_eq (str : Bytes) (n : BitVec 32) : appendHex32 str n = str ++ Hex.numeral 8 n.toNat := by
  have hlt := n.isLt
  have hhigh : ((n >>> 16).setWidth 16).toNat = n.toNat / 16 ^ 4 := by
    rw [BitVec.toNat_setWidth, BitVec.toNat_ushiftRight, Nat.shiftRight_eq_div_pow]
    omega
  have hlow : ((n &&& 0xFFFF).setWidth 16).toNat = n.toNat % 16 ^ 4 := by
    rw [BitVec.toNat_setWidth, BitVec.toNat_and]
    have : n.toNat &&& (0xFFFF : BitVec 32).toNat = n.toNat % 2 ^ 16 := Nat.and_two_pow_sub_one_eq_mod _ 16
    omega
  rw [appendHex32, appendHex16_eq, appendHex16_eq, hhigh, hlow, List.append_assoc, ← Hex.numeral_add 4 4]

lemma foldl_appendHex8 (str : Bytes) (node : List (BitVec 8)) :
    node.foldl appendHex8 str = str ++ node.flatMap (fun n => Hex.numeral 2 n.toNat) := by
  induction node generalizing str with
  | nil => simp
  | cons n node ih => rw [List.foldl_cons, ih, appendHex8_eq, List.flatMap_cons, List.append_assoc]

lemma toText_eq (u : Uuid) :
    u.toText = Hex.numeral 8 u.timeLow.toNat ++ [45] ++ Hex.numeral 4 u.timeMid.toNat ++ [45] ++
      Hex.numeral 4 u.timeHiAndVersion.toNat ++ [45] ++ Hex.numeral 4 u.clockSeq.toNat ++ [45] ++
      u.node.toList.flatMap (fun n => Hex.numeral 2 n.toNat) := by
  simp only [toText, foldl_appendHex8, appendHex16_eq, appendHex32_eq, List.nil_append]

lemma nodeBytes_numerals {n : Nat} {ds : Bytes} (h : HexText (2 * n) ds) :
    (nodeBytes n ds).flatMap (fun n => Hex.numeral 2 n.toNat) = ds.map Hex.lower := by
  induction n generalizing ds with
  | zero => rw [List.length_eq_zero_iff.mp h.1]; rfl
  | succ n ih =>
    have htake : HexText 2 (ds.take 2) := by
      refine ⟨?_, fun c hc => h.2 c (List.mem_of_mem_take hc)⟩
      rw [List.length_take, h.1]
      omega
    have hdrop : HexText (2 * n) (ds.drop 2) := by
      refine ⟨?_, fun c hc => h.2 c (List.mem_of_mem_drop hc)⟩
      rw [List.length_drop, h.1]
      omega
    have hvalue : (BitVec.ofNat 8 (Hex.value (ds.take 2))).toNat = Hex.value (ds.take 2) := by
      have hlt := Hex.value_lt (ds.take 2)
      rw [htake.1] at hlt
      exact Nat.mod_eq_of_lt (by omega)
    have hnumeral := Hex.numeral_value _ htake.2
    rw [htake.1] at hnumeral
    rw [nodeBytes, List.flatMap_cons, hvalue, hnumeral, ih hdrop, ← List.map_append, List.take_append_drop]

/-! ### The groups of a text -/

namespace UuidGroups

/-- The UUID with these digits. -/
def uuid (g : UuidGroups) : Uuid where
  timeLow := BitVec.ofNat 32 (Hex.value g.timeLow)
  timeMid := BitVec.ofNat 16 (Hex.value g.timeMid)
  timeHiAndVersion := BitVec.ofNat 16 (Hex.value g.timeHiAndVersion)
  clockSeq := BitVec.ofNat 16 (Hex.value g.clockSeq)
  node := Vector.ofFn (fun i => (nodeBytes 6 g.node).getD i 0)

lemma length_join (g : UuidGroups) (sep : Bytes) : (g.join sep).length = 32 + 4 * sep.length := by
  simp only [join, List.length_append, g.timeLow_hex.1, g.timeMid_hex.1, g.timeHiAndVersion_hex.1, g.clockSeq_hex.1,
    g.node_hex.1]
  omega

lemma hexText_join_nil (g : UuidGroups) : HexText 32 (g.join []) := by
  refine ⟨g.length_join [], ?_⟩
  simp only [join, List.nil_append, List.mem_append]
  rintro c (h | h | h | h | h)
  · exact g.timeLow_hex.2 c h
  · exact g.timeMid_hex.2 c h
  · exact g.timeHiAndVersion_hex.2 c h
  · exact g.clockSeq_hex.2 c h
  · exact g.node_hex.2 c h

end UuidGroups

lemma hexText_slice {k : Nat} {s : Bytes} (h : HexText k s) (i n : Nat) (hin : i + n ≤ k) :
    HexText n ((s.drop i).take n) := by
  refine ⟨?_, fun c hc => h.2 c (List.mem_of_mem_drop (List.mem_of_mem_take hc))⟩
  rw [List.length_take, List.length_drop, h.1]
  omega

/-- 32 digits are five groups. -/
lemma exists_groups {s : Bytes} (h : HexText 32 s) : ∃ g : UuidGroups, s = g.join [] := by
  refine ⟨⟨(s.drop 0).take 8, (s.drop 8).take 4, (s.drop 12).take 4, (s.drop 16).take 4, (s.drop 20).take 12,
    hexText_slice h 0 8 (by omega), hexText_slice h 8 4 (by omega), hexText_slice h 12 4 (by omega),
    hexText_slice h 16 4 (by omega), hexText_slice h 20 12 (by omega)⟩, ?_⟩
  have hlast : (s.drop 20).take 12 = s.drop 20 := List.take_of_length_le (by rw [List.length_drop, h.1])
  have hstep : ∀ i n, s.drop i = (s.drop i).take n ++ s.drop (i + n) := by
    intro i n
    rw [← List.drop_drop, List.take_append_drop]
  simp only [UuidGroups.join, List.nil_append, hlast]
  rw [← hstep 16 4, ← hstep 12 4, ← hstep 8 4, ← hstep 0 8, List.drop_zero]

lemma uuidText_iff {s : Bytes} : UuidText s ↔ ∃ g : UuidGroups, ∃ sep, (sep = [] ∨ sep = [45]) ∧ s = g.join sep := by
  constructor
  · rintro (h | ⟨g, rfl⟩)
    · obtain ⟨g, hg⟩ := exists_groups h
      exact ⟨g, [], .inl rfl, hg⟩
    · exact ⟨g, [45], .inr rfl, rfl⟩
  · rintro ⟨g, sep, rfl | rfl, rfl⟩
    · exact .inl g.hexText_join_nil
    · exact .inr ⟨g, rfl⟩

/-- The character after the first group tells the two forms apart. -/
lemma getElem?_join_eight (g : UuidGroups) (rest : Bytes) :
    (∃ c, (g.join [] ++ rest)[8]? = some c ∧ Hex.isDigit c = true) ∧ (g.join [45] ++ rest)[8]? = some 45 := by
  have hskip : ∀ l : Bytes, (g.timeLow ++ l)[8]? = l[0]? := by
    intro l
    rw [List.getElem?_append_right (by rw [g.timeLow_hex.1]), g.timeLow_hex.1]
  constructor
  · obtain ⟨c, l, hl⟩ : ∃ c l, g.timeMid = c :: l := List.exists_cons_of_length_pos (by rw [g.timeMid_hex.1]; norm_num)
    refine ⟨c, ?_, g.timeMid_hex.2 c (by rw [hl]; simp)⟩
    rw [UuidGroups.join, List.append_assoc, hskip, hl]
    rfl
  · rw [UuidGroups.join, List.append_assoc, hskip]
    rfl

/-- No text of a UUID is a proper prefix of another. -/
lemma uuidText_front {t s : Bytes} (h : t <+: s) (ht : UuidText t) (hs : UuidText s) : t = s := by
  obtain ⟨g, sep, hsep, rfl⟩ := uuidText_iff.mp ht
  obtain ⟨g', sep', hsep', rfl⟩ := uuidText_iff.mp hs
  have hle := h.length_le
  rw [g.length_join, g'.length_join] at hle
  rcases hsep with rfl | rfl
  · rcases hsep' with rfl | rfl
    · exact h.eq_of_length (by rw [g.length_join, g'.length_join])
    · obtain ⟨rest, hrest⟩ := h
      obtain ⟨⟨c, hc, hdigit⟩, -⟩ := getElem?_join_eight g rest
      have hhyphen := (getElem?_join_eight g' []).2
      rw [List.append_nil, ← hrest, hc] at hhyphen
      exact absurd (Option.some.inj hhyphen) (Hex.ne_hyphen_of_isDigit hdigit)
  · rcases hsep' with rfl | rfl
    · simp at hle
    · exact h.eq_of_length (by rw [g.length_join, g'.length_join])

/-! ### Reading the groups -/

lemma setField_append (uuid : Bytes) {haveHyphens : Bool} {w : Nat} (description : String) {ds sep : Bytes}
    (hds : HexText (w / 4) ds) (hsep : sep.length = separatorLength haveHyphens) (rest : Bytes) :
    setField uuid haveHyphens w description (ds ++ (sep ++ rest)) = .ok (BitVec.ofNat w (Hex.value ds), rest) := by
  have hlen : w / 4 + separatorLength haveHyphens ≤ (ds ++ (sep ++ rest)).length := by
    rw [List.length_append, List.length_append, hds.1, hsep]
    omega
  rcases setField_cases uuid haveHyphens description _ hlen with ⟨ds', sep', rest', heq, hds', hsep', hread⟩ | ⟨hnot, -⟩
  · obtain ⟨h1, h2⟩ := List.append_inj heq (hds.1.trans hds'.1.symm)
    obtain ⟨h3, h4⟩ := List.append_inj h2 (hsep.trans hsep'.symm)
    rw [hread, h1, h4]
  · refine absurd (fun c hc => hds.2 c ?_) hnot
    rwa [List.take_append_of_le_length hds.1.ge, List.take_of_length_le hds.1.le] at hc

lemma setNode_append (uuid : Bytes) {n : Nat} {ds : Bytes} (hds : HexText (2 * n) ds) (rest : Bytes) :
    setNode uuid n (ds ++ rest) = .ok (nodeBytes n ds, rest) := by
  have hlen : 2 * n ≤ (ds ++ rest).length := by
    rw [List.length_append, hds.1]
    omega
  rcases setNode_cases uuid n _ hlen with ⟨ds', rest', heq, hds', hread⟩ | ⟨hnot, -⟩
  · obtain ⟨h1, h2⟩ := List.append_inj heq (hds.1.trans hds'.1.symm)
    rw [hread, h1, h2]
  · refine absurd (fun c hc => hds.2 c ?_) hnot
    rwa [List.take_append_of_le_length hds.1.ge, List.take_of_length_le hds.1.le] at hc

/-- The steps of `parseFields`, once each of them is known. -/
lemma parseFields_eq {uuid it1 it2 it3 it4 it5 : Bytes} {haveHyphens : Bool} {timeLow : BitVec 32}
    {timeMid timeHiAndVersion clockSeq : BitVec 16} {node : List (BitVec 8)}
    (h1 : setField uuid haveHyphens 32 "time_low" uuid = .ok (timeLow, it1))
    (h2 : setField uuid haveHyphens 16 "time_mid" it1 = .ok (timeMid, it2))
    (h3 : setField uuid haveHyphens 16 "time_hi_and_version" it2 = .ok (timeHiAndVersion, it3))
    (h4 : setField uuid haveHyphens 16 "clock_seq" it3 = .ok (clockSeq, it4)) (h5 : setNode uuid 6 it4 = .ok (node, it5)) :
    parseFields uuid haveHyphens =
      .ok ⟨timeLow, timeMid, timeHiAndVersion, clockSeq, Vector.ofFn (fun i => node.getD i 0)⟩ := by
  simp only [parseFields, h1, h2, h3, h4, h5, bind, Except.bind]
  rfl

lemma parseFields_join (g : UuidGroups) {sep : Bytes} {haveHyphens : Bool}
    (hsep : sep.length = separatorLength haveHyphens) (rest : Bytes) :
    parseFields (g.join sep ++ rest) haveHyphens = .ok g.uuid := by
  have hassoc : g.join sep ++ rest = g.timeLow ++ (sep ++ (g.timeMid ++ (sep ++ (g.timeHiAndVersion ++ (sep ++
      (g.clockSeq ++ (sep ++ (g.node ++ rest)))))))) := by
    simp only [UuidGroups.join, List.append_assoc]
  have hfirst : setField (g.join sep ++ rest) haveHyphens 32 "time_low" (g.join sep ++ rest) =
      .ok (BitVec.ofNat 32 (Hex.value g.timeLow), g.timeMid ++ (sep ++ (g.timeHiAndVersion ++ (sep ++
        (g.clockSeq ++ (sep ++ (g.node ++ rest))))))) := by
    conv_lhs => rw [hassoc]
    exact setField_append _ _ g.timeLow_hex hsep _
  exact parseFields_eq hfirst (setField_append _ _ g.timeMid_hex hsep _)
    (setField_append _ _ g.timeHiAndVersion_hex hsep _) (setField_append _ _ g.clockSeq_hex hsep _)
    (setNode_append (n := 6) _ g.node_hex rest)

/-- A text that is long enough begins with five groups, or `parseFields` throws. -/
lemma parseFields_cases (uuid : Bytes) (haveHyphens : Bool) (hlen : 32 + 4 * separatorLength haveHyphens ≤ uuid.length) :
    (∃ (g : UuidGroups) (s1 s2 s3 s4 rest : Bytes),
      uuid = g.timeLow ++ (s1 ++ (g.timeMid ++ (s2 ++ (g.timeHiAndVersion ++ (s3 ++ (g.clockSeq ++ (s4 ++
        (g.node ++ rest)))))))) ∧
      s1.length = separatorLength haveHyphens ∧ s2.length = separatorLength haveHyphens ∧
      s3.length = separatorLength haveHyphens ∧ s4.length = separatorLength haveHyphens ∧
      parseFields uuid haveHyphens = .ok g.uuid) ∨
    ∃ message, parseFields uuid haveHyphens = .error (.thrown message) := by
  rcases setField_cases uuid haveHyphens (w := 32) "time_low" uuid (by omega) with
    ⟨a, s1, it1, h1, ha, hs1, hread1⟩ | ⟨-, message, hthrow⟩
  swap
  · exact .inr ⟨message, by rw [parseFields, hthrow]; rfl⟩
  have hlen1 := congrArg List.length h1
  simp only [List.length_append, ha.1, hs1] at hlen1
  rcases setField_cases uuid haveHyphens (w := 16) "time_mid" it1 (by omega) with
    ⟨b, s2, it2, h2, hb, hs2, hread2⟩ | ⟨-, message, hthrow⟩
  swap
  · exact .inr ⟨message, by simp only [parseFields, hread1, hthrow, bind, Except.bind]⟩
  have hlen2 := congrArg List.length h2
  simp only [List.length_append, hb.1, hs2] at hlen2
  rcases setField_cases uuid haveHyphens (w := 16) "time_hi_and_version" it2 (by omega) with
    ⟨c, s3, it3, h3, hc, hs3, hread3⟩ | ⟨-, message, hthrow⟩
  swap
  · exact .inr ⟨message, by simp only [parseFields, hread1, hread2, hthrow, bind, Except.bind]⟩
  have hlen3 := congrArg List.length h3
  simp only [List.length_append, hc.1, hs3] at hlen3
  rcases setField_cases uuid haveHyphens (w := 16) "clock_seq" it3 (by omega) with
    ⟨d, s4, it4, h4, hd, hs4, hread4⟩ | ⟨-, message, hthrow⟩
  swap
  · exact .inr ⟨message, by simp only [parseFields, hread1, hread2, hread3, hthrow, bind, Except.bind]⟩
  have hlen4 := congrArg List.length h4
  simp only [List.length_append, hd.1, hs4] at hlen4
  rcases setNode_cases uuid 6 it4 (by omega) with ⟨e, rest, h5, he, hread5⟩ | ⟨-, message, hthrow⟩
  swap
  · exact .inr ⟨message, by simp only [parseFields, hread1, hread2, hread3, hread4, hthrow, bind, Except.bind]⟩
  refine .inl ⟨⟨a, b, c, d, e, ha, hb, hc, hd, he⟩, s1, s2, s3, s4, rest, ?_, hs1, hs2, hs3, hs4,
    parseFields_eq hread1 hread2 hread3 hread4 hread5⟩
  rw [h1, h2, h3, h4, h5]

/-! ### The parser -/

lemma getElem?_skip {a : Bytes} {n : Nat} (h : a.length = n) (b : Bytes) (k : Nat) : (a ++ b)[n + k]? = b[k]? := by
  rw [List.getElem?_append_right (by omega), h, Nat.add_sub_cancel_left]

/-- The characters at the four positions, for groups that are one character apart. -/
lemma getElem?_separators (g : UuidGroups) (s1 s2 s3 s4 rest : Bytes) (h1 : s1.length = 1) (h2 : s2.length = 1)
    (h3 : s3.length = 1) (h4 : s4.length = 1) :
    let s := g.timeLow ++ (s1 ++ (g.timeMid ++ (s2 ++ (g.timeHiAndVersion ++ (s3 ++ (g.clockSeq ++ (s4 ++
      (g.node ++ rest))))))))
    s[8]? = s1[0]? ∧ s[13]? = s2[0]? ∧ s[18]? = s3[0]? ∧ s[23]? = s4[0]? := by
  intro s
  have hhead : ∀ {sep : Bytes}, sep.length = 1 → ∀ l : Bytes, (sep ++ l)[0]? = sep[0]? := by
    intro sep hsep l
    exact List.getElem?_append_left (by omega)
  have hlow : ∀ k, s[8 + k]? = _ := getElem?_skip g.timeLow_hex.1 _
  have hlow1 : ∀ k, s[8 + (1 + k)]? = _ := fun k => (hlow (1 + k)).trans (getElem?_skip h1 _ k)
  have hmid : ∀ k, s[8 + (1 + (4 + k))]? = _ := fun k => (hlow1 (4 + k)).trans (getElem?_skip g.timeMid_hex.1 _ k)
  have hmid1 : ∀ k, s[8 + (1 + (4 + (1 + k)))]? = _ := fun k => (hmid (1 + k)).trans (getElem?_skip h2 _ k)
  have hhi : ∀ k, s[8 + (1 + (4 + (1 + (4 + k))))]? = _ :=
    fun k => (hmid1 (4 + k)).trans (getElem?_skip g.timeHiAndVersion_hex.1 _ k)
  have hhi1 : ∀ k, s[8 + (1 + (4 + (1 + (4 + (1 + k)))))]? = _ := fun k => (hhi (1 + k)).trans (getElem?_skip h3 _ k)
  have hclock : ∀ k, s[8 + (1 + (4 + (1 + (4 + (1 + (4 + k))))))]? = _ :=
    fun k => (hhi1 (4 + k)).trans (getElem?_skip g.clockSeq_hex.1 _ k)
  exact ⟨(hlow 0).trans (hhead h1 _), (hmid 0).trans (hhead h2 _), (hhi 0).trans (hhead h3 _),
    (hclock 0).trans (hhead h4 _)⟩

lemma hasHyphens_join_hyphen (g : UuidGroups) (rest : Bytes) : hasHyphens (g.join [45] ++ rest) = .ok true := by
  obtain ⟨h1, h2, h3, h4⟩ := getElem?_separators g [45] [45] [45] [45] rest rfl rfl rfl rfl
  have hassoc : g.join [45] ++ rest = g.timeLow ++ ([45] ++ (g.timeMid ++ ([45] ++ (g.timeHiAndVersion ++ ([45] ++
      (g.clockSeq ++ ([45] ++ (g.node ++ rest)))))))) := by
    simp only [UuidGroups.join, List.append_assoc]
  have hlen : maxUuidLength ≤ (g.join [45] ++ rest).length := by
    rw [List.length_append, g.length_join]
    simp [maxUuidLength]
  have hall : separateIndices.all (fun ind => (g.join [45] ++ rest)[ind]? = some 45) = true := by
    rw [hassoc]
    simp only [separateIndices, List.all_cons, List.all_nil, h1, h2, h3, h4]
    rfl
  rw [hasHyphens, if_pos hall, if_pos hlen]

lemma hasHyphens_join_nil (g : UuidGroups) (rest : Bytes) : hasHyphens (g.join [] ++ rest) = .ok false := by
  obtain ⟨⟨c, hc, hdigit⟩, -⟩ := getElem?_join_eight g rest
  have hall : ¬(separateIndices.all (fun ind => (g.join [] ++ rest)[ind]? = some 45) = true) := by
    intro h
    have h8 := List.all_eq_true.mp h 8 (by simp [separateIndices])
    rw [hc, decide_eq_true_eq] at h8
    exact Hex.ne_hyphen_of_isDigit hdigit (Option.some.inj h8)
  rw [hasHyphens, if_neg hall]

/-- A text that begins with a UUID is read as this UUID. -/
lemma parse_join (self : Uuid) (g : UuidGroups) {sep : Bytes} (hsep : sep = [] ∨ sep = [45]) (rest : Bytes) :
    parse self (g.join sep ++ rest) = (.ok (), g.uuid) := by
  have hlen : ¬((g.join sep ++ rest).length < minUuidLength) := by
    rw [List.length_append, g.length_join, minUuidLength]
    omega
  have hread : (hasHyphens (g.join sep ++ rest) >>= parseFields (g.join sep ++ rest)) = .ok g.uuid := by
    rcases hsep with rfl | rfl
    · rw [hasHyphens_join_nil]
      exact parseFields_join g rfl rest
    · rw [hasHyphens_join_hyphen]
      exact parseFields_join g rfl rest
  rw [parse, if_neg hlen, hread]

/-- Any other text is refused, and the object is kept. -/
lemma parse_cases (self : Uuid) (s : Bytes) :
    (∃ (g : UuidGroups) (sep rest : Bytes), (sep = [] ∨ sep = [45]) ∧ s = g.join sep ++ rest ∧
      parse self s = (.ok (), g.uuid)) ∨ ∃ message, parse self s = (.error (.thrown message), self) := by
  by_cases hlen : s.length < minUuidLength
  · exact .inr ⟨_, by rw [parse, if_pos hlen]; rfl⟩
  have hlong : 32 ≤ s.length := by simpa [minUuidLength] using hlen
  have haccepted : ∀ {hasIt u}, hasHyphens s = .ok hasIt → parseFields s hasIt = .ok u →
      parse self s = (.ok (), u) := by
    intro hasIt u h hread
    have hfields : (hasHyphens s >>= parseFields s) = .ok u := by rw [h, ok_bind, hread]
    rw [parse, if_neg hlen, hfields]
  have hthrown : ∀ {hasIt message}, hasHyphens s = .ok hasIt → parseFields s hasIt = .error (.thrown message) →
      parse self s = (.error (.thrown message), self) := by
    intro hasIt message h hthrow
    have hfields : (hasHyphens s >>= parseFields s) = .error (.thrown message) := by rw [h, ok_bind, hthrow]
    rw [parse, if_neg hlen, hfields]
  by_cases hall : separateIndices.all (fun ind => s[ind]? = some 45) = true
  · by_cases hmax : maxUuidLength ≤ s.length
    · have hhyphens : hasHyphens s = .ok true := by rw [hasHyphens, if_pos hall, if_pos hmax]
      rcases parseFields_cases s true hmax with
        ⟨g, s1, s2, s3, s4, rest, hs, h1, h2, h3, h4, hread⟩ | ⟨message, hthrow⟩
      · -- the separators are the characters that were looked at
        obtain ⟨e1, e2, e3, e4⟩ := getElem?_separators g s1 s2 s3 s4 rest h1 h2 h3 h4
        rw [← hs] at e1 e2 e3 e4
        have hhyphen : ∀ {sep : Bytes} {i : Nat}, sep.length = 1 → i ∈ separateIndices → s[i]? = sep[0]? →
            sep = [45] := by
          intro sep i hsep hi heq
          have h45 := List.all_eq_true.mp hall i hi
          rw [heq, decide_eq_true_eq] at h45
          obtain ⟨c, rfl⟩ := List.length_eq_one_iff.mp hsep
          rw [Option.some.inj h45]
        obtain rfl := hhyphen h1 (by decide) e1
        obtain rfl := hhyphen h2 (by decide) e2
        obtain rfl := hhyphen h3 (by decide) e3
        obtain rfl := hhyphen h4 (by decide) e4
        refine .inl ⟨g, [45], rest, .inr rfl, ?_, haccepted hhyphens hread⟩
        simp only [UuidGroups.join, List.append_assoc]
        exact hs
      · exact .inr ⟨message, hthrown hhyphens hthrow⟩
    · refine .inr ⟨"Incorrect uuid " ++ text s ++ " : " ++ "incorrect separators positions", ?_⟩
      rw [parse, if_neg hlen, hasHyphens, if_pos hall, if_neg hmax]
      rfl
  · have hhyphens : hasHyphens s = .ok false := by rw [hasHyphens, if_neg hall]
    rcases parseFields_cases s false hlong with
      ⟨g, s1, s2, s3, s4, rest, hs, h1, h2, h3, h4, hread⟩ | ⟨message, hthrow⟩
    · obtain rfl := List.length_eq_zero_iff.mp h1
      obtain rfl := List.length_eq_zero_iff.mp h2
      obtain rfl := List.length_eq_zero_iff.mp h3
      obtain rfl := List.length_eq_zero_iff.mp h4
      refine .inl ⟨g, [], rest, .inl rfl, ?_, haccepted hhyphens hread⟩
      simp only [UuidGroups.join, List.append_assoc]
      exact hs
    · exact .inr ⟨message, hthrown hhyphens hthrow⟩

/-! ### The text of what was read -/

namespace UuidGroups

lemma toNat_value {w : Nat} {ds : Bytes} (h : HexText (w / 4) ds) (hw : 16 ^ (w / 4) = 2 ^ w) :
    (BitVec.ofNat w (Hex.value ds)).toNat = Hex.value ds := by
  have hlt := Hex.value_lt ds
  rw [h.1, hw] at hlt
  exact Nat.mod_eq_of_lt hlt

lemma numeral_hexText {n : Nat} {ds : Bytes} (h : HexText n ds) : Hex.numeral n (Hex.value ds) = ds.map Hex.lower := by
  have := Hex.numeral_value _ h.2
  rwa [h.1] at this

lemma node_uuid (g : UuidGroups) : g.uuid.node.toList = nodeBytes 6 g.node := by
  apply List.ext_getElem
  · rw [length_nodeBytes, Vector.length_toList]
  · intro i h1 h2
    simp [uuid, List.getElem?_eq_getElem h2]

/-- A UUID is printed with the digits it was read from, in lower case. -/
lemma toText_uuid (g : UuidGroups) : g.uuid.toText = (g.join [45]).map Hex.lower := by
  rw [toText_eq, node_uuid, nodeBytes_numerals g.node_hex]
  simp only [uuid, toNat_value (w := 32) g.timeLow_hex (by norm_num), toNat_value (w := 16) g.timeMid_hex (by norm_num),
    toNat_value (w := 16) g.timeHiAndVersion_hex (by norm_num), toNat_value (w := 16) g.clockSeq_hex (by norm_num),
    numeral_hexText g.timeLow_hex, numeral_hexText g.timeMid_hex, numeral_hexText g.timeHiAndVersion_hex,
    numeral_hexText g.clockSeq_hex, join, List.map_append, List.append_assoc]
  rfl

/-- The digits of a text, without the separators. -/
lemma filter_join (g : UuidGroups) {sep : Bytes} (hsep : sep = [] ∨ sep = [45]) :
    (g.join sep).filter (fun c => c ≠ 45) = g.join [] := by
  have hsep' : sep.filter (fun c => c ≠ 45) = [] := by
    rcases hsep with rfl | rfl <;> rfl
  have hdigits : ∀ {n : Nat} {ds : Bytes}, HexText n ds → ds.filter (fun c => c ≠ 45) = ds := by
    intro n ds h
    rw [List.filter_eq_self]
    exact fun c hc => by simpa using Hex.ne_hyphen_of_isDigit (h.2 c hc)
  simp only [join, List.filter_append, hsep', hdigits g.timeLow_hex, hdigits g.timeMid_hex,
    hdigits g.timeHiAndVersion_hex, hdigits g.clockSeq_hex, hdigits g.node_hex, List.nil_append]

lemma hyphenatedForm_join (g : UuidGroups) {sep : Bytes} (hsep : sep = [] ∨ sep = [45]) :
    hyphenatedForm (g.join sep) = (g.join [45]).map Hex.lower := by
  have hlen : ∀ {n : Nat} {ds : Bytes}, HexText n ds → (ds.map Hex.lower).length = n := by
    intro n ds h
    rw [List.length_map, h.1]
  have hskip : ∀ {n : Nat} {ds : Bytes}, HexText n ds → ∀ (k : Nat) (l : Bytes),
      (ds.map Hex.lower ++ l).drop (n + k) = l.drop k := by
    intro n ds h k l
    rw [← hlen h, List.drop_length_add_append]
  have htake : ∀ {n : Nat} {ds : Bytes}, HexText n ds → ∀ l : Bytes, (ds.map Hex.lower ++ l).take n = ds.map Hex.lower := by
    intro n ds h l
    rw [← hlen h, List.take_left]
  have h8 : ∀ l : Bytes, (g.timeLow.map Hex.lower ++ l).drop 8 = l := fun l => hskip g.timeLow_hex 0 l
  have h12 : ∀ l : Bytes, (g.timeLow.map Hex.lower ++ (g.timeMid.map Hex.lower ++ l)).drop 12 = l :=
    fun l => (hskip g.timeLow_hex 4 _).trans (hskip g.timeMid_hex 0 l)
  have h16 : ∀ l : Bytes, (g.timeLow.map Hex.lower ++ (g.timeMid.map Hex.lower ++ (g.timeHiAndVersion.map Hex.lower ++
      l))).drop 16 = l :=
    fun l => (hskip g.timeLow_hex 8 _).trans ((hskip g.timeMid_hex 4 _).trans (hskip g.timeHiAndVersion_hex 0 l))
  have h20 : ∀ l : Bytes, (g.timeLow.map Hex.lower ++ (g.timeMid.map Hex.lower ++ (g.timeHiAndVersion.map Hex.lower ++
      (g.clockSeq.map Hex.lower ++ l)))).drop 20 = l :=
    fun l => (hskip g.timeLow_hex 12 _).trans ((hskip g.timeMid_hex 8 _).trans ((hskip g.timeHiAndVersion_hex 4 _).trans
      (hskip g.clockSeq_hex 0 l)))
  rw [hyphenatedForm, filter_join g hsep]
  simp only [join, List.nil_append, List.map_append, htake g.timeLow_hex, h8, h12, h16, h20, htake g.timeMid_hex,
    htake g.timeHiAndVersion_hex, htake g.clockSeq_hex, List.append_assoc]
  rfl

end UuidGroups

/-- The digits a UUID is printed with. -/
def groupsOf (u : Uuid) : UuidGroups where
  timeLow := Hex.numeral 8 u.timeLow.toNat
  timeMid := Hex.numeral 4 u.timeMid.toNat
  timeHiAndVersion := Hex.numeral 4 u.timeHiAndVersion.toNat
  clockSeq := Hex.numeral 4 u.clockSeq.toNat
  node := u.node.toList.flatMap (fun n => Hex.numeral 2 n.toNat)
  timeLow_hex := ⟨Hex.length_numeral _ _, fun _ hc => Hex.isDigit_of_mem_numeral hc⟩
  timeMid_hex := ⟨Hex.length_numeral _ _, fun _ hc => Hex.isDigit_of_mem_numeral hc⟩
  timeHiAndVersion_hex := ⟨Hex.length_numeral _ _, fun _ hc => Hex.isDigit_of_mem_numeral hc⟩
  clockSeq_hex := ⟨Hex.length_numeral _ _, fun _ hc => Hex.isDigit_of_mem_numeral hc⟩
  node_hex := by
    refine ⟨by simp [List.length_flatMap], fun c hc => ?_⟩
    obtain ⟨n, -, hn⟩ := List.mem_flatMap.mp hc
    exact Hex.isDigit_of_mem_numeral hn

lemma nodeBytes_flatMap (node : List (BitVec 8)) :
    nodeBytes node.length (node.flatMap (fun n => Hex.numeral 2 n.toNat)) = node := by
  induction node with
  | nil => rfl
  | cons n node ih =>
    have hlen := Hex.length_numeral 2 n.toNat
    rw [List.length_cons, List.flatMap_cons, nodeBytes, List.take_left' hlen, List.drop_left' hlen, ih,
      Hex.value_numeral n.isLt, BitVec.ofNat_toNat, BitVec.setWidth_eq]

lemma uuid_groupsOf (u : Uuid) : (groupsOf u).uuid = u := by
  have hfield : ∀ {w k : Nat} (x : BitVec w), 16 ^ k = 2 ^ w → BitVec.ofNat w (Hex.value (Hex.numeral k x.toNat)) = x := by
    intro w k x hk
    rw [Hex.value_numeral (hk ▸ x.isLt), BitVec.ofNat_toNat, BitVec.setWidth_eq]
  have hnode : nodeBytes 6 (groupsOf u).node = u.node.toList := by
    have := nodeBytes_flatMap u.node.toList
    rwa [Vector.length_toList] at this
  have hvector : Vector.ofFn (fun i : Fin 6 => (nodeBytes 6 (groupsOf u).node).getD i 0) = u.node := by
    rw [hnode]
    apply Vector.ext
    intro i hi
    simp
  rw [UuidGroups.uuid, hvector]
  simp only [groupsOf, hfield (w := 32) (k := 8) _ (by norm_num), hfield (w := 16) (k := 4) _ (by norm_num)]

lemma toText_groupsOf (u : Uuid) : u.toText = (groupsOf u).join [45] := by
  rw [toText_eq]
  simp only [UuidGroups.join, groupsOf, List.append_assoc]

/-- `Parse` accepts exactly the texts of UUIDs, and reads them right, among the texts that do not go on after one; every
UUID is read back from its text. -/
theorem parse_exact_iff (s : Bytes) (self u : Uuid) :
    (ParsesExactly s ↔ ¬GoesOnAfterUuid s) ∧ parse self u.toText = (.ok (), u) := by
  constructor
  · constructor
    · rintro h ⟨t, ht, hne, htext⟩
      obtain ⟨g, sep, hsep, rfl⟩ := uuidText_iff.mp htext
      obtain ⟨rest, rfl⟩ := ht
      have haccept := (h.accepts Uuid.null).mp ⟨g.uuid, parse_join Uuid.null g hsep rest⟩
      exact hne (uuidText_front (List.prefix_append _ _) htext haccept)
    · intro hgoes
      have hexact : ∀ {g : UuidGroups} {sep rest : Bytes}, (sep = [] ∨ sep = [45]) → s = g.join sep ++ rest →
          s = g.join sep := by
        intro g sep rest hsep hs
        by_contra hne
        exact hgoes ⟨g.join sep, ⟨rest, hs.symm⟩, Ne.symm hne, uuidText_iff.mpr ⟨g, sep, hsep, rfl⟩⟩
      refine ⟨fun self => ⟨?_, ?_⟩, fun self u hu => ?_, fun self failure self' hfail => ?_⟩
      · rintro ⟨u, hu⟩
        rcases parse_cases self s with ⟨g, sep, rest, hsep, hs, -⟩ | ⟨message, hthrow⟩
        · exact uuidText_iff.mpr ⟨g, sep, hsep, hexact hsep hs⟩
        · rw [hthrow] at hu
          cases hu
      · intro htext
        obtain ⟨g, sep, hsep, rfl⟩ := uuidText_iff.mp htext
        have hread := parse_join self g hsep []
        rw [List.append_nil] at hread
        exact ⟨g.uuid, hread⟩
      · rcases parse_cases self s with ⟨g, sep, rest, hsep, hs, hread⟩ | ⟨message, hthrow⟩
        · rw [hread] at hu
          cases hu
          rw [hexact hsep hs, g.toText_uuid, g.hyphenatedForm_join hsep]
        · rw [hthrow] at hu
          cases hu
      · rcases parse_cases self s with ⟨g, sep, rest, -, -, hread⟩ | ⟨message, hthrow⟩
        · rw [hread] at hfail
          cases hfail
        · rw [hthrow] at hfail
          cases hfail
          exact ⟨⟨message, rfl⟩, rfl⟩
  · have hread := parse_join self (groupsOf u) (.inr rfl) []
    rwa [List.append_nil, ← toText_groupsOf, uuid_groupsOf] at hread

/-- 32 digits and something more are accepted. -/
theorem parse_accepts_longer :
    ¬ParsesExactly (bytes "61f0c4045cb311e7907ba6006ad3dba0 and more") := by
  intro h
  have haccept := (h.accepts Uuid.null).mp ⟨_, rfl⟩
  rcases haccept with ⟨hlen, -⟩ | ⟨g, hg⟩
  · exact absurd hlen (by decide)
  · have hlen := congrArg List.length hg
    rw [g.length_join] at hlen
    exact absurd hlen (by decide)

end IcebergCxx.Proofs

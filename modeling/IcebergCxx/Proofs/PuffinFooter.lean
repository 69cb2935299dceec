import IcebergCxx.Puffin

/-!
# The two readers of a Puffin footer

A file that either reader accepts ends in a trailer with the magic and an even flag byte. What
then happens depends on the size field alone: `readFooter_ok_iff` and `makeFooter_ok_iff` say
which sizes each of them accepts and what it returns.
-/

namespace IcebergCxx.Proofs

open Lib Puffin

/-! ### The trailer -/

/-- The size field of the trailer, the last twelve bytes. -/
def payloadSizeField (data : Bytes) : Int := wrapInt32 (ofLeBytes ((data.drop (data.length - 12)).take 4))

/-- The flags of the trailer. -/
def flagBytes (data : Bytes) : Bytes := (data.drop (data.length - 8)).take 4

/-- The file is long enough, ends in the magic and is not marked as compressed. -/
def TrailerAccepted (data : Bytes) : Prop :=
  16 ≤ data.length ∧ data.drop (data.length - 4) = kPuffinMagicBytes ∧ ofLeBytes (flagBytes data) % 2 = 0

instance (data : Bytes) : Decidable (TrailerAccepted data) := inferInstanceAs (Decidable (_ ∧ _))

/-- Magic, payload and trailer in this order at the end of the file. -/
def FooterAtEnd (data payload : Bytes) : Prop :=
  ∃ front trailer, data = front ++ kPuffinMagicBytes ++ payload ++ trailer ∧ trailer.length = 12 ∧
    (payload.length : Int) = payloadSizeField data

lemma extractPayload_ok_iff {w p : Bytes} : extractPayload w = .ok p ↔ w = kPuffinMagicBytes ++ p := by
  unfold extractPayload
  constructor
  · intro h
    split_ifs at h with hc
    push Not at hc
    cases h
    rw [← hc.2, List.take_append_drop]
  · rintro rfl
    simp [kPuffinMagicBytes]

lemma parseTrailerView_ok_iff {data : Bytes} (h : 16 ≤ data.length) {n : Int} :
    parseTrailerView (data.drop (data.length - 12)) = .ok n ↔ TrailerAccepted data ∧ n = payloadSizeField data := by
  have hlen : (data.drop (data.length - 12)).length = 12 := by
    rw [List.length_drop]
    omega
  have h8 : (data.drop (data.length - 12)).drop 8 = data.drop (data.length - 4) := by
    rw [List.drop_drop]
    congr 1
    omega
  have h8' : (data.drop (data.length - 4)).take 4 = data.drop (data.length - 4) := by
    apply List.take_of_length_le
    rw [List.length_drop]
    omega
  have h4 : ((data.drop (data.length - 12)).drop 4).take 4 = flagBytes data := by
    rw [flagBytes, List.drop_drop]
    congr 2
    omega
  unfold parseTrailerView TrailerAccepted
  rw [h8, h8', h4, hlen]
  constructor
  · intro hp
    split_ifs at hp with h1 h2 h3
    rw [Except.ok.injEq] at hp
    exact ⟨⟨h, not_not.mp h2, by omega⟩, by rw [← hp, payloadSizeField]⟩
  · rintro ⟨⟨-, h2, h3⟩, hn⟩
    rw [hn, if_neg (by omega), if_neg (not_not.mpr h2), if_neg (by omega), payloadSizeField]

lemma payloadSizeField_range (data : Bytes) : -2 ^ 31 ≤ payloadSizeField data ∧ payloadSizeField data < 2 ^ 31 := by
  unfold payloadSizeField wrapInt32
  constructor
  · have := Int.le_bmod (x := (ofLeBytes ((data.drop (data.length - 12)).take 4) : Int)) (m := 2 ^ 32) (by norm_num)
    simpa using this
  · have := Int.bmod_lt (x := (ofLeBytes ((data.drop (data.length - 12)).take 4) : Int)) (m := 2 ^ 32) (by norm_num)
    simpa using this

lemma wrapInt32_of_range {x : Int} (h1 : -2 ^ 31 ≤ x) (h2 : x < 2 ^ 31) : wrapInt32 x = x := by
  unfold wrapInt32
  rw [Int.bmod_eq_of_le] <;> omega

lemma wrapInt32_of_ge {x : Int} (h1 : 2 ^ 31 ≤ x) (h2 : x < 2 ^ 32) : wrapInt32 x = x - 2 ^ 32 := by
  unfold wrapInt32
  rw [Int.bmod_def]
  have hm : x % ((2 ^ 32 : Nat) : Int) = x := Int.emod_eq_of_lt (by omega) (by push_cast; omega)
  rw [hm]
  push_cast
  split_ifs <;> omega

/-! ### Slices at the end of a file -/

/-- The bytes before the trailer, for a size that fits. -/
lemma footerAtEnd_iff {data p : Bytes} {n : Nat} (hn : payloadSizeField data = n) :
    FooterAtEnd data p ↔
      16 + n ≤ data.length ∧ (data.drop (data.length - (16 + n))).take (4 + n) = kPuffinMagicBytes ++ p := by
  constructor
  · rintro ⟨front, trailer, hd, ht, hp⟩
    have hpn : p.length = n := by omega
    have hm : kPuffinMagicBytes.length = 4 := rfl
    have hlen : data.length = front.length + 4 + p.length + 12 := by
      rw [hd]
      simp [hm, ht]
      omega
    refine ⟨by omega, ?_⟩
    have hpos : data.length - (16 + n) = front.length := by omega
    have hcount : 4 + n = (kPuffinMagicBytes ++ p).length := by simp [hm, hpn]
    rw [hpos, hcount, hd, List.append_assoc, List.append_assoc, List.drop_left, ← List.append_assoc, List.take_left]
  · rintro ⟨hlen, hs⟩
    refine ⟨data.take (data.length - (16 + n)), data.drop (data.length - 12), ?_, ?_, ?_⟩
    · have hrest : data.drop (data.length - 12) = (data.drop (data.length - (16 + n))).drop (4 + n) := by
        have hpos : data.length - 12 = data.length - (16 + n) + (4 + n) := by omega
        rw [List.drop_drop, hpos]
      have hmid : kPuffinMagicBytes ++ p ++ data.drop (data.length - 12) = data.drop (data.length - (16 + n)) := by
        rw [← hs, hrest, List.take_append_drop]
      calc data = data.take (data.length - (16 + n)) ++ data.drop (data.length - (16 + n)) :=
            (List.take_append_drop _ _).symm
        _ = _ := by rw [← hmid, ← List.append_assoc, ← List.append_assoc]
    · rw [List.length_drop]
      omega
    · have hl := congrArg List.length hs
      rw [List.length_take, List.length_drop, List.length_append] at hl
      have hm : kPuffinMagicBytes.length = 4 := rfl
      omega

/-- A read of `4 + n` bytes that ends at the trailer. -/
lemma readAt_payload {data : StdString} (file : RandomAccessFile data) {n : Int} (h0 : -4 ≤ n)
    (hmax : n < 2 ^ 31 - 4) (hL : 16 + n ≤ data.bytes.length) :
    file.readAt (wrapInt64 (data.bytes.length - 16 - n)) (wrapInt32 (4 + n)) =
      .ok ((data.bytes.drop (data.bytes.length - (16 + n).toNat)).take (4 + n).toNat) := by
  have hlt := data.length_lt
  have hpos : wrapInt64 (data.bytes.length - 16 - n) = ((data.bytes.length - (16 + n).toNat : Nat) : Int) := by
    rw [wrapInt64_of_inInt64]
    · omega
    · unfold InInt64 int64Min int64Max
      omega
  have hcount : wrapInt32 (4 + n) = ((4 + n).toNat : Int) := by
    rw [wrapInt32_of_range (by omega) (by omega)]
    omega
  rw [hpos, hcount]
  exact file.readAt_ok _ _ (by omega)

/-- Which files `ReadFooter` accepts. -/
lemma readFooter_ok_iff {data : StdString} (file : RandomAccessFile data) {p : Bytes} :
    readFooter file = .ok p ↔ TrailerAccepted data.bytes ∧ 0 ≤ payloadSizeField data.bytes ∧
      payloadSizeField data.bytes < 2 ^ 31 - 4 ∧ FooterAtEnd data.bytes p := by
  have hr := payloadSizeField_range data.bytes
  have hL := data.length_lt
  unfold readFooter
  by_cases h16 : (data.bytes.length : Int) < 16
  · simp only [h16, if_true]
    constructor
    · intro h; cases h
    · rintro ⟨⟨h, -⟩, -⟩; omega
  have h12 : file.readAt ((data.bytes.length : Int) - 12) 12 =
      .ok (data.bytes.drop (data.bytes.length - 12)) := by
    have := file.readAt_ok (data.bytes.length - 12) 12 (by omega)
    rw [List.take_of_length_le (by rw [List.length_drop]; omega)] at this
    rw [← this]
    congr 1
    omega
  simp only [h16, if_false, h12, ok_bind]
  constructor
  · intro h
    obtain ⟨n, hn, h⟩ := bind_ok h
    obtain ⟨hacc, hn⟩ := (parseTrailerView_ok_iff (by omega)).mp hn
    rw [← hn] at hr ⊢
    split_ifs at h with hsz
    obtain ⟨w, hw, h⟩ := bind_ok h
    -- a negative position or length is refused, so neither of the sums has wrapped
    have hneg : ¬(wrapInt64 (data.bytes.length - 16 - n) < 0 ∨ wrapInt32 (4 + n) < 0) := by
      intro hneg
      obtain ⟨e, he⟩ := file.readAt_negative _ _ hneg
      rw [he] at hw
      cases hw
    have hmax : n < 2 ^ 31 - 4 := by
      by_contra hge
      rw [wrapInt32_of_ge (x := 4 + n) (by omega) (by omega)] at hneg
      omega
    rw [wrapInt32_of_range (x := 4 + n) (by omega) (by omega)] at hneg
    have hfit : 16 + n ≤ data.bytes.length := by
      rw [wrapInt64_of_inInt64 (by unfold InInt64 int64Min int64Max; omega)] at hneg
      omega
    rw [readAt_payload file (by omega) hmax hfit, Except.ok.injEq] at hw
    rw [extractPayload_ok_iff, ← hw] at h
    have h0 : 0 ≤ n := by
      have hlen := congrArg List.length h
      rw [List.length_take, List.length_append] at hlen
      have hm : kPuffinMagicBytes.length = 4 := rfl
      omega
    refine ⟨hacc, h0, hmax, (footerAtEnd_iff (n := n.toNat) (by omega)).mpr ⟨by omega, ?_⟩⟩
    rw [← h]
    congr 2 <;> omega
  · rintro ⟨hacc, h0, hmax, hend⟩
    obtain ⟨n, hn⟩ := Int.eq_ofNat_of_zero_le h0
    obtain ⟨hfit, hs⟩ := (footerAtEnd_iff hn).mp hend
    have hp := (parseTrailerView_ok_iff hacc.1).mpr ⟨hacc, rfl⟩
    rw [hn] at hp hmax
    have hread := readAt_payload file (n := n) (by omega) hmax (by omega)
    have hsz : ¬(data.bytes.length : Int) < wrapInt32 (16 + n) := by
      by_cases hw : (16 + n : Int) < 2 ^ 31
      · rw [wrapInt32_of_range (by omega) hw]; omega
      · rw [wrapInt32_of_ge (by omega) (by omega)]; omega
    rw [hp, ok_bind, if_neg hsz, hread, ok_bind, extractPayload_ok_iff, ← hs]
    congr 2

/-! ### Reading from memory -/

/-- `MakeFooter` on an accepted trailer. -/
lemma makeFooter_eq {data : StdString} (hacc : TrailerAccepted data.bytes) {n : Int}
    (hn : payloadSizeField data.bytes = n) :
    (data.bytes.length < toSizeT (16 + toSizeT n) → ∃ e, makeFooter data = .error e) ∧
    (¬data.bytes.length < toSizeT (16 + toSizeT n) →
      makeFooter data = (substr data.bytes (toSizeT (data.bytes.length - wrapInt32 (16 + n)))
        (toSizeT (wrapInt32 (4 + n))) >>= extractPayload)) := by
  have hlt := data.length_lt
  have h16 : ¬(data.bytes.length : Int) < 16 := by have := hacc.1; omega
  have hpos : toSizeT ((data.bytes.length : Int) - 12) = data.bytes.length - 12 := by
    unfold toSizeT
    omega
  have htr : substr data.bytes (toSizeT ((data.bytes.length : Int) - 12)) data.bytes.length =
      .ok (data.bytes.drop (data.bytes.length - 12)) := by
    rw [hpos, substr, if_neg (by omega), List.take_of_length_le (by rw [List.length_drop]; omega)]
  have hp := (parseTrailerView_ok_iff hacc.1).mpr ⟨hacc, hn.symm⟩
  unfold makeFooter
  simp only [h16, if_false, htr, ok_bind, hp, Nat.cast_lt]
  constructor
  · intro h
    exact ⟨_, if_pos h⟩
  · intro h
    rw [if_neg h]

lemma makeFooter_ok_accepted {data : StdString} {p : Bytes} (h : makeFooter data = .ok p) :
    TrailerAccepted data.bytes := by
  have hlt := data.length_lt
  unfold makeFooter at h
  by_cases h16 : (data.bytes.length : Int) < 16
  · simp only [h16, if_true] at h
    cases h
  · simp only [h16, if_false] at h
    obtain ⟨t, ht, h⟩ := bind_ok h
    obtain ⟨n, hn, -⟩ := bind_ok h
    have hpos : toSizeT ((data.bytes.length : Int) - 12) = data.bytes.length - 12 := by
      unfold toSizeT
      omega
    rw [hpos, substr, if_neg (by omega), List.take_of_length_le (by rw [List.length_drop]; omega),
      Except.ok.injEq] at ht
    rw [← ht] at hn
    exact ((parseTrailerView_ok_iff (by omega)).mp hn).1

/-- A size that is not negative and far from the limit of `int`. -/
lemma makeFooter_ok_of_nonneg {data : StdString} (hacc : TrailerAccepted data.bytes) {n : Int}
    (hn : payloadSizeField data.bytes = n) (h0 : 0 ≤ n) (hmax : n < 2 ^ 31 - 16) {p : Bytes} :
    makeFooter data = .ok p ↔ FooterAtEnd data.bytes p := by
  have hlt := data.length_lt
  obtain ⟨h1, h2⟩ := makeFooter_eq hacc hn
  have hcheck : toSizeT (16 + toSizeT n) = (16 + n).toNat := by
    unfold toSizeT
    omega
  rw [hcheck] at h1 h2
  rw [footerAtEnd_iff (n := n.toNat) (by omega)]
  by_cases hfit : data.bytes.length < (16 + n).toNat
  · obtain ⟨e, he⟩ := h1 hfit
    rw [he]
    constructor
    · intro h; cases h
    · rintro ⟨h, -⟩; omega
  · have hpos : toSizeT (data.bytes.length - wrapInt32 (16 + n)) = data.bytes.length - (16 + n.toNat) := by
      rw [wrapInt32_of_range (by omega) (by omega)]
      unfold toSizeT
      omega
    have hcount : toSizeT (wrapInt32 (4 + n)) = 4 + n.toNat := by
      rw [wrapInt32_of_range (by omega) (by omega)]
      unfold toSizeT
      omega
    rw [h2 hfit, hpos, hcount, substr, if_neg (by omega), ok_bind, extractPayload_ok_iff]
    constructor
    · exact fun h => ⟨by omega, h⟩
    · exact fun h => h.2

/-- A size within sixteen of the limit: the position wraps past the end of the file. -/
lemma makeFooter_error_of_large {data : StdString} (hacc : TrailerAccepted data.bytes) {n : Int}
    (hn : payloadSizeField data.bytes = n) (hmin : 2 ^ 31 - 16 ≤ n) : ∃ e, makeFooter data = .error e := by
  have hlt := data.length_lt
  have hr := payloadSizeField_range data.bytes
  rw [hn] at hr
  obtain ⟨h1, h2⟩ := makeFooter_eq hacc hn
  by_cases hfit : data.bytes.length < toSizeT (16 + toSizeT n)
  · exact h1 hfit
  · have hpos : data.bytes.length < toSizeT (data.bytes.length - wrapInt32 (16 + n)) := by
      rw [wrapInt32_of_ge (by omega) (by omega)]
      unfold toSizeT
      omega
    rw [h2 hfit, substr, if_pos hpos]
    exact ⟨_, rfl⟩

/-- A size below minus sixteen looks like a huge one. -/
lemma makeFooter_error_of_small {data : StdString} (hacc : TrailerAccepted data.bytes) {n : Int}
    (hn : payloadSizeField data.bytes = n) (hmax : n < -16) : ∃ e, makeFooter data = .error e := by
  have hlt := data.length_lt
  have hr := payloadSizeField_range data.bytes
  rw [hn] at hr
  apply (makeFooter_eq hacc hn).1
  unfold toSizeT
  omega

/-- From minus sixteen to minus one the length check passes, and the slice starts in the trailer. -/
lemma makeFooter_of_negative {data : StdString} (hacc : TrailerAccepted data.bytes) {n : Int}
    (hn : payloadSizeField data.bytes = n) (h1 : -16 ≤ n) (h2 : n < 0) {p : Bytes} :
    makeFooter data = .ok p ↔ -12 ≤ n ∧ n < -4 ∧
      (data.bytes.drop (data.bytes.length - 12)).drop (-4 - n).toNat = kPuffinMagicBytes ++ p := by
  have hlt := data.length_lt
  have h16 := hacc.1
  have hm : kPuffinMagicBytes.length = 4 := rfl
  have hcheck : ¬data.bytes.length < toSizeT (16 + toSizeT n) := by
    unfold toSizeT
    omega
  have hpos : toSizeT (data.bytes.length - wrapInt32 (16 + n)) = data.bytes.length - (16 + n).toNat := by
    rw [wrapInt32_of_range (by omega) (by omega)]
    unfold toSizeT
    omega
  have hcount : toSizeT (wrapInt32 (4 + n)) = ((4 + n) % 2 ^ 64).toNat := by
    rw [wrapInt32_of_range (by omega) (by omega), toSizeT]
  rw [(makeFooter_eq hacc hn).2 hcheck, hpos, hcount, substr, if_neg (by omega), ok_bind, extractPayload_ok_iff]
  by_cases hmid : -12 ≤ n ∧ n < -4
  · have hdrop : (data.bytes.drop (data.bytes.length - (16 + n).toNat)).take ((4 + n) % 2 ^ 64).toNat =
        (data.bytes.drop (data.bytes.length - 12)).drop (-4 - n).toNat := by
      have hsum : data.bytes.length - (16 + n).toNat = data.bytes.length - 12 + (-4 - n).toNat := by omega
      rw [List.take_of_length_le (by rw [List.length_drop]; omega), List.drop_drop, hsum]
    rw [hdrop]
    exact ⟨fun h => ⟨hmid.1, hmid.2, h⟩, fun h => h.2.2⟩
  · constructor
    · intro h
      have hlen := congrArg List.length h
      rw [List.length_take, List.length_drop, List.length_append] at hlen
      omega
    · intro h
      exact absurd ⟨h.1, h.2.1⟩ hmid

/-- An accepted trailer, byte by byte. -/
lemma trailer_bytes {data : Bytes} (hacc : TrailerAccepted data) :
    ∃ a b c d e f g h, data.drop (data.length - 12) = [a, b, c, d, e, f, g, h, 0x50, 0x46, 0x41, 0x31] ∧
      payloadSizeField data = wrapInt32 (a.val + 256 * b.val + 65536 * c.val + 16777216 * d.val : Nat) ∧
      flagBytes data = [e, f, g, h] := by
  obtain ⟨h16, hmagic, -⟩ := hacc
  have h4 : data.drop (data.length - 4) = (data.drop (data.length - 12)).drop 8 := by
    rw [List.drop_drop]
    congr 1
    omega
  have h8 : flagBytes data = ((data.drop (data.length - 12)).drop 4).take 4 := by
    rw [flagBytes, List.drop_drop]
    congr 2
    omega
  have hlen : (data.drop (data.length - 12)).length = 12 := by
    rw [List.length_drop]
    omega
  unfold payloadSizeField
  rw [h4] at hmagic
  rw [h8]
  generalize data.drop (data.length - 12) = t at hmagic hlen
  match t, hlen with
  | [a, b, c, d, e, f, g, h, i, j, k, l], _ =>
    have hm : [i, j, k, l] = kPuffinMagicBytes := hmagic
    simp only [kPuffinMagicBytes, List.cons.injEq, and_true] at hm
    obtain ⟨rfl, rfl, rfl, rfl⟩ := hm
    refine ⟨a, b, c, d, e, f, g, h, rfl, ?_, rfl⟩
    congr 2
    simp only [List.take_succ_cons, List.take_zero, ofLeBytes, List.map_cons, List.map_nil, Nat.ofDigits_cons,
      Nat.ofDigits_nil]
    push_cast
    omega

/-- The two negative sizes that `MakeFooter` lets through. -/
lemma makeFooter_ok_of_negative {data : StdString} (hacc : TrailerAccepted data.bytes) {n : Int}
    (hn : payloadSizeField data.bytes = n) (h0 : n < 0) {p : Bytes} :
    makeFooter data = .ok p ↔
      n = -12 ∧ p = [] ∨ n = -8 ∧ flagBytes data.bytes = kPuffinMagicBytes ∧ p = kPuffinMagicBytes := by
  by_cases hsmall : n < -16
  · obtain ⟨e, he⟩ := makeFooter_error_of_small hacc hn hsmall
    rw [he]
    constructor
    · intro h; cases h
    · intro h; omega
  rw [makeFooter_of_negative hacc hn (by omega) h0]
  obtain ⟨a, b, c, d, e, f, g, h, ht, hsize, hflags⟩ := trailer_bytes hacc
  rw [ht, hflags]
  rw [hn] at hsize
  -- the size field of a small negative number ends in bytes of ones
  have hone : -256 ≤ n → b = 255 ∧ c = 255 ∧ d = 255 := by
    intro hge
    have hlt : ((a.val + 256 * b.val + 65536 * c.val + 16777216 * d.val : Nat) : Int) < 2 ^ 32 := by
      have := a.isLt; have := b.isLt; have := c.isLt; have := d.isLt
      omega
    have hge' : 2 ^ 31 ≤ ((a.val + 256 * b.val + 65536 * c.val + 16777216 * d.val : Nat) : Int) := by
      by_contra hsm
      rw [wrapInt32_of_range (by omega) (by omega)] at hsize
      omega
    rw [wrapInt32_of_ge hge' hlt] at hsize
    have := a.isLt; have := b.isLt; have := c.isLt; have := d.isLt
    refine ⟨Fin.ext ?_, Fin.ext ?_, Fin.ext ?_⟩ <;> simp <;> omega
  obtain ⟨rfl, rfl, rfl⟩ := hone (by omega)
  constructor
  · rintro ⟨h1, h2, hs⟩
    interval_cases n
    all_goals simp [kPuffinMagicBytes] at hs ⊢
    · exact hs
    · obtain ⟨he, hf, hg, hh, hp⟩ := hs
      exact ⟨⟨he, hf, hg, hh⟩, hp.symm⟩
  · rintro (⟨rfl, rfl⟩ | ⟨rfl, hf, rfl⟩)
    · simp [kPuffinMagicBytes]
    · simp only [kPuffinMagicBytes, List.cons.injEq, and_true] at hf
      simp [kPuffinMagicBytes, hf]

/-! ### Agreement -/

/-- Both readers fail or both return one payload; and whatever either of them returns, the size
field is not negative and magic, payload and trailer lie in the file in this order. -/
def FooterReadersAgree {data : StdString} (file : RandomAccessFile data) : Prop :=
  (((∃ e, readFooter file = .error e) ∧ ∃ e, makeFooter data = .error e) ∨
    ∃ p, readFooter file = .ok p ∧ makeFooter data = .ok p) ∧
  ∀ p, readFooter file = .ok p ∨ makeFooter data = .ok p →
    0 ≤ payloadSizeField data.bytes ∧ FooterAtEnd data.bytes p

/-- The size field is one on which an integer conversion goes wrong: minus twelve, minus eight
with the magic as flags, or a payload that is there and longer than `2 ^ 31 - 17`. -/
def SizeFieldMisread (data : Bytes) : Prop :=
  TrailerAccepted data ∧
    (payloadSizeField data = -12 ∨
      payloadSizeField data = -8 ∧ flagBytes data = kPuffinMagicBytes ∨
      2 ^ 31 - 16 ≤ payloadSizeField data ∧ payloadSizeField data < 2 ^ 31 - 4 ∧
        16 + payloadSizeField data ≤ data.length ∧
        (data.drop (data.length - (16 + payloadSizeField data).toNat)).take 4 = kPuffinMagicBytes)

lemma except_ok_or_error {α : Type} (x : Except String α) : (∃ a, x = .ok a) ∨ ∃ e, x = .error e := by
  cases x with
  | error e => exact .inr ⟨e, rfl⟩
  | ok a => exact .inl ⟨a, rfl⟩

/-- A payload is there as soon as its magic is. -/
lemma exists_footerAtEnd_iff {data : Bytes} {n : Nat} (hn : payloadSizeField data = n) :
    (∃ p, FooterAtEnd data p) ↔
      16 + n ≤ data.length ∧ (data.drop (data.length - (16 + n))).take 4 = kPuffinMagicBytes := by
  constructor
  · rintro ⟨p, hp⟩
    obtain ⟨hfit, hs⟩ := (footerAtEnd_iff hn).mp hp
    refine ⟨hfit, ?_⟩
    have := congrArg (List.take 4) hs
    rw [List.take_take, Nat.min_eq_left (by omega)] at this
    rw [this]
    rfl
  · rintro ⟨hfit, hs⟩
    refine ⟨((data.drop (data.length - (16 + n))).drop 4).take n, (footerAtEnd_iff hn).mpr ⟨hfit, ?_⟩⟩
    rw [← hs, ← List.take_add]

/-- Where the size field is not misread, `MakeFooter` accepts what `ReadFooter` accepts. -/
lemma makeFooter_ok_iff_of_not_misread {data : StdString} {p : Bytes} (hgood : ¬SizeFieldMisread data.bytes) :
    makeFooter data = .ok p ↔ TrailerAccepted data.bytes ∧ 0 ≤ payloadSizeField data.bytes ∧
      payloadSizeField data.bytes < 2 ^ 31 - 4 ∧ FooterAtEnd data.bytes p := by
  by_cases hacc : TrailerAccepted data.bytes
  · rcases lt_or_ge (payloadSizeField data.bytes) 0 with hneg | h0
    · rw [makeFooter_ok_of_negative hacc rfl hneg]
      constructor
      · rintro (⟨h, -⟩ | ⟨h, hf, -⟩)
        · exact absurd ⟨hacc, .inl h⟩ hgood
        · exact absurd ⟨hacc, .inr (.inl ⟨h, hf⟩)⟩ hgood
      · rintro ⟨-, h, -⟩; omega
    · rcases lt_or_ge (payloadSizeField data.bytes) (2 ^ 31 - 16) with hlt | hge
      · rw [makeFooter_ok_of_nonneg hacc rfl h0 hlt]
        exact ⟨fun h => ⟨hacc, h0, by omega, h⟩, fun h => h.2.2.2⟩
      · obtain ⟨e, he⟩ := makeFooter_error_of_large hacc rfl hge
        rw [he]
        constructor
        · intro h; cases h
        · rintro ⟨-, -, hmax, hp⟩
          obtain ⟨n, hn⟩ := Int.eq_ofNat_of_zero_le h0
          obtain ⟨hfit, hmagic⟩ := (exists_footerAtEnd_iff hn).mp ⟨p, hp⟩
          refine absurd ⟨hacc, .inr (.inr ⟨hge, hmax, by omega, ?_⟩)⟩ hgood
          rw [hn]
          exact hmagic
  · constructor
    · exact fun h => absurd (makeFooter_ok_accepted h) hacc
    · exact fun h => absurd h.1 hacc

/-- The two readers agree, and stay within the file, exactly when the size field is not misread. -/
theorem footerReadersAgree_iff (data : StdString) (file : RandomAccessFile data) :
    FooterReadersAgree file ↔ ¬SizeFieldMisread data.bytes := by
  have hr := payloadSizeField_range data.bytes
  constructor
  · rintro ⟨hsame, hsafe⟩ ⟨hacc, hbad⟩
    rcases hbad with hn | ⟨hn, hflags⟩ | ⟨hmin, hmax, hfit, hmagic⟩
    · have hm := (makeFooter_ok_of_negative hacc hn (by omega) (p := [])).mpr (.inl ⟨rfl, rfl⟩)
      have := (hsafe [] (.inr hm)).1
      omega
    · have hm := (makeFooter_ok_of_negative hacc hn (by omega) (p := kPuffinMagicBytes)).mpr
        (.inr ⟨rfl, hflags, rfl⟩)
      have := (hsafe _ (.inr hm)).1
      omega
    · obtain ⟨n, hn⟩ := Int.eq_ofNat_of_zero_le (show 0 ≤ payloadSizeField data.bytes by omega)
      obtain ⟨p, hp⟩ := (exists_footerAtEnd_iff hn).mpr ⟨by omega, by rw [hn] at hmagic; exact hmagic⟩
      have hread := (readFooter_ok_iff file).mpr ⟨hacc, by omega, hmax, hp⟩
      obtain ⟨e, hmake⟩ := makeFooter_error_of_large hacc rfl hmin
      rcases hsame with ⟨⟨e', he⟩, -⟩ | ⟨q, -, hq⟩
      · rw [hread] at he; cases he
      · rw [hmake] at hq; cases hq
  · intro hgood
    have hmake := fun p => makeFooter_ok_iff_of_not_misread (p := p) hgood
    refine ⟨?_, ?_⟩
    · rcases except_ok_or_error (readFooter file) with ⟨p, hp⟩ | ⟨e, he⟩
      · exact .inr ⟨p, hp, (hmake p).mpr ((readFooter_ok_iff file).mp hp)⟩
      · rcases except_ok_or_error (makeFooter data) with ⟨p, hp⟩ | ⟨e', he'⟩
        · have := (readFooter_ok_iff file).mpr ((hmake p).mp hp)
          rw [he] at this
          cases this
        · exact .inl ⟨⟨e, he⟩, e', he'⟩
    · rintro p (hp | hp)
      · obtain ⟨-, h0, -, hend⟩ := (readFooter_ok_iff file).mp hp
        exact ⟨h0, hend⟩
      · obtain ⟨-, h0, -, hend⟩ := (hmake p).mp hp
        exact ⟨h0, hend⟩

/-- A file in memory read through `arrow::io::BufferReader`. -/
def bufferReader (contents : StdString) : RandomAccessFile contents where
  readAt position nbytes :=
    if position < 0 ∨ nbytes < 0 then .error "Invalid: Negative offset or length"
    else .ok ((contents.bytes.drop position.toNat).take nbytes.toNat)
  readAt_negative position nbytes h := ⟨_, if_pos h⟩
  readAt_ok position nbytes _ := by
    rw [if_neg (by omega)]
    simp

/-- Sixteen bytes with the size field minus twelve. -/
def negativeSizeFile : StdString where
  bytes := [0, 0, 0, 0, 0xF4, 0xFF, 0xFF, 0xFF, 0, 0, 0, 0, 0x50, 0x46, 0x41, 0x31]
  length_lt := by decide

/-- `MakeFooter` returns an empty payload for it, `ReadFooter` an error. -/
theorem negativeSizeFile_readers_differ : ¬FooterReadersAgree (bufferReader negativeSizeFile) := by
  have hacc : TrailerAccepted negativeSizeFile.bytes := by decide
  have hn : payloadSizeField negativeSizeFile.bytes = -12 := by decide
  rintro ⟨-, hsafe⟩
  have hm := (makeFooter_ok_of_negative hacc hn (by omega) (p := [])).mpr (.inl ⟨rfl, rfl⟩)
  have := (hsafe [] (.inr hm)).1
  omega

end IcebergCxx.Proofs

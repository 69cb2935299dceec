import IcebergCxx.Lib.Bytes

/-!
# JSON values and their compact text

`Json` is a document tree over byte strings, with integers as its only numbers. `print` writes
the compact text (no white space; `"`, `\` and the control characters escaped) and `parse` reads
such a text back; `parse_print` is the round trip. `JsonLibrary` is what a program may rely on
when it uses some other implementation of the same format.
-/

namespace IcebergCxx.Lib

/-- A JSON document; members of an object keep their order. -/
inductive Json where
  | null
  | bool (b : Bool)
  | int (i : Int)
  | string (s : Bytes)
  | array (elements : List Json)
  | object (members : List (Bytes × Json))

namespace Json

/-- The value of the first member with a name. -/
def findMember (name : Bytes) : List (Bytes × Json) → Option Json
  | [] => none
  | (k, v) :: l => if k = name then some v else findMember name l

mutual

/-- How deep the values of a document are nested. -/
def depth : Json → Nat
  | array l => depthElements l + 1
  | object m => depthMembers m + 1
  | _ => 1

def depthElements : List Json → Nat
  | [] => 0
  | v :: l => max (depth v) (depthElements l)

def depthMembers : List (Bytes × Json) → Nat
  | [] => 0
  | (_, v) :: l => max (depth v) (depthMembers l)

end

lemma depth_le_depthMembers {p : Bytes × Json} {m : List (Bytes × Json)} (h : p ∈ m) : depth p.2 ≤ depthMembers m := by
  induction m with
  | nil => cases h
  | cons q m ih =>
    rw [depthMembers]
    rcases List.mem_cons.mp h with rfl | h
    · exact le_max_left _ _
    · exact (ih h).trans (le_max_right _ _)

/-! ### Writing -/

def hexDigit (n : Nat) : Byte := if n < 10 then Fin.ofNat 256 (48 + n) else Fin.ofNat 256 (55 + n)

/-- The letter of a short escape, for the characters that have one. -/
def shortEscape (c : Byte) : Option Byte :=
  if c = 34 then some 34
  else if c = 92 then some 92
  else if c = 8 then some 98
  else if c = 12 then some 102
  else if c = 10 then some 110
  else if c = 13 then some 114
  else if c = 9 then some 116
  else none

def escapeByte (c : Byte) : Bytes :=
  match shortEscape c with
  | some e => [92, e]
  | none =>
    if c.val < 32 then [92, 117, 48, 48, hexDigit (c.val / 16), hexDigit (c.val % 16)]
    else [c]

def escape : Bytes → Bytes
  | [] => []
  | c :: l => escapeByte c ++ escape l

/-- A string literal, quotes included. -/
def printString (s : Bytes) : Bytes := 34 :: (escape s ++ [34])

mutual

def print : Json → Bytes
  | null => [110, 117, 108, 108]
  | bool true => [116, 114, 117, 101]
  | bool false => [102, 97, 108, 115, 101]
  | int i => toDecimalInt i
  | string s => printString s
  | array [] => [91, 93]
  | array (v :: l) => 91 :: (print v ++ printElements l)
  | object [] => [123, 125]
  | object ((k, v) :: l) => 123 :: (printString k ++ 58 :: (print v ++ printMembers l))

/-- The further elements of an array and its closing bracket. -/
def printElements : List Json → Bytes
  | [] => [93]
  | v :: l => 44 :: (print v ++ printElements l)

/-- The further members of an object and its closing brace. -/
def printMembers : List (Bytes × Json) → Bytes
  | [] => [125]
  | (k, v) :: l => 44 :: (printString k ++ 58 :: (print v ++ printMembers l))

end

/-! ### Reading -/

/-- The rest of the text after a fixed word. -/
def skip : Bytes → Bytes → Option Bytes
  | [], l => some l
  | c :: w, l =>
    match l with
    | [] => none
    | d :: l => if d = c then skip w l else none

def hexValue (c : Byte) : Option Nat :=
  if 48 ≤ c.val ∧ c.val ≤ 57 then some (c.val - 48)
  else if 65 ≤ c.val ∧ c.val ≤ 70 then some (c.val - 55)
  else none

/-- The character a short escape stands for. -/
def unescape (e : Byte) : Option Byte :=
  if e = 34 then some 34
  else if e = 92 then some 92
  else if e = 98 then some 8
  else if e = 102 then some 12
  else if e = 110 then some 10
  else if e = 114 then some 13
  else if e = 116 then some 9
  else none

/-- The value of a `\u00hh` escape, after the `u`. -/
def hexEscape (a b c d : Byte) : Option Byte :=
  if a = 48 ∧ b = 48 then
    match hexValue c, hexValue d with
    | some x, some y => some (Fin.ofNat 256 (16 * x + y))
    | _, _ => none
  else none

/-- A string after its opening quote, and the text after the closing one. -/
def parseString : Bytes → Option (Bytes × Bytes)
  | [] => none
  | c :: l =>
    if c = 34 then some ([], l)
    else if c = 92 then
      match l with
      | [] => none
      | e :: l =>
        if e = 117 then
          match l with
          | a :: b :: c :: d :: l =>
            match hexEscape a b c d with
            | none => none
            | some x => (parseString l).map (fun p => (x :: p.1, p.2))
          | _ => none
        else
          match unescape e with
          | none => none
          | some x => (parseString l).map (fun p => (x :: p.1, p.2))
    else if c.val < 32 then none
    else (parseString l).map (fun p => (c :: p.1, p.2))

def isDigit (c : Byte) : Bool := 48 ≤ c.val && c.val ≤ 57

/-- The value of a numeral, most significant digit first. -/
def ofDecimal (l : Bytes) : Nat := l.foldl (fun n c => 10 * n + (c.val - 48)) 0

/-- An unsigned numeral and the text after it. -/
def parseNat (l : Bytes) : Option (Nat × Bytes) :=
  if (l.takeWhile isDigit).isEmpty then none
  else some (ofDecimal (l.takeWhile isDigit), l.dropWhile isDigit)

mutual

/-- One value at the head of a text, and the text after it. -/
def parseValue : Nat → Bytes → Option (Json × Bytes)
  | 0, _ => none
  | _ + 1, [] => none
  | n + 1, c :: l =>
    if c = 110 then (skip [117, 108, 108] l).map (fun l => (null, l))
    else if c = 116 then (skip [114, 117, 101] l).map (fun l => (bool true, l))
    else if c = 102 then (skip [97, 108, 115, 101] l).map (fun l => (bool false, l))
    else if c = 34 then (parseString l).map (fun p => (string p.1, p.2))
    else if c = 45 then (parseNat l).map (fun p => (int (-p.1), p.2))
    else if c = 91 then
      match skip [93] l with
      | some l => some (array [], l)
      | none => do
        let (v, l) ← parseValue n l
        let (vs, l) ← parseElements n l
        return (array (v :: vs), l)
    else if c = 123 then
      match skip [125] l with
      | some l => some (object [], l)
      | none => do
        let (p, l) ← parseMember n l
        let (ps, l) ← parseMembers n l
        return (object (p :: ps), l)
    else (parseNat (c :: l)).map (fun p => (int p.1, p.2))

def parseElements : Nat → Bytes → Option (List Json × Bytes)
  | 0, _ => none
  | n + 1, l =>
    match skip [93] l with
    | some l => some ([], l)
    | none => do
      let l ← skip [44] l
      let (v, l) ← parseValue n l
      let (vs, l) ← parseElements n l
      return (v :: vs, l)

/-- A name, a colon and a value. -/
def parseMember : Nat → Bytes → Option ((Bytes × Json) × Bytes)
  | 0, _ => none
  | n + 1, l => do
    let l ← skip [34] l
    let (k, l) ← parseString l
    let l ← skip [58] l
    let (v, l) ← parseValue n l
    return ((k, v), l)

def parseMembers : Nat → Bytes → Option (List (Bytes × Json) × Bytes)
  | 0, _ => none
  | n + 1, l =>
    match skip [125] l with
    | some l => some ([], l)
    | none => do
      let l ← skip [44] l
      let (p, l) ← parseMember n l
      let (ps, l) ← parseMembers n l
      return (p :: ps, l)

end

/-- A text that is one value and nothing after it. -/
def parse (l : Bytes) : Option Json :=
  match parseValue (l.length + 1) l with
  | some (v, []) => some v
  | _ => none

/-! ### The round trip -/

lemma skip_singleton_ne {c d : Byte} (h : d ≠ c) (l : Bytes) : skip [c] (d :: l) = none := by
  simp [skip, h]

lemma hexValue_hexDigit : ∀ n < 16, hexValue (hexDigit n) = some n := by decide

lemma hexEscape_hexDigit {c : Byte} (h : c.val < 32) :
    hexEscape 48 48 (hexDigit (c.val / 16)) (hexDigit (c.val % 16)) = some c := by
  have h1 := hexValue_hexDigit (c.val / 16) (by omega)
  have h2 := hexValue_hexDigit (c.val % 16) (by omega)
  have hc : 16 * (c.val / 16) + c.val % 16 = c.val := by omega
  simp [hexEscape, h1, h2, hc]

lemma unescape_shortEscape {c e : Byte} (h : shortEscape c = some e) : unescape e = some c ∧ e ≠ 117 := by
  unfold shortEscape at h
  split_ifs at h with h1 h2 h3 h4 h5 h6 h7
  all_goals
    cases h
    subst_vars
    exact ⟨by decide, by decide⟩

lemma ne_quote_of_shortEscape {c : Byte} (h : shortEscape c = none) : c ≠ 34 ∧ c ≠ 92 := by
  constructor
  · rintro rfl; cases h
  · rintro rfl; cases h

lemma parseString_quote (l : Bytes) : parseString (34 :: l) = some ([], l) := by
  rw [parseString.eq_def]
  simp

lemma parseString_short {c e : Byte} (h : shortEscape c = some e) (l : Bytes) :
    parseString (92 :: e :: l) = (parseString l).map (fun p => (c :: p.1, p.2)) := by
  obtain ⟨hu, he⟩ := unescape_shortEscape h
  rw [parseString.eq_def]
  simp [he, hu]

lemma parseString_raw {c : Byte} (h1 : c ≠ 34) (h2 : c ≠ 92) (h3 : ¬c.val < 32) (l : Bytes) :
    parseString (c :: l) = (parseString l).map (fun p => (c :: p.1, p.2)) := by
  rw [parseString.eq_def]
  simp [h1, h2, h3]

lemma parseString_escapeByte (c : Byte) (l : Bytes) :
    parseString (escapeByte c ++ l) = (parseString l).map (fun p => (c :: p.1, p.2)) := by
  unfold escapeByte
  cases hs : shortEscape c with
  | some e => exact parseString_short hs l
  | none =>
    obtain ⟨h1, h2⟩ := ne_quote_of_shortEscape hs
    by_cases hc : c.val < 32
    · simp [parseString, hc, hexEscape_hexDigit hc]
    · simp only [hc, if_false]
      exact parseString_raw h1 h2 hc l

lemma parseString_escape (s l : Bytes) : parseString (escape s ++ 34 :: l) = some (s, l) := by
  induction s with
  | nil => exact parseString_quote l
  | cons c s ih => rw [escape, List.append_assoc, parseString_escapeByte, ih]; rfl

/-- What follows a numeral does not continue it. -/
def NoDigitHead (l : Bytes) : Prop := ∀ c ∈ l.head?, isDigit c = false

lemma noDigitHead_cons {c : Byte} (l : Bytes) (h : isDigit c = false) : NoDigitHead (c :: l) := by
  intro d hd
  cases hd
  exact h

lemma isDigit_digitByte {d : Nat} (h : d < 10) : isDigit (Fin.ofNat 256 (48 + d)) = true := by
  simp only [isDigit, digitByte_val h, Bool.and_eq_true, decide_eq_true_eq]
  omega

lemma isDigit_toDecimal (n : Nat) : ∀ c ∈ toDecimal n, isDigit c = true := by
  intro c hc
  unfold toDecimal at hc
  split_ifs at hc with hn
  · rw [List.mem_singleton.mp hc]; rfl
  · obtain ⟨d, hd, rfl⟩ := List.mem_map.mp hc
    exact isDigit_digitByte (Nat.digits_lt_base (by norm_num) (List.mem_reverse.mp hd))

lemma ofDecimal_map_digits {l : List Nat} (h : ∀ d ∈ l, d < 10) (n : Nat) :
    (l.map (fun d => Fin.ofNat 256 (48 + d))).foldl (fun n c => 10 * n + (c.val - 48)) n =
      l.foldl (fun n d => 10 * n + d) n := by
  induction l generalizing n with
  | nil => rfl
  | cons d l ih =>
    have hd : (Fin.ofNat 256 (48 + d)).val - 48 = d := by
      rw [digitByte_val (h d List.mem_cons_self)]; omega
    rw [List.map_cons, List.foldl_cons, List.foldl_cons, hd]
    exact ih (fun x hx => h x (List.mem_cons_of_mem _ hx)) _

lemma ofDecimal_toDecimal (n : Nat) : ofDecimal (toDecimal n) = n := by
  unfold toDecimal ofDecimal
  split_ifs with hn
  · subst hn; rfl
  · rw [ofDecimal_map_digits (fun d hd => Nat.digits_lt_base (by norm_num) (List.mem_reverse.mp hd)),
      List.foldl_reverse]
    have hf : (fun d n => 10 * n + d) = fun (d n : Nat) => d + 10 * n := by
      funext d n
      omega
    rw [hf]
    calc (Nat.digits 10 n).foldr (fun d n => d + 10 * n) 0 = Nat.ofDigits 10 (Nat.digits 10 n) := by
          rw [Nat.ofDigits_eq_foldr]; rfl
      _ = n := Nat.ofDigits_digits 10 n

lemma takeWhile_append_noDigitHead {w l : Bytes} (hw : ∀ c ∈ w, isDigit c = true) (hl : NoDigitHead l) :
    (w ++ l).takeWhile isDigit = w ∧ (w ++ l).dropWhile isDigit = l := by
  induction w with
  | nil =>
    cases l with
    | nil => exact ⟨rfl, rfl⟩
    | cons c l =>
      have hc := hl c rfl
      simp [hc]
  | cons c w ih =>
    have hc := hw c List.mem_cons_self
    obtain ⟨h1, h2⟩ := ih (fun d hd => hw d (List.mem_cons_of_mem _ hd))
    simp [hc, h1, h2]

lemma parseNat_toDecimal (n : Nat) {l : Bytes} (hl : NoDigitHead l) :
    parseNat (toDecimal n ++ l) = some (n, l) := by
  obtain ⟨h1, h2⟩ := takeWhile_append_noDigitHead (isDigit_toDecimal n) hl
  have hne : (toDecimal n).isEmpty = false := by simpa using toDecimal_ne_nil n
  simp [parseNat, h1, h2, hne, ofDecimal_toDecimal]

lemma toDecimal_head (n : Nat) : ∃ c l, toDecimal n = c :: l ∧ isDigit c = true := by
  cases h : toDecimal n with
  | nil => exact absurd h (toDecimal_ne_nil n)
  | cons c l => exact ⟨c, l, rfl, isDigit_toDecimal n c (by rw [h]; exact List.mem_cons_self)⟩

/-- A byte that no other kind of value starts with. -/
lemma ne_of_isDigit {c : Byte} (h : isDigit c = true) :
    c ≠ 110 ∧ c ≠ 116 ∧ c ≠ 102 ∧ c ≠ 34 ∧ c ≠ 45 ∧ c ≠ 91 ∧ c ≠ 123 ∧ c ≠ 93 := by
  refine ⟨?_, ?_, ?_, ?_, ?_, ?_, ?_, ?_⟩ <;> (rintro rfl; revert h; decide)

/-- No value starts with a closing bracket. -/
lemma print_head (j : Json) : ∃ c l, print j = c :: l ∧ c ≠ 93 := by
  cases j with
  | null => exact ⟨_, _, by rw [print], by decide⟩
  | bool b => cases b <;> exact ⟨_, _, by rw [print], by decide⟩
  | int i =>
    cases i with
    | ofNat n =>
      obtain ⟨c, l, h, hc⟩ := toDecimal_head n
      exact ⟨c, l, by rw [print, toDecimalInt, h], (ne_of_isDigit hc).2.2.2.2.2.2.2⟩
    | negSucc n => exact ⟨_, _, by rw [print, toDecimalInt], by decide⟩
  | string s => exact ⟨_, _, by rw [print, printString], by decide⟩
  | array l => cases l <;> exact ⟨_, _, by rw [print], by decide⟩
  | object m =>
    cases m with
    | nil => exact ⟨_, _, by rw [print], by decide⟩
    | cons p l => exact ⟨_, _, by rw [print], by decide⟩

lemma printElements_noDigitHead (vs : List Json) (l : Bytes) : NoDigitHead (printElements vs ++ l) := by
  cases vs with
  | nil => exact noDigitHead_cons _ rfl
  | cons v vs => exact noDigitHead_cons _ rfl

lemma printMembers_noDigitHead (ps : List (Bytes × Json)) (l : Bytes) : NoDigitHead (printMembers ps ++ l) := by
  cases ps with
  | nil => exact noDigitHead_cons _ rfl
  | cons p ps => exact noDigitHead_cons _ rfl

lemma parseValue_int (i : Int) (n : Nat) {l : Bytes} (hl : NoDigitHead l) :
    parseValue (n + 1) (toDecimalInt i ++ l) = some (int i, l) := by
  cases i with
  | ofNat k =>
    obtain ⟨c, w, hw, hc⟩ := toDecimal_head k
    obtain ⟨h1, h2, h3, h4, h5, h6, h7, -⟩ := ne_of_isDigit hc
    have hp := parseNat_toDecimal k hl
    rw [hw] at hp
    simp only [toDecimalInt, hw, List.cons_append, parseValue, h1, h2, h3, h4, h5, h6, h7, if_false]
    rw [← List.cons_append, hp]
    rfl
  | negSucc k =>
    have hp := parseNat_toDecimal (k + 1) hl
    simp [toDecimalInt, parseValue, hp, Int.negSucc_eq]

lemma parseMember_print {k : Bytes} {v : Json} {n : Nat} {l : Bytes}
    (hv : parseValue n (print v ++ l) = some (v, l)) :
    parseMember (n + 1) (printString k ++ 58 :: (print v ++ l)) = some ((k, v), l) := by
  have hs := parseString_escape k (58 :: (print v ++ l))
  simp [printString, parseMember, skip, hs, hv]

mutual

/-- Reading one printed value, with as much fuel as its text is long. -/
theorem parseValue_print : ∀ (j : Json) (n : Nat) (l : Bytes), (print j).length ≤ n → NoDigitHead l →
    parseValue n (print j ++ l) = some (j, l)
  | j, 0, l, hn, _ => by
    obtain ⟨c, w, hw, -⟩ := print_head j
    simp [hw] at hn
  | null, n + 1, l, _, _ => by simp [print, parseValue, skip]
  | bool true, n + 1, l, _, _ => by simp [print, parseValue, skip]
  | bool false, n + 1, l, _, _ => by simp [print, parseValue, skip]
  | int i, n + 1, l, _, hl => by rw [print]; exact parseValue_int i n hl
  | string s, n + 1, l, _, _ => by simp [print, printString, parseValue, parseString_escape]
  | array [], n + 1, l, _, _ => by simp [print, parseValue, skip]
  | array (v :: vs), n + 1, l, hn, _ => by
    simp only [print, List.length_cons, List.length_append] at hn
    have hv := parseValue_print v n (printElements vs ++ l) (by omega) (printElements_noDigitHead vs l)
    have hvs := parseElements_print vs n l (by omega)
    obtain ⟨c, w, hw, hc⟩ := print_head v
    have hskip : skip [93] (print v ++ (printElements vs ++ l)) = none := by
      rw [hw]; exact skip_singleton_ne hc _
    simp [print, parseValue, hskip, hv, hvs]
  | object [], n + 1, l, _, _ => by simp [print, parseValue, skip]
  | object ((k, v) :: ps), n + 1, l, hn, _ => by
    simp only [print, List.length_cons, List.length_append, printString, List.length_nil] at hn
    obtain ⟨n, rfl⟩ : ∃ m, n = m + 1 := ⟨n - 1, by omega⟩
    have hv := parseValue_print v n (printMembers ps ++ l) (by omega) (printMembers_noDigitHead ps l)
    have hps := parseMembers_print ps (n + 1) l (by omega)
    have hp := parseMember_print (k := k) hv
    have hskip : skip [125] (printString k ++ 58 :: (print v ++ (printMembers ps ++ l))) = none :=
      skip_singleton_ne (by decide) _
    simp [print, parseValue, hskip, hp, hps]

theorem parseElements_print : ∀ (vs : List Json) (n : Nat) (l : Bytes), (printElements vs).length ≤ n →
    parseElements n (printElements vs ++ l) = some (vs, l)
  | [], 0, l, hn => by simp [printElements] at hn
  | _ :: _, 0, l, hn => by simp [printElements] at hn
  | [], n + 1, l, _ => by simp [printElements, parseElements, skip]
  | v :: vs, n + 1, l, hn => by
    simp only [printElements, List.length_cons, List.length_append] at hn
    have hv := parseValue_print v n (printElements vs ++ l) (by omega) (printElements_noDigitHead vs l)
    have hvs := parseElements_print vs n l (by omega)
    simp [printElements, parseElements, skip, hv, hvs]

theorem parseMembers_print : ∀ (ps : List (Bytes × Json)) (n : Nat) (l : Bytes),
    (printMembers ps).length ≤ n → parseMembers n (printMembers ps ++ l) = some (ps, l)
  | [], 0, l, hn => by simp [printMembers] at hn
  | _ :: _, 0, l, hn => by simp [printMembers] at hn
  | [], n + 1, l, _ => by simp [printMembers, parseMembers, skip]
  | (k, v) :: ps, n + 1, l, hn => by
    simp only [printMembers, List.length_cons, List.length_append, printString, List.length_nil] at hn
    obtain ⟨n, rfl⟩ : ∃ m, n = m + 1 := ⟨n - 1, by omega⟩
    have hv := parseValue_print v n (printMembers ps ++ l) (by omega) (printMembers_noDigitHead ps l)
    have hps := parseMembers_print ps (n + 1) l (by omega)
    have hp := parseMember_print (k := k) hv
    rw [printMembers, parseMembers]
    simp [skip, hp, hps]

end

/-- A printed document is read back. -/
theorem parse_print (j : Json) : parse (print j) = some j := by
  have h := parseValue_print j ((print j).length + 1) [] (by omega) (by simp [NoDigitHead])
  rw [List.append_nil] at h
  simp [parse, h]

/-! ### Printed texts as C strings -/

lemma zero_notMem_escapeByte (c : Byte) : (0 : Byte) ∉ escapeByte c := by
  have hx : ∀ n < 16, (0 : Byte) ≠ hexDigit n := by decide
  unfold escapeByte
  cases hs : shortEscape c with
  | some e =>
    have he : (0 : Byte) ≠ e := by
      rintro rfl
      exact absurd (unescape_shortEscape hs).1 (by simp [unescape])
    simp [he]
  | none =>
    by_cases hc : c.val < 32
    · have h1 := hx (c.val / 16) (by omega)
      have h2 := hx (c.val % 16) (by omega)
      simp [hc, h1, h2]
    · have h0 : (0 : Byte) ≠ c := by
        rintro rfl
        exact hc (by decide)
      simp [hc, h0]

lemma zero_notMem_printString (s : Bytes) : (0 : Byte) ∉ printString s := by
  have he : (0 : Byte) ∉ escape s := by
    induction s with
    | nil => simp [escape]
    | cons c s ih => simp [escape, ih, zero_notMem_escapeByte]
  simp [printString, he]

lemma zero_notMem_toDecimalInt (i : Int) : (0 : Byte) ∉ toDecimalInt i := by
  have hz : ∀ n : Nat, (0 : Byte) ∉ toDecimal n := by
    intro n h
    have := isDigit_toDecimal n 0 h
    revert this
    decide
  cases i with
  | ofNat n => exact hz n
  | negSucc n => simp [toDecimalInt, hz]

mutual

/-- No printed text contains a zero byte. -/
theorem zero_notMem_print : ∀ j : Json, (0 : Byte) ∉ print j
  | null => by simp [print]
  | bool true => by simp [print]
  | bool false => by simp [print]
  | int i => by rw [print]; exact zero_notMem_toDecimalInt i
  | string s => by rw [print]; exact zero_notMem_printString s
  | array [] => by simp [print]
  | array (v :: vs) => by simp [print, zero_notMem_print v, zero_notMem_printElements vs]
  | object [] => by simp [print]
  | object ((k, v) :: ps) => by
    simp [print, zero_notMem_printString, zero_notMem_print v, zero_notMem_printMembers ps]

theorem zero_notMem_printElements : ∀ vs : List Json, (0 : Byte) ∉ printElements vs
  | [] => by simp [printElements]
  | v :: vs => by simp [printElements, zero_notMem_print v, zero_notMem_printElements vs]

theorem zero_notMem_printMembers : ∀ ps : List (Bytes × Json), (0 : Byte) ∉ printMembers ps
  | [] => by simp [printMembers]
  | (k, v) :: ps => by
    simp [printMembers, zero_notMem_printString, zero_notMem_print v, zero_notMem_printMembers ps]

end

end Json

/-- An implementation of the format: it reads back what it writes, writes no zero byte, and
accepts one document with nothing missing in front of it. -/
structure JsonLibrary where
  print : Json → Bytes
  parse : Bytes → Option Json
  parse_print : ∀ j, parse (print j) = some j
  zero_notMem_print : ∀ j, (0 : Byte) ∉ print j
  parse_suffix : ∀ m t u, print (.object m) = t ++ u → t ≠ [] → parse u = none

end IcebergCxx.Lib

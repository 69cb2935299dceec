import IcebergCxx.Transforms

/-!
# Names of transforms

A name is read back to the transform that wrote it, except that of the day transform. Other names are
told apart by their prefixes only, and a parameter by whatever number follows one character later.
-/

namespace IcebergCxx.Proofs

open Lib ParquetWrite

/-! ### Prefixes -/

lemma nameByType_prefix_inj {a b : TransformType} (h : getTransformNameByType a <+: getTransformNameByType b) : a = b := by
  revert h
  cases a <;> cases b <;> decide

lemma prefix_of_getTransformType {name : Bytes} {type : TransformType} (h : getTransformType name = .ok type) :
    getTransformNameByType type <+: name := by
  unfold getTransformType at h
  split_ifs at h with h1 h2 h3 h4 h5 h6 h7 h8 <;> cases h
  · exact h1
  · exact h2
  · exact h3
  · exact h4
  · exact h5
  · exact h6
  · exact h7
  · exact h8

lemma not_prefix_of_getTransformType {name : Bytes} {e : String} (h : getTransformType name = .error e)
    (type : TransformType) : ¬getTransformNameByType type <+: name := by
  unfold getTransformType at h
  split_ifs at h with h1 h2 h3 h4 h5 h6 h7 h8
  cases type with
  | identity => exact h1
  | void => exact h2
  | bucket => exact h3
  | truncate => exact h4
  | year => exact h5
  | day => exact h6
  | month => exact h7
  | hour => exact h8

/-- No prefix is a prefix of another, so a name has at most one of them. -/
lemma getTransformType_ok_iff {name : Bytes} {type : TransformType} :
    getTransformType name = .ok type ↔ getTransformNameByType type <+: name := by
  refine ⟨prefix_of_getTransformType, ?_⟩
  intro h
  cases hname : getTransformType name with
  | error e => exact absurd h (not_prefix_of_getTransformType hname type)
  | ok type' =>
    have h' := prefix_of_getTransformType hname
    rcases Nat.le_total (getTransformNameByType type).length (getTransformNameByType type').length with hle | hle
    · rw [nameByType_prefix_inj (List.prefix_of_prefix_length_le h h' hle)]
    · rw [nameByType_prefix_inj (List.prefix_of_prefix_length_le h' h hle)]

/-! ### Parameters -/

lemma stoi_toDecimalInt {i : Int} (h1 : -2 ^ 31 ≤ i) (h2 : i < 2 ^ 31) : stoi (toDecimalInt i) = .ok i := by
  have hdrop : (toDecimalInt i).dropWhile StringStream.isSpace = toDecimalInt i := by
    obtain ⟨c, l, hl, hc⟩ := (StringStream.isNumeral_toDecimalInt i).head
    rw [hl, StringStream.dropWhile_isSpace_cons hc]
  obtain ⟨sign, hsplit, hsign⟩ := StringStream.splitSign_toDecimalInt i []
  rw [List.append_nil, List.append_nil] at hsplit
  have htake : (toDecimal i.natAbs).takeWhile Json.isDigit = toDecimal i.natAbs := by
    rw [List.takeWhile_eq_self_iff]
    exact Json.isDigit_toDecimal i.natAbs
  have hne : (toDecimal i.natAbs).isEmpty = false := by simpa using toDecimal_ne_nil i.natAbs
  simp only [stoi, hdrop, hsplit, htake, hne, Json.ofDecimal_toDecimal, hsign, Bool.false_eq_true, if_false]
  rw [if_pos ⟨h1, h2⟩]

/-- The text that is read as a number: all but one character after the prefix and the last one. -/
def paramText (p name : Bytes) : Bytes := (name.drop (p.length + 1)).dropLast

lemma getTransformParam_eq {name : Bytes} {type : TransformType} (h : getTransformNameByType type <+: name)
    (hlen : (getTransformNameByType type).length < name.length) :
    getTransformParam name = (stoi (paramText (getTransformNameByType type) name) >>= fun n => .ok (some n)) := by
  have htext : (if name.length = (getTransformNameByType type).length + 1 then []
      else (name.drop ((getTransformNameByType type).length + 1)).take
        (name.length - 2 - (getTransformNameByType type).length)) = paramText (getTransformNameByType type) name := by
    rw [paramText, List.dropLast_eq_take, List.length_drop]
    split_ifs with hone
    · rw [hone, Nat.sub_self, Nat.zero_sub, List.take_zero]
    · congr 1
      omega
  simp only [getTransformParam, getTransformType_ok_iff.mpr h, ok_bind]
  rw [if_neg (by omega), htext]
  rfl

lemma getTransformParam_none {name : Bytes} {type : TransformType} (h : getTransformNameByType type <+: name)
    (hlen : (getTransformNameByType type).length = name.length) : getTransformParam name = .ok none := by
  simp only [getTransformParam, getTransformType_ok_iff.mpr h, ok_bind]
  rw [if_pos hlen.symm]
  rfl

lemma requiredParam_eq {name : Bytes} {type : TransformType} (h : getTransformNameByType type <+: name)
    (hlen : (getTransformNameByType type).length < name.length) :
    requiredParam name = throwing (stoi (paramText (getTransformNameByType type) name)) := by
  rw [requiredParam, getTransformParam_eq h hlen]
  cases stoi (paramText (getTransformNameByType type) name) with
  | error e => rfl
  | ok n => rfl

/-- The parameter of an exact prefix is read from an empty `std::optional`. -/
lemma requiredParam_undefined {name : Bytes} {type : TransformType} (h : getTransformNameByType type <+: name)
    (hlen : (getTransformNameByType type).length = name.length) : requiredParam name = .error .undefined := by
  rw [requiredParam, getTransformParam_none h hlen]
  rfl

/-! ### Round trips -/

/-- The transforms with a positive parameter of type `int`, or without one. -/
def Constructible : ITransform → Prop
  | .bucket numBuckets => 0 < numBuckets ∧ numBuckets < 2 ^ 31
  | .truncate width => 0 < width ∧ width < 2 ^ 31
  | _ => True

/-- A prefix, a bracketed parameter. -/
lemma requiredParam_bracketed {type : TransformType} {n : Int} (h1 : 0 < n) (h2 : n < 2 ^ 31) :
    requiredParam (getTransformNameByType type ++ bytes "[" ++ toDecimalInt n ++ bytes "]") = .ok n := by
  have htext : paramText (getTransformNameByType type)
      (getTransformNameByType type ++ bytes "[" ++ toDecimalInt n ++ bytes "]") = toDecimalInt n := by
    have hbracket : (bytes "[").length = 1 := rfl
    have hlast : bytes "]" = [93] := rfl
    have hsplit : getTransformNameByType type ++ bytes "[" ++ toDecimalInt n ++ bytes "]" =
        (getTransformNameByType type ++ bytes "[") ++ (toDecimalInt n ++ [93]) := by
      rw [hlast]
      simp only [List.append_assoc]
    rw [paramText, hsplit, List.drop_left' (by rw [List.length_append, hbracket]), List.dropLast_concat]
  have hprefix : getTransformNameByType type <+:
      getTransformNameByType type ++ bytes "[" ++ toDecimalInt n ++ bytes "]" := by
    rw [List.append_assoc, List.append_assoc]
    exact List.prefix_append _ _
  rw [requiredParam_eq hprefix, htext, stoi_toDecimalInt (by omega) h2]
  · rfl
  · simp only [List.length_append]
    have : (bytes "[").length = 1 := rfl
    omega

lemma getTransform_toString {t : ITransform} (h : Constructible t) :
    getTransform t.toString = .ok (if t = .day then .hour else t) := by
  cases t with
  | bucket n =>
    obtain ⟨h1, h2⟩ := h
    have htype : getTransformType (ITransform.bucket n).toString = .ok .bucket :=
      getTransformType_ok_iff.mpr ⟨_, (List.append_assoc _ _ _).symm.trans (List.append_assoc _ _ _).symm⟩
    have hparam : requiredParam (ITransform.bucket n).toString = .ok n :=
      @requiredParam_bracketed .bucket n h1 h2
    simp only [getTransform, htype, throwing_ok, ok_bind, hparam]
    rfl
  | truncate n =>
    obtain ⟨h1, h2⟩ := h
    have htype : getTransformType (ITransform.truncate n).toString = .ok .truncate :=
      getTransformType_ok_iff.mpr ⟨_, (List.append_assoc _ _ _).symm.trans (List.append_assoc _ _ _).symm⟩
    have hparam : requiredParam (ITransform.truncate n).toString = .ok n :=
      @requiredParam_bracketed .truncate n h1 h2
    simp only [getTransform, htype, throwing_ok, ok_bind, hparam]
    rfl
  | identity => rfl
  | void => rfl
  | year => rfl
  | month => rfl
  | day => rfl
  | hour => rfl

/-- The names that are rejected: those without any of the prefixes, and those of buckets and truncation
with more than the prefix where no number of type `int` follows one character later. -/
def Rejected (name : Bytes) : Prop :=
  (∀ type, ¬getTransformNameByType type <+: name) ∨
    ∃ type, (type = .bucket ∨ type = .truncate) ∧ getTransformNameByType type <+: name ∧
      (getTransformNameByType type).length < name.length ∧
      ∃ message, stoi (paramText (getTransformNameByType type) name) = .error message

lemma rejected_iff_of_isPrefixOf {name : Bytes} {type : TransformType} (h : getTransformNameByType type <+: name) :
    Rejected name ↔ (type = .bucket ∨ type = .truncate) ∧ (getTransformNameByType type).length < name.length ∧
      ∃ message, stoi (paramText (getTransformNameByType type) name) = .error message := by
  constructor
  · rintro (hnone | ⟨type', hkind, h', hrest⟩)
    · exact absurd h (hnone type)
    · have heq := (getTransformType_ok_iff.mpr h).symm.trans (getTransformType_ok_iff.mpr h')
      cases heq
      exact ⟨hkind, hrest⟩
  · rintro ⟨hkind, hrest⟩
    exact .inr ⟨type, hkind, h, hrest⟩

/-- A name with a parameter throws when its number does. -/
lemma throws_requiredParam_iff {name : Bytes} {type : TransformType} (h : getTransformNameByType type <+: name)
    (make : Int → ITransform) :
    Throws (requiredParam name >>= fun n => .ok (make n)) ↔ (getTransformNameByType type).length < name.length ∧
      ∃ message, stoi (paramText (getTransformNameByType type) name) = .error message := by
  rcases h.length_le.lt_or_eq with hlt | heq
  · rw [requiredParam_eq h hlt]
    cases stoi (paramText (getTransformNameByType type) name) with
    | error e => exact ⟨fun _ => ⟨hlt, e, rfl⟩, fun _ => ⟨e, rfl⟩⟩
    | ok n => exact ⟨fun ⟨_, h⟩ => (by cases h), fun ⟨_, _, h⟩ => (by cases h)⟩
  · rw [requiredParam_undefined h heq]
    exact ⟨fun ⟨_, h⟩ => (by cases h), fun h' => absurd heq h'.1.ne⟩

lemma not_throws_ok {α : Type} (a : α) : ¬Throws (.ok a : Except Failure α) := fun ⟨_, h⟩ => by cases h

lemma throws_getTransform_iff (name : Bytes) : Throws (getTransform name) ↔ Rejected name := by
  cases htype : getTransformType name with
  | error e =>
    have hthrows : getTransform name = .error (.thrown e) := by
      simp only [getTransform, htype, throwing_error, error_bind]
    exact ⟨fun _ => .inl (not_prefix_of_getTransformType htype), fun _ => ⟨e, hthrows⟩⟩
  | ok type =>
    have hprefix := prefix_of_getTransformType htype
    rw [rejected_iff_of_isPrefixOf hprefix]
    simp only [getTransform, htype, throwing_ok, ok_bind]
    cases type with
    | bucket =>
      rw [← throws_requiredParam_iff hprefix ITransform.bucket]
      exact ⟨fun h => ⟨.inl rfl, h⟩, fun h => h.2⟩
    | truncate =>
      rw [← throws_requiredParam_iff hprefix ITransform.truncate]
      exact ⟨fun h => ⟨.inr rfl, h⟩, fun h => h.2⟩
    | _ => exact ⟨fun h => absurd h (not_throws_ok _), fun h => by simp at h⟩

/-- The transforms round trip through their names, except the day transform, which comes back as the
hour transform; a name throws when it is rejected. -/
theorem getTransform_names (t : ITransform) (ht : Constructible t) (name : Bytes) :
    (getTransform t.toString = .ok t ↔ t ≠ .day) ∧ (Throws (getTransform name) ↔ Rejected name) := by
  constructor
  · rw [getTransform_toString ht]
    by_cases hday : t = .day
    · subst hday
      simp
    · simp [hday]
  · exact throws_getTransform_iff name

/-- Sixteen buckets, and the empty name. -/
theorem getTransform_bucket16 :
    getTransform (ITransform.bucket 16).toString = .ok (.bucket 16) ∧ Throws (getTransform []) := by
  have hrejected : Rejected [] := by
    apply Or.inl
    intro type
    cases type <;> decide
  obtain ⟨hround, hthrows⟩ := getTransform_names (.bucket 16) ⟨by decide, by decide⟩ []
  exact ⟨hround.mpr (by decide), hthrows.mpr hrejected⟩

/-- The name of the day transform makes an hour transform, and a name that only starts like one of the
transforms makes that transform. -/
theorem not_getTransform_names :
    (¬∀ t : ITransform, Constructible t → getTransform t.toString = .ok t) ∧
      ¬∀ name : Bytes, (∀ t : ITransform, Constructible t → name ≠ t.toString) → Throws (getTransform name) := by
  constructor
  · intro hround
    have hday := hround .day trivial
    rw [getTransform_toString (show Constructible .day from trivial)] at hday
    simp at hday
  · intro hthrows
    have hnames : ∀ t : ITransform, Constructible t → bytes "yearly" ≠ t.toString := by
      intro t _ h
      cases t <;> revert h <;> simp [ITransform.toString, bytes]
    exact not_throws_ok ITransform.year (hthrows (bytes "yearly") hnames)

/-! ### The transforms of the writer -/

/-- What the writer takes as a parameter for the transforms that hash. -/
def hashedTransform (lib : TransformLibrary) (name : Bytes) (src : ParquetWrite.Scalar) :
    Except String ParquetWrite.Scalar :=
  match getTransform name >>= fun t => t.transform lib src with
  | .ok value => .ok value
  | .error _ => .error "no value"

lemma hashedTransform_ok_iff (lib : TransformLibrary) (name : Bytes) (src value : ParquetWrite.Scalar) :
    hashedTransform lib name src = .ok value ↔ (getTransform name >>= fun t => t.transform lib src) = .ok value := by
  unfold hashedTransform
  split <;> simp_all

lemma temporalTransform_ok_iff (part : CivilTime → Int) (src value : ParquetWrite.Scalar) :
    temporalTransform part src = .ok value ↔ calendarTransform part src = .ok value := by
  obtain ⟨type, isValid, v⟩ := src
  cases type <;> cases v <;> simp [temporalTransform, calendarTransform]

/-- The writer computes partition values with the transforms of `GetTransform`. -/
theorem transformScalar_ok_iff (lib : TransformLibrary) (name : Bytes) (src value : ParquetWrite.Scalar) :
    transformScalar (hashedTransform lib) name src = .ok value ↔
      (getTransform name >>= fun t => t.transform lib src) = .ok value := by
  cases htype : getTransformType name with
  | error e => simp only [transformScalar, getTransform, htype, throwing_error, error_bind, error_bind, reduceCtorEq]
  | ok type =>
    cases type with
    | bucket =>
      simp only [transformScalar, htype, ok_bind]
      exact hashedTransform_ok_iff lib name src value
    | truncate =>
      simp only [transformScalar, htype, ok_bind]
      exact hashedTransform_ok_iff lib name src value
    | identity | void =>
      simp only [transformScalar, getTransform, htype, throwing_ok, ok_bind, ok_bind]
      exact ⟨fun h => congrArg _ (Except.ok.inj h), fun h => congrArg _ (Except.ok.inj h)⟩
    | year | month | day | hour =>
      simp only [transformScalar, getTransform, htype, throwing_ok, ok_bind, ok_bind]
      exact temporalTransform_ok_iff _ src value

end IcebergCxx.Proofs

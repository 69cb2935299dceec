import IcebergCxx.Url

/-!
# One URL, one object

What metadata reading opens is the text after the schema up to the first question mark or number
sign, what data reading opens is all of that text. So the two name the same object, and different
URLs different objects, exactly when the text has neither of these bytes and is not empty.
-/

namespace IcebergCxx.Proofs

open Lib

/-- What follows the schema. -/
def afterSchema (url : Bytes) : Bytes :=
  url.drop (((find schemaDelimiter url).map (fun pos => pos + schemaDelimiter.length)).getD 0)

/-- What follows the schema is not empty and has no byte that starts a query or a fragment. -/
def PlainUrl (url : Bytes) : Prop := afterSchema url ≠ [] ∧ ∀ c ∈ afterSchema url, c ∉ bytes "?#"

lemma mem_slash_of_mem {c : Byte} (h : c ∈ bytes "?#") : c ∈ bytes "/?#" := List.mem_cons_of_mem _ h

lemma mem_or_of_mem_slash {c : Byte} (h : c ∈ bytes "/?#") : c = 47 ∨ c ∈ bytes "?#" := List.mem_cons.mp h

lemma takeWhile_eq_append {s : Bytes} {pos : Nat} (h : findFirst (bytes "/?#") s = some pos) :
    s.takeWhile (fun c => c ∉ bytes "?#") = s.take pos ++ (s.drop pos).takeWhile (fun c => c ∉ bytes "?#") := by
  have htake := (findFirst_some h).1
  have hall : ∀ c ∈ s.take pos, decide (c ∉ bytes "?#") = true := by
    intro c hc
    rw [← htake] at hc
    have hc' := List.mem_takeWhile_imp hc
    simp only [decide_eq_true_eq] at hc' ⊢
    exact fun hmem => hc' (mem_slash_of_mem hmem)
  calc s.takeWhile (fun c => c ∉ bytes "?#")
      = (s.take pos ++ s.drop pos).takeWhile (fun c => c ∉ bytes "?#") := by rw [List.take_append_drop]
    _ = _ := List.takeWhile_append_of_pos hall

/-- The location and the path are the text up to the first question mark or number sign. -/
lemma location_append_path (url : Bytes) :
    (splitUrl url).location ++ (splitUrl url).path = (afterSchema url).takeWhile (fun c => c ∉ bytes "?#") := by
  simp only [splitUrl, afterSchema, findFirstOf]
  generalize ((find schemaDelimiter url).map (fun pos => pos + schemaDelimiter.length)).getD 0 = start
  cases hfirst : findFirst (bytes "/?#") (url.drop start) with
  | none =>
    have hall : ∀ c ∈ url.drop start, decide (c ∉ bytes "?#") = true := by
      intro c hc
      have hc' := findFirst_eq_none.mp hfirst c hc
      simpa using fun hmem => hc' (mem_slash_of_mem hmem)
    simp only [Option.map_none, List.append_nil]
    rw [List.takeWhile_eq_self_iff.mpr hall]
  | some pos =>
    obtain ⟨-, c, rest, hdrop, hc⟩ := findFirst_some hfirst
    have hget : url[pos + start]? = some c := by
      rw [List.drop_drop, Nat.add_comm] at hdrop
      rw [← List.head?_drop, hdrop]
      rfl
    have htail : url.drop (pos + start) = c :: rest := by
      rw [← hdrop, List.drop_drop, Nat.add_comm]
    have htail' : url.drop (pos + start + 1) = rest := by
      rw [← List.drop_drop, htail]
      rfl
    simp only [Option.map_some, hget, Option.some.injEq, Nat.add_sub_cancel, htail, htail']
    rw [takeWhile_eq_append hfirst, hdrop]
    by_cases hslash : c = 47
    · subst hslash
      simp only [if_true]
      congr 1
      rw [List.takeWhile_cons_of_pos (by decide), ← before_findFirst]
      cases findFirst (bytes "?#") rest with
      | none => rfl
      | some i =>
        simp only [Option.map_some, before]
        rw [show i + (pos + start + 1) - (pos + start) = i + 1 by omega]
        rfl
    · have hmem := (mem_or_of_mem_slash hc).resolve_left hslash
      rw [if_neg hslash, List.takeWhile_cons_of_neg (by simpa using hmem)]

lemma urlToPath_eq {url : Bytes} (h : isKnownPrefix (splitUrl url).schema = true) :
    urlToPath url = (afterSchema url).takeWhile (fun c => c ∉ bytes "?#") := by
  rw [urlToPath, if_pos h, location_append_path]

/-- Both functions split the schema off in the same way. -/
lemma schema_splitUrl (url : Bytes) :
    (splitUrl url).schema = ((find schemaDelimiter url).map (fun pos => url.take pos)).getD [] := by
  simp only [splitUrl]
  split
  · rfl
  · split_ifs <;> rfl

lemma schema_fsSplitUrl (url : Bytes) :
    (Fs.splitUrl url).schema = ((find schemaDelimiter url).map (fun pos => url.take pos)).getD [] := by
  simp only [Fs.splitUrl]
  split
  · rfl
  · split <;> rfl

/-- A URL with a known schema is the schema, the delimiter and the rest. -/
lemma eq_schema_append {url : Bytes} (h : isKnownPrefix (splitUrl url).schema = true) :
    (find schemaDelimiter url).isSome ∧ url = (splitUrl url).schema ++ schemaDelimiter ++ afterSchema url := by
  rw [schema_splitUrl] at h ⊢
  cases hfind : find schemaDelimiter url with
  | none =>
    rw [hfind] at h
    cases h
  | some pos =>
    refine ⟨rfl, ?_⟩
    rw [afterSchema, hfind]
    exact drop_find hfind

lemma openerPath_eq {schemas : List Bytes} {url : Bytes} (h : isKnownPrefix (splitUrl url).schema = true)
    (hmem : (splitUrl url).schema ∈ schemas) : openerPath schemas url = .ok (afterSchema url) := by
  obtain ⟨hsome, -⟩ := eq_schema_append h
  obtain ⟨pos, hpos⟩ := Option.isSome_iff_exists.mp hsome
  rw [schema_splitUrl, ← schema_fsSplitUrl] at hmem
  simp only [openerPath, getFileSystem, if_pos hmem, ok_bind, afterSchema, hpos]
  rfl

lemma openFilePath_eq {url : Bytes} (h : isKnownPrefix (splitUrl url).schema = true) (hplain : PlainUrl url) :
    openFilePath url = .ok (afterSchema url) := by
  have hall : ∀ c ∈ afterSchema url, decide (c ∉ bytes "?#") = true := by
    intro c hc
    simpa using hplain.2 c hc
  have hpath : urlToPath url = afterSchema url := by
    rw [urlToPath_eq h, List.takeWhile_eq_self_iff.mpr hall]
  have hne : (afterSchema url).isEmpty = false := by
    simpa using hplain.1
  simp only [openFilePath, hpath, hne]
  rfl

/-- Metadata reading and data reading open the same path. -/
def SamePath (schemas : List Bytes) (url : Bytes) : Prop :=
  ∃ path, openFilePath url = .ok path ∧ openerPath schemas url = .ok path

lemma samePath_iff {schemas : List Bytes} {url : Bytes} (h : isKnownPrefix (splitUrl url).schema = true)
    (hmem : (splitUrl url).schema ∈ schemas) : SamePath schemas url ↔ PlainUrl url := by
  constructor
  · rintro ⟨path, hopen, hopener⟩
    rw [openerPath_eq h hmem] at hopener
    cases hopener
    unfold openFilePath at hopen
    dsimp only at hopen
    split_ifs at hopen with hempty
    rw [Except.ok.injEq, urlToPath_eq h, List.takeWhile_eq_self_iff] at hopen
    refine ⟨fun hnil => ?_, fun c hc => by simpa using hopen c hc⟩
    rw [urlToPath_eq h, hnil] at hempty
    exact hempty rfl
  · intro hplain
    exact ⟨afterSchema url, openFilePath_eq h hplain, openerPath_eq h hmem⟩

/-- One URL names one object, for two URLs of one schema: each is opened at the same path by both
readers, and different URLs are opened at different paths. -/
def OneObject (schemas : List Bytes) (url url' : Bytes) : Prop :=
  SamePath schemas url ∧ SamePath schemas url' ∧
    (url ≠ url' → openFilePath url ≠ openFilePath url' ∧ openerPath schemas url ≠ openerPath schemas url')

theorem oneObject_iff {schemas : List Bytes} {url url' : Bytes} (hknown : isKnownPrefix (splitUrl url).schema = true)
    (hsame : (splitUrl url').schema = (splitUrl url).schema) (hmem : (splitUrl url).schema ∈ schemas) :
    OneObject schemas url url' ↔ PlainUrl url ∧ PlainUrl url' := by
  have hknown' : isKnownPrefix (splitUrl url').schema = true := by rw [hsame, hknown]
  have hmem' : (splitUrl url').schema ∈ schemas := by rw [hsame]; exact hmem
  unfold OneObject
  rw [samePath_iff hknown hmem, samePath_iff hknown' hmem']
  constructor
  · rintro ⟨h, h', -⟩
    exact ⟨h, h'⟩
  · rintro ⟨h, h'⟩
    refine ⟨h, h', fun hne => ?_⟩
    have hafter : afterSchema url ≠ afterSchema url' := by
      intro heq
      apply hne
      rw [(eq_schema_append hknown).2, (eq_schema_append hknown').2, hsame, heq]
    rw [openFilePath_eq hknown h, openFilePath_eq hknown' h', openerPath_eq hknown hmem, openerPath_eq hknown' hmem']
    simpa using hafter

theorem oneObject_dataFiles : OneObject [bytes "s3"] (bytes "s3://w/a") (bytes "s3://w//b://c") := by
  have ha : afterSchema (bytes "s3://w/a") = bytes "w/a" := rfl
  have hb : afterSchema (bytes "s3://w//b://c") = bytes "w//b://c" := rfl
  refine (oneObject_iff (by decide) (by decide) (by decide)).mpr ⟨?_, ?_⟩
  · rw [PlainUrl, ha]
    exact ⟨by decide, by decide +kernel⟩
  · rw [PlainUrl, hb]
    exact ⟨by decide, by decide +kernel⟩

/-- An object key may have a question mark: metadata reading cuts the key there. -/
theorem questionMark_notOneObject :
    isKnownPrefix (splitUrl (bytes "s3://b/k?1")).schema = true ∧
      openFilePath (bytes "s3://b/k?1") = .ok (bytes "b/k") ∧
      openerPath [bytes "s3"] (bytes "s3://b/k?1") = .ok (bytes "b/k?1") ∧
      openFilePath (bytes "s3://b/k?2") = .ok (bytes "b/k") ∧
      ¬OneObject [bytes "s3"] (bytes "s3://b/k?1") (bytes "s3://b/k?2") := by
  refine ⟨by decide, rfl, rfl, rfl, ?_⟩
  rintro ⟨⟨path, hopen, hopener⟩, -⟩
  have h1 : openFilePath (bytes "s3://b/k?1") = .ok (bytes "b/k") := rfl
  have h2 : openerPath [bytes "s3"] (bytes "s3://b/k?1") = .ok (bytes "b/k?1") := rfl
  rw [h1, Except.ok.injEq] at hopen
  rw [h2, Except.ok.injEq, ← hopen] at hopener
  exact absurd hopener (by decide)

end IcebergCxx.Proofs

import IcebergCxx.Proofs.Url

/-!
# Splitting URLs

Both functions that split a URL find the same components, and the components of a URL that was put together are those
it was made of, unless the schema has the delimiter.
-/

namespace IcebergCxx.Proofs

open Lib

variable {url : Bytes} {params : List (Bytes × Bytes)}

/-! ### The components -/

def locationText (url : Bytes) : Bytes := (afterSchema url).takeWhile (fun c => c ∉ bytes "/?#")

/-- What follows the location. -/
def afterLocation (url : Bytes) : Bytes := (afterSchema url).dropWhile (fun c => c ∉ bytes "/?#")

def pathText (url : Bytes) : Bytes := (afterLocation url).takeWhile (fun c => c ∉ bytes "?#")

/-- What follows the path. -/
def queryText (url : Bytes) : Bytes := (afterLocation url).dropWhile (fun c => c ∉ bytes "?#")

def schemaText (url : Bytes) : Bytes := ((find schemaDelimiter url).map (fun pos => url.take pos)).getD []

/-- The components that `SplitUrl` of `url.cpp` finds. -/
lemma fsSplitUrl_eq (url : Bytes) : Fs.splitUrl url =
    { schema := schemaText url
      location := locationText url
      path := pathText url
      params := Fs.parseParams (queryText url).length (queryText url) } := by
  simp only [Fs.splitUrl, pathText, queryText, afterLocation, locationText]
  rw [← afterSchema]
  cases hlocation : findFirst (bytes "/?#") (afterSchema url) with
  | none =>
    obtain ⟨htake, hdrop⟩ := dropWhile_of_findFirst hlocation
    rw [htake, hdrop]
    rfl
  | some pos =>
    rw [(findFirst_some hlocation).1, ← drop_findFirst hlocation]
    cases hpath : findFirst (bytes "?#") ((afterSchema url).drop pos) with
    | none =>
      obtain ⟨htake, hdrop⟩ := dropWhile_of_findFirst hpath
      rw [htake, hdrop]
      simp only [hpath]
      rfl
    | some pos' =>
      rw [(findFirst_some hpath).1, ← drop_findFirst hpath]
      simp only [hpath]
      rfl

/-- The components that `SplitUrl` of `tea_scan.cpp` finds. -/
lemma splitUrl_eq (url : Bytes) :
    splitUrl url = { schema := schemaText url, location := locationText url, path := pathText url } := by
  have hlocation : (splitUrl url).location = locationText url := by
    simp only [splitUrl, findFirstOf, locationText]
    rw [← afterSchema]
    cases hlocation : findFirst (bytes "/?#") (afterSchema url) with
    | none => exact (dropWhile_of_findFirst hlocation).1.symm
    | some pos =>
      simp only [Option.map_some, Nat.add_sub_cancel, (findFirst_some hlocation).1]
      split_ifs <;> rfl
  have happend := location_append_path url
  rw [hlocation] at happend
  have hsplit : locationText url ++ pathText url = (afterSchema url).takeWhile (fun c => c ∉ bytes "?#") := by
    have hall : ∀ c ∈ locationText url, decide (c ∉ bytes "?#") = true := by
      intro c hc
      have hc' := List.mem_takeWhile_imp hc
      simp only [decide_eq_true_eq] at hc' ⊢
      exact fun hmem => hc' (mem_slash_of_mem hmem)
    rw [pathText, ← List.takeWhile_append_of_pos hall, locationText, afterLocation, List.takeWhile_append_dropWhile]
  have hpath := List.append_cancel_left (happend.trans hsplit.symm)
  have hschema := schema_splitUrl url
  cases hurl : splitUrl url with
  | mk schema location path =>
    rw [hurl] at hlocation hpath hschema
    simp only at hlocation hpath hschema
    rw [hlocation, hpath, hschema, schemaText]

/-! ### The loop over the parameters -/

/-- A run of the loop that ends: the text it starts on and the parameters it adds. -/
inductive ParamLoop : Bytes → List (Bytes × Bytes) → Prop
  | stop (url : Bytes) (h : url = [] ∨ url.head? = some 35) : ParamLoop url []
  | last (url : Bytes) (h : url ≠ [] ∧ url.head? ≠ some 35) (hfind : findFirst (bytes "?&#") url = none) :
    ParamLoop url [Fs.parseParam url]
  | question (url : Bytes) (pos : Nat) (params : List (Bytes × Bytes)) (h : url ≠ [] ∧ url.head? ≠ some 35)
    (hfind : findFirst (bytes "?&#") url = some pos) (hc : url[pos]? = some 63) (hrest : ParamLoop (url.drop 1) params) :
    ParamLoop url params
  | ampersand (url : Bytes) (pos : Nat) (params : List (Bytes × Bytes)) (h : url ≠ [] ∧ url.head? ≠ some 35)
    (hfind : findFirst (bytes "?&#") url = some pos) (hc : url[pos]? = some 38)
    (hrest : ParamLoop (url.drop (pos + 1)) params) :
    ParamLoop url (Fs.parseParam (url.take pos) :: params)
  | numberSign (url : Bytes) (pos : Nat) (params : List (Bytes × Bytes)) (h : url ≠ [] ∧ url.head? ≠ some 35)
    (hfind : findFirst (bytes "?&#") url = some pos) (hc : url[pos]? = some 35)
    (hrest : ParamLoop (url.drop pos) params) :
    ParamLoop url (Fs.parseParam (url.take pos) :: params)

lemma parseParams_condition {url : Bytes} (h : url ≠ [] ∧ url.head? ≠ some 35) :
    ¬(url.isEmpty || url.head? = some 35) = true := by
  simpa using h

/-- With enough fuel the parameters are those of the run. -/
lemma parseParams_of_loop (h : ParamLoop url params) : ∀ fuel, url.length ≤ fuel → Fs.parseParams fuel url = params := by
  induction h with
  | stop url h =>
    intro fuel _
    cases fuel with
    | zero => rfl
    | succ fuel => rw [Fs.parseParams, if_pos (by simpa using h)]
  | last url h hfind =>
    intro fuel hfuel
    obtain ⟨fuel, rfl⟩ := Nat.exists_eq_add_of_lt ((List.length_pos_of_ne_nil h.1).trans_le hfuel)
    rw [Nat.zero_add, Fs.parseParams, if_neg (parseParams_condition h), hfind]
  | question url pos params h hfind hc hrest ih =>
    intro fuel hfuel
    obtain ⟨fuel, rfl⟩ := Nat.exists_eq_add_of_lt ((List.length_pos_of_ne_nil h.1).trans_le hfuel)
    rw [Nat.zero_add, Fs.parseParams, if_neg (parseParams_condition h), hfind]
    simp only [hc, if_true]
    exact ih fuel (by rw [List.length_drop]; omega)
  | ampersand url pos params h hfind hc hrest ih =>
    intro fuel hfuel
    obtain ⟨fuel, rfl⟩ := Nat.exists_eq_add_of_lt ((List.length_pos_of_ne_nil h.1).trans_le hfuel)
    rw [Nat.zero_add, Fs.parseParams, if_neg (parseParams_condition h), hfind]
    simp only [hc, Option.some.injEq, if_true]
    rw [if_neg (by decide), ih fuel (by rw [List.length_drop]; omega)]
  | numberSign url pos params h hfind hc hrest ih =>
    intro fuel hfuel
    obtain ⟨fuel, rfl⟩ := Nat.exists_eq_add_of_lt ((List.length_pos_of_ne_nil h.1).trans_le hfuel)
    have hpos : pos ≠ 0 := by
      rintro rfl
      rw [← List.head?_eq_getElem?] at hc
      exact h.2 hc
    rw [Nat.zero_add, Fs.parseParams, if_neg (parseParams_condition h), hfind]
    simp only [hc, Option.some.injEq]
    rw [if_neg (by decide), if_neg (by decide), ih fuel (by rw [List.length_drop]; omega)]

/-- The byte that the loop finds is one of the three. -/
lemma findFirst_delimiter {pos : Nat} (h : findFirst (bytes "?&#") url = some pos) :
    pos < url.length ∧ (url[pos]? = some 63 ∨ url[pos]? = some 38 ∨ url[pos]? = some 35) := by
  obtain ⟨-, c, rest, hdrop, hc⟩ := findFirst_some h
  have hget : url[pos]? = some c := by
    rw [← List.head?_drop, hdrop]
    rfl
  refine ⟨(List.getElem?_eq_some_iff.mp hget).1, ?_⟩
  have hcases : c = 63 ∨ c = 38 ∨ c = 35 := by simpa [bytes] using hc
  rcases hcases with rfl | rfl | rfl
  · exact .inl hget
  · exact .inr (.inl hget)
  · exact .inr (.inr hget)

/-- Every round takes a byte, so the loop ends. -/
lemma exists_paramLoop (url : Bytes) : ∃ params, ParamLoop url params := by
  induction hn : url.length using Nat.strong_induction_on generalizing url with
  | _ n ih =>
    by_cases hstop : url = [] ∨ url.head? = some 35
    · exact ⟨[], .stop url hstop⟩
    · have h := not_or.mp hstop
      cases hfind : findFirst (bytes "?&#") url with
      | none => exact ⟨_, .last url h hfind⟩
      | some pos =>
        obtain ⟨hpos, hc | hc | hc⟩ := findFirst_delimiter hfind
        · obtain ⟨params, hrest⟩ := ih (url.drop 1).length (by rw [List.length_drop]; omega) _ rfl
          exact ⟨params, .question url pos params h hfind hc hrest⟩
        · obtain ⟨params, hrest⟩ := ih (url.drop (pos + 1)).length (by rw [List.length_drop]; omega) _ rfl
          exact ⟨_, .ampersand url pos params h hfind hc hrest⟩
        · have hne : pos ≠ 0 := by
            rintro rfl
            rw [← List.head?_eq_getElem?] at hc
            exact h.2 hc
          obtain ⟨params, hrest⟩ := ih (url.drop pos).length (by rw [List.length_drop]; omega) _ rfl
          exact ⟨_, .numberSign url pos params h hfind hc hrest⟩

lemma paramLoop_parseParams (url : Bytes) : ParamLoop url (Fs.parseParams url.length url) := by
  obtain ⟨params, h⟩ := exists_paramLoop url
  rw [parseParams_of_loop h _ le_rfl]
  exact h

/-! ### URLs that are put together -/

def parameterText (param : Bytes × Bytes) : Bytes := param.1 ++ 61 :: param.2

def parametersText : List (Bytes × Bytes) → Bytes
  | [] => []
  | [param] => parameterText param
  | param :: params => parameterText param ++ 38 :: parametersText params

/-- `schema://location path?k1=v1&...&kn=vn#fragment`. -/
def urlOf (schema location path : Bytes) (params : List (Bytes × Bytes)) (fragment : Bytes) : Bytes :=
  schema ++ schemaDelimiter ++ (location ++ (path ++ 63 :: (parametersText params ++ 35 :: fragment)))

/-- The parts have none of the bytes that end them. -/
structure UrlParts (location path : Bytes) (params : List (Bytes × Bytes)) : Prop where
  location : ∀ c ∈ location, c ∉ bytes "/?#"
  path_start : path = [] ∨ path.head? = some 47
  path : ∀ c ∈ path, c ∉ bytes "?#"
  keys : ∀ param ∈ params, ∀ c ∈ param.1, c ∉ bytes "=&#?"
  values : ∀ param ∈ params, ∀ c ∈ param.2, c ∉ bytes "&#?"

section
variable {param : Bytes × Bytes} (hkey : ∀ c ∈ param.1, c ∉ bytes "=&#?")
  (hvalue : ∀ c ∈ param.2, c ∉ bytes "&#?")
include hkey

lemma parseParam_parameterText : Fs.parseParam (parameterText param) = param := by
  have hfind : findFirst [61] (parameterText param) = some param.1.length :=
    findFirst_append (fun c hc => by simpa using fun heq => hkey c hc (by simp [bytes, heq])) (by simp) _
  rw [Fs.parseParam, hfind, parameterText]
  simp

include hvalue

lemma parameterText_plain : ∀ c ∈ parameterText param, c ∉ bytes "?&#" := by
  intro c hc hmem
  have hcases : c = 63 ∨ c = 38 ∨ c = 35 := by simpa [bytes] using hmem
  obtain hc | hc := List.mem_append.mp hc
  · exact hkey c hc (by rcases hcases with rfl | rfl | rfl <;> decide)
  · obtain rfl | hc := List.mem_cons.mp hc
    · revert hcases
      decide
    · exact hvalue c hc (by rcases hcases with rfl | rfl | rfl <;> decide)

lemma parameterText_starts (rest : Bytes) :
    parameterText param ++ rest ≠ [] ∧ (parameterText param ++ rest).head? ≠ some 35 := by
  have hne : parameterText param ≠ [] := by simp [parameterText]
  obtain ⟨c, l, hcons⟩ := List.exists_cons_of_ne_nil hne
  have hplain := parameterText_plain hkey hvalue c (by rw [hcons]; exact List.mem_cons_self)
  rw [hcons]
  refine ⟨by simp, ?_⟩
  rintro h
  rw [List.cons_append, List.head?_cons, Option.some_inj] at h
  rw [h] at hplain
  exact hplain (by decide)

end

/-- The loop takes one parameter after the other up to the fragment. -/
lemma paramLoop_parametersText (params : List (Bytes × Bytes)) (fragment : Bytes)
    (hkeys : ∀ param ∈ params, ∀ c ∈ param.1, c ∉ bytes "=&#?")
    (hvalues : ∀ param ∈ params, ∀ c ∈ param.2, c ∉ bytes "&#?") :
    ParamLoop (parametersText params ++ 35 :: fragment) params := by
  induction params with
  | nil => exact .stop _ (.inr rfl)
  | cons param params ih =>
    have hkey := hkeys param List.mem_cons_self
    have hvalue := hvalues param List.mem_cons_self
    have hrest := ih (fun p hp => hkeys p (List.mem_cons_of_mem _ hp)) (fun p hp => hvalues p (List.mem_cons_of_mem _ hp))
    have hstarts := parameterText_starts hkey hvalue
    have hfind (c : Byte) (hc : c ∈ bytes "?&#") (rest : Bytes) :
        findFirst (bytes "?&#") (parameterText param ++ c :: rest) = some (parameterText param).length :=
      findFirst_append (parameterText_plain hkey hvalue) hc rest
    cases params with
    | nil =>
      have h := ParamLoop.numberSign _ _ [] (hstarts _) (hfind 35 (by decide) fragment) (by simp)
        (by rw [List.drop_left]; exact .stop _ (.inr rfl))
      rwa [List.take_left, parseParam_parameterText hkey] at h
    | cons next params =>
      rw [parametersText, List.append_assoc, List.cons_append]
      have h := ParamLoop.ampersand _ _ (next :: params) (hstarts _)
        (hfind 38 (by decide) (parametersText (next :: params) ++ 35 :: fragment)) (by simp)
        (by rw [← List.drop_drop, List.drop_left]; exact hrest)
      rwa [List.take_left, parseParam_parameterText hkey] at h
      exact nofun

/-- The delimiter does not overlap with itself, so it stands first where it was put unless the schema has it. -/
lemma find_schemaDelimiter {schema : Bytes} (h : ¬schemaDelimiter <:+: schema) (rest : Bytes) :
    find schemaDelimiter (schema ++ schemaDelimiter ++ rest) = some schema.length := by
  induction schema with
  | nil => rfl
  | cons c schema ih =>
    rw [List.infix_cons_iff, not_or] at h
    have hprefix : ¬schemaDelimiter.isPrefixOf (c :: (schema ++ schemaDelimiter ++ rest)) = true := by
      rw [List.isPrefixOf_iff_prefix]
      intro hp
      refine h.1 ?_
      match schema with
      | [] => simp [schemaDelimiter, bytes] at hp
      | [c'] => simp [schemaDelimiter, bytes] at hp
      | c' :: c'' :: schema => simpa [schemaDelimiter, bytes] using hp
    rw [List.cons_append, List.cons_append, find, if_neg hprefix, ih h.2]
    rfl

/-- A component that ends before a byte of the set. -/
lemma takeWhile_component {set l : Bytes} {c : Byte} (hl : ∀ b ∈ l, b ∉ set) (hc : c ∈ set) (rest : Bytes) :
    (l ++ c :: rest).takeWhile (fun b => b ∉ set) = l ∧ (l ++ c :: rest).dropWhile (fun b => b ∉ set) = c :: rest := by
  have hfind := findFirst_append hl hc rest
  rw [(findFirst_some hfind).1, ← drop_findFirst hfind, List.take_left, List.drop_left]
  exact ⟨rfl, rfl⟩

lemma schemaText_urlOf_iff (schema location path fragment : Bytes) (params : List (Bytes × Bytes)) :
    schemaText (urlOf schema location path params fragment) = schema ↔ ¬schemaDelimiter <:+: schema := by
  constructor
  · rintro h ⟨l, r, rfl⟩
    have hurl : urlOf (l ++ schemaDelimiter ++ r) location path params fragment =
        l ++ schemaDelimiter ++ (r ++ (schemaDelimiter ++
          (location ++ (path ++ 63 :: (parametersText params ++ 35 :: fragment))))) := by
      simp only [urlOf, List.append_assoc]
    rw [hurl, schemaText] at h
    cases hfind : find schemaDelimiter (l ++ schemaDelimiter ++ (r ++ (schemaDelimiter ++
        (location ++ (path ++ 63 :: (parametersText params ++ 35 :: fragment)))))) with
    | none => exact find_eq_none_iff.mp hfind ⟨_, _, rfl⟩
    | some pos =>
      rw [hfind] at h
      have hlength := congrArg List.length h
      have hpos := find_le hfind
      simp only [Option.map_some, Option.getD_some, List.length_take, List.length_append] at hlength
      have hdelimiter : schemaDelimiter.length = 3 := rfl
      omega
  · intro h
    rw [schemaText, urlOf, find_schemaDelimiter h, Option.map_some, Option.getD_some, List.append_assoc, List.take_left]

/-- The URL that was put together is split into its parts exactly when the schema does not have the delimiter. -/
lemma fsSplitUrl_urlOf_iff {schema location path fragment : Bytes} (h : UrlParts location path params) :
    Fs.splitUrl (urlOf schema location path params fragment) =
        { schema := schema, location := location, path := path, params := params } ↔
      ¬schemaDelimiter <:+: schema := by
  rw [← schemaText_urlOf_iff schema location path fragment params, fsSplitUrl_eq, Fs.UrlComponents.mk.injEq]
  constructor
  · rintro ⟨hschema, -⟩
    exact hschema
  · intro hschema
    have hdelimiter := (schemaText_urlOf_iff schema location path fragment params).mp hschema
    have hafter : afterSchema (urlOf schema location path params fragment) =
        location ++ (path ++ 63 :: (parametersText params ++ 35 :: fragment)) := by
      rw [afterSchema, urlOf, find_schemaDelimiter hdelimiter, Option.map_some, Option.getD_some, ← List.length_append,
        List.drop_left]
    have hlocation : locationText (urlOf schema location path params fragment) = location ∧
        afterLocation (urlOf schema location path params fragment) =
          path ++ 63 :: (parametersText params ++ 35 :: fragment) := by
      rw [locationText, afterLocation, hafter]
      obtain rfl | hpath := h.path_start
      · exact takeWhile_component h.location (by decide) _
      · obtain ⟨rest, rfl⟩ := List.head?_eq_some_iff.mp hpath
        exact takeWhile_component h.location (by decide) _
    have hpath : pathText (urlOf schema location path params fragment) = path ∧
        queryText (urlOf schema location path params fragment) = 63 :: (parametersText params ++ 35 :: fragment) := by
      rw [pathText, queryText, hlocation.2]
      exact takeWhile_component h.path (by decide) _
    have hloop : ParamLoop (63 :: (parametersText params ++ 35 :: fragment)) params :=
      .question _ 0 params (by simp) rfl rfl (paramLoop_parametersText params fragment h.keys h.values)
    rw [hpath.2]
    exact ⟨hschema, hlocation.1, hpath.1, parseParams_of_loop hloop _ le_rfl⟩

/-- Both functions find the same schema, location and path, and the loop over the parameters ends; a URL that is put
together from parts without the bytes that end them is split into these parts exactly when the schema does not have the
delimiter. -/
theorem splitUrl_consistent_complete :
    (∀ url, (Fs.splitUrl url).schema = (splitUrl url).schema ∧ (Fs.splitUrl url).location = (splitUrl url).location ∧
      (Fs.splitUrl url).path = (splitUrl url).path ∧ ParamLoop (queryText url) (Fs.splitUrl url).params) ∧
    ∀ schema location path params fragment, UrlParts location path params →
      (Fs.splitUrl (urlOf schema location path params fragment) =
          { schema := schema, location := location, path := path, params := params } ↔
        ¬schemaDelimiter <:+: schema) := by
  refine ⟨fun url => ?_, fun schema location path params fragment h => fsSplitUrl_urlOf_iff h⟩
  rw [fsSplitUrl_eq, splitUrl_eq]
  exact ⟨rfl, rfl, rfl, paramLoop_parseParams _⟩

theorem queryUrl_split :
    Fs.splitUrl (urlOf (bytes "teapot") (bytes "host") (bytes "/p") [(bytes "q", bytes "2"), (bytes "r", [])] (bytes "f")) =
      { schema := bytes "teapot", location := bytes "host", path := bytes "/p"
        params := [(bytes "q", bytes "2"), (bytes "r", [])] } :=
  (splitUrl_consistent_complete.2 _ _ _ _ _
    ⟨by decide +kernel, .inr rfl, by decide +kernel, by decide +kernel, by decide +kernel⟩).mpr
    (by decide)

/-- A schema that has the delimiter is cut at it. -/
theorem delimiterSchema_cut :
    UrlParts [] [] [] ∧ Fs.splitUrl (urlOf (bytes "a://b") [] [] [] []) ≠
      { schema := bytes "a://b", location := [], path := [], params := [] } := by
  refine ⟨⟨by simp, .inl rfl, by simp, by simp, by simp⟩, ?_⟩
  decide

end IcebergCxx.Proofs

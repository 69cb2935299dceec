import IcebergCxx.DeletionVectorCache

/-!
# When the deletion vector cache serves the right vector

While the data path does not change the cache keeps what the first call with it has opened, nothing
when that failed. So a call gets its own vector exactly when its path is new, or its vector is what
the first call of the run of equal paths has left.
-/

namespace IcebergCxx.Proofs

open Lib

variable {V : Type} {content : DeletionVectorInfo → V}

/-- The path of the last of the calls, the empty path when there is none. -/
def lastPath (calls : List BuildCall) : Bytes := (calls.getLast?.map BuildCall.path).getD []

/-- What a call with a new path leaves in the cache. -/
def opened (content : DeletionVectorInfo → V) (call : BuildCall) : Option V :=
  if call.openFails then none else call.deletionVector.map content

section
variable {call : BuildCall} {calls : List BuildCall} {cache : DvCache V}

lemma buildDv_unprepared (h : call.prepared = false) :
    buildDv content call cache = (.error "MakeArrowReader", cache) := by
  simp [buildDv, h]

lemma buildDv_same (h : call.prepared = true) (hpath : call.path = cache.lastDataFilePath) :
    buildDv content call cache = (.ok cache.lastDv, cache) := by
  simp [buildDv, h, hpath]

/-- A new path: the call gets its own vector or fails. -/
lemma buildDv_new (h : call.prepared = true) (hpath : call.path ≠ cache.lastDataFilePath) :
    (buildDv content call cache).2 = { lastDataFilePath := call.path, lastDv := opened content call } ∧
      ∀ applied, (buildDv content call cache).1 = .ok applied → applied = call.deletionVector.map content := by
  unfold buildDv opened
  simp only [h, Bool.not_true, Bool.false_eq_true, if_false, if_pos hpath]
  cases call.deletionVector with
  | none =>
    refine ⟨by simp, fun applied happlied => ?_⟩
    cases happlied
    rfl
  | some dvInfo =>
    cases call.openFails with
    | true => exact ⟨rfl, fun applied happlied => by cases happlied⟩
    | false =>
      refine ⟨rfl, fun applied happlied => ?_⟩
      cases happlied
      rfl

lemma cacheAfter_concat (calls : List BuildCall) (call : BuildCall) :
    cacheAfter content (calls ++ [call]) = (buildDv content call (cacheAfter content calls)).2 := by
  rw [cacheAfter, List.foldl_append]
  rfl

/-- Calls that throw early leave no trace. -/
lemma cacheAfter_filter (calls : List BuildCall) :
    cacheAfter content (calls.filter BuildCall.prepared) = cacheAfter content calls := by
  induction calls using List.reverseRecOn with
  | nil => rfl
  | append_singleton calls call ih =>
    rw [List.filter_append, cacheAfter_concat]
    cases h : call.prepared with
    | true =>
      rw [List.filter_cons_of_pos h, List.filter_nil, cacheAfter_concat, ih]
    | false =>
      rw [List.filter_cons_of_neg (by simp [h]), List.filter_nil, List.append_nil, ih, buildDv_unprepared h]

lemma lastDataFilePath_cacheAfter (hprepared : ∀ call ∈ calls, call.prepared = true) :
    (cacheAfter content calls).lastDataFilePath = lastPath calls := by
  induction calls using List.reverseRecOn with
  | nil => rfl
  | append_singleton calls call ih =>
    have hcall := hprepared call (by simp)
    have hlast : lastPath (calls ++ [call]) = call.path := by simp [lastPath]
    rw [cacheAfter_concat, hlast]
    by_cases hpath : call.path = (cacheAfter content calls).lastDataFilePath
    · rw [buildDv_same hcall hpath, hpath]
    · rw [(buildDv_new hcall hpath).1]

/-- The first call of a run of equal paths. -/
def StartsRun (before : List BuildCall) (first : BuildCall) : Prop := lastPath before ≠ first.path

/-- While the path does not change the cache keeps what the first call has left. -/
lemma cacheAfter_run {before between : List BuildCall} {first : BuildCall}
    (hprepared : ∀ call ∈ before ++ first :: between, call.prepared = true)
    (hpath : ∀ call ∈ between, call.path = first.path) (hstart : StartsRun before first) :
    cacheAfter content (before ++ first :: between) =
      { lastDataFilePath := first.path, lastDv := opened content first } := by
  induction between using List.reverseRecOn with
  | nil =>
    have hbefore : (cacheAfter content before).lastDataFilePath = lastPath before :=
      lastDataFilePath_cacheAfter (fun call hcall => hprepared call (List.mem_append_left _ hcall))
    rw [cacheAfter_concat]
    refine (buildDv_new (hprepared first (by simp)) ?_).1
    rw [hbefore]
    exact Ne.symm hstart
  | append_singleton between call ih =>
    rw [← List.cons_append, ← List.append_assoc, cacheAfter_concat,
      ih (fun c hc => hprepared c (by simp at hc ⊢; tauto)) (fun c hc => hpath c (List.mem_append_left _ hc)),
      buildDv_same (hprepared call (by simp)) (hpath call (by simp))]

lemma cacheAfter_emptyPaths (hprepared : ∀ call ∈ calls, call.prepared = true) (hpath : ∀ call ∈ calls, call.path = []) :
    cacheAfter content calls = {} := by
  induction calls using List.reverseRecOn with
  | nil => rfl
  | append_singleton calls call ih =>
    rw [cacheAfter_concat, ih (fun c hc => hprepared c (List.mem_append_left _ hc))
      (fun c hc => hpath c (List.mem_append_left _ hc)),
      buildDv_same (hprepared call (by simp)) (hpath call (by simp))]

/-- Some calls have empty paths only, or end in a run of equal paths. -/
lemma exists_run (calls : List BuildCall) :
    (∀ call ∈ calls, call.path = []) ∨
      ∃ before first between, calls = before ++ first :: between ∧ (∀ call ∈ between, call.path = first.path) ∧
        StartsRun before first := by
  induction calls using List.reverseRecOn with
  | nil => exact .inl (by simp)
  | append_singleton calls call ih =>
    by_cases hpath : lastPath calls = call.path
    · rcases ih with hempty | ⟨before, first, between, rfl, hbetween, hstart⟩
      · left
        have hnil : call.path = [] := by
          rw [← hpath, lastPath]
          cases hlast : calls.getLast? with
          | none => rfl
          | some c => exact hempty c (List.mem_of_getLast? hlast)
        intro c hc
        rcases List.mem_append.mp hc with hc | hc
        · exact hempty c hc
        · rw [List.mem_singleton.mp hc, hnil]
      · right
        refine ⟨before, first, between ++ [call], by simp, fun c hc => ?_, hstart⟩
        have hlast : lastPath (before ++ first :: between) = first.path := by
          rcases List.eq_nil_or_concat between with rfl | ⟨l, c, rfl⟩
          · simp [lastPath]
          · rw [List.concat_eq_append] at hbetween ⊢
            have hc := hbetween c (by simp)
            have hassoc : before ++ first :: (l ++ [c]) = (before ++ first :: l) ++ [c] := by simp
            rw [hassoc, lastPath, List.getLast?_concat]
            exact hc
        rcases List.mem_append.mp hc with hc | hc
        · exact hbetween c hc
        · rw [List.mem_singleton.mp hc, ← hpath, hlast]
    · exact .inr ⟨calls, call, [], rfl, by simp, hpath⟩

end

/-- Every stream that a call of the run returns applies the vector of its own data path, and none if
it has none. -/
def ServesOwnVectors (content : DeletionVectorInfo → V) (calls : List BuildCall) : Prop :=
  ∀ before call after, calls = before ++ call :: after →
    ∀ applied, (buildDv content call (cacheAfter content before)).1 = .ok applied →
      applied = call.deletionVector.map content

/-- The vector of every call is what the first call of its run of equal paths has opened, none when
that call failed to; a call with the empty path at the beginning has none. -/
def SameVectorInRuns (content : DeletionVectorInfo → V) (calls : List BuildCall) : Prop :=
  ∀ before call after, calls = before ++ call :: after → call.prepared = true →
    ((∀ c ∈ before.filter BuildCall.prepared, c.path = []) → call.path = [] → call.deletionVector = none) ∧
      ∀ earlier first between, before.filter BuildCall.prepared = earlier ++ first :: between →
        (∀ c ∈ between, c.path = first.path) → StartsRun earlier first → call.path = first.path →
          call.deletionVector.map content = if first.openFails then none else first.deletionVector.map content

lemma applied_own_iff (before : List BuildCall) {call : BuildCall} (h : call.prepared = true) :
    (∀ applied, (buildDv content call (cacheAfter content before)).1 = .ok applied →
        applied = call.deletionVector.map content) ↔
      (call.path = (cacheAfter content before).lastDataFilePath →
        call.deletionVector.map content = (cacheAfter content before).lastDv) := by
  by_cases hpath : call.path = (cacheAfter content before).lastDataFilePath
  · rw [buildDv_same h hpath]
    constructor
    · intro hown _
      exact (hown _ rfl).symm
    · intro hcached applied happlied
      cases happlied
      exact (hcached hpath).symm
  · exact ⟨fun _ hsame => absurd hsame hpath, fun _ => (buildDv_new h hpath).2⟩

theorem servesOwnVectors_iff (content : DeletionVectorInfo → V) (calls : List BuildCall) :
    ServesOwnVectors content calls ↔ SameVectorInRuns content calls := by
  have hfilter : ∀ before : List BuildCall, ∀ c ∈ before.filter BuildCall.prepared, c.prepared = true :=
    fun before c hc => (List.mem_filter.mp hc).2
  constructor
  · intro hserves before call after hcalls hprepared
    have hown := (applied_own_iff before hprepared).mp (hserves before call after hcalls)
    rw [← cacheAfter_filter] at hown
    refine ⟨fun hempty hpath => ?_, fun earlier first between hsplit hbetween hstart hpath => ?_⟩
    · rw [cacheAfter_emptyPaths (hfilter before) hempty] at hown
      exact Option.map_eq_none_iff.mp (hown hpath)
    · have hprep := hfilter before
      rw [hsplit] at hown hprep
      rw [cacheAfter_run hprep hbetween hstart] at hown
      exact hown hpath
  · intro hsame before call after hcalls
    by_cases hprepared : call.prepared = true
    · obtain ⟨hempty, hruns⟩ := hsame before call after hcalls hprepared
      apply (applied_own_iff before hprepared).mpr
      rw [← cacheAfter_filter]
      rcases exists_run (before.filter BuildCall.prepared) with hall | ⟨earlier, first, between, hsplit, hbetween, hstart⟩
      · rw [cacheAfter_emptyPaths (hfilter before) hall]
        intro hpath
        rw [hempty hall hpath]
        rfl
      · have hprep := hfilter before
        have hrun := hruns earlier first between hsplit hbetween hstart
        rw [hsplit] at hprep ⊢
        rw [cacheAfter_run hprep hbetween hstart]
        exact hrun
    · intro applied happlied
      rw [buildDv_unprepared (by simpa using hprepared)] at happlied
      cases happlied

/-- A file with a deletion vector. -/
def fileWithVector (openFails : Bool) : BuildCall where
  path := bytes "f"
  deletionVector := some { path := bytes "dv", offset := 4, length := 40, referencedDataFile := bytes "f" }
  openFails := openFails

/-- The vector of a file cannot be opened at first; the second call returns a stream without it. -/
theorem retriedOpen_serves_nothing :
    (buildDv id (fileWithVector false) (cacheAfter id [fileWithVector true])).1 = .ok none ∧
      ¬ServesOwnVectors id [fileWithVector true, fileWithVector false] := by
  refine ⟨rfl, fun h => ?_⟩
  have hserved := h [fileWithVector true] _ [] rfl none rfl
  cases hserved

end IcebergCxx.Proofs

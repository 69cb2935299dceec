import IcebergCxx.Proofs.ManifestSkipping
import IcebergCxx.Proofs.RowGroupFilter
import IcebergCxx.Proofs.TableScan
import IcebergCxx.PrunedScan

/-!
# Planning with a statistics filter

A filter over partition bounds answers as over the stats that were returned, unless a getter throws. A manifest that it
skips can have no row on which the expression is true, and the plan is the one of the entries that are left.
-/

namespace IcebergCxx.Proofs

open Lib

/-! ### The visitor that throws -/

/-- The stats that a getter returns, none where it throws. -/
def returnedStats (getter : ThrowingStatsGetter) : StatsGetter := fun name type => (getter name type).toOption.join

lemma ifReturned_ok {α β : Type} {x : Except String (Except String α)} {y : Except String α}
    {f : α → Except String (Except String β)} {g : α → Except String β} (hx : ∀ r, x = .ok r → y = r)
    (hf : ∀ a r, f a = .ok r → g a = r) {r : Except String β} (h : ifReturned x f = .ok r) : (y >>= g) = r := by
  rcases x with thrown | status | a
  · cases h
  · obtain rfl := Except.ok.inj h
    rw [hx _ rfl]
    rfl
  · rw [hx _ rfl]
    exact hf a r h

section
variable {getter : ThrowingStatsGetter} {shift : Option (SignedInt 64)}

mutual

/-- A visit that does not throw is a visit with what the getter returned. -/
theorem visitThrowing_ok : ∀ (node : Node) (r : Except String GenericStats), visitThrowing getter shift node = .ok r →
    visitStats (returnedStats getter) shift node = r
  | .variable type name, r, h => by
    simp only [visitThrowing] at h
    simp only [visitStats, returnedStats]
    cases hstats : getter name type with
    | error thrown =>
      rw [hstats] at h
      cases h
    | ok stats =>
      rw [hstats] at h
      cases stats <;> exact Except.ok.inj h
  | .const ⟨_, none⟩, r, h => by
    simp only [visitThrowing] at h
    simp only [visitStats]
    exact Except.ok.inj h
  | .const ⟨_, some _⟩, r, h => by
    simp only [visitThrowing] at h
    simp only [visitStats]
    exact Except.ok.inj h
  | .function signature arguments, r, h => by
    simp only [visitThrowing] at h
    simp only [visitStats]
    exact ifReturned_ok (visitThrowingAll_ok arguments) (fun _ _ hr => Except.ok.inj hr) h
  | .scalarOverArray signature useOr scalar array, r, h => by
    simp only [visitThrowing] at h
    simp only [visitStats]
    exact ifReturned_ok (visitThrowing_ok scalar) (fun _ _ hr => Except.ok.inj hr) h
  | .ifNode c t e, r, h => by
    simp only [visitThrowing] at h
    simp only [visitStats]
    refine ifReturned_ok (visitThrowing_ok c) (fun cond r hcond => ?_) h
    refine ifReturned_ok (fun _ hr => Except.ok.inj hr) (fun stats r hstats => ?_) hcond
    split_ifs at hstats ⊢
    · exact visitThrowing_ok t r hstats
    · exact visitThrowing_ok e r hstats
    · refine ifReturned_ok (visitThrowing_ok t) (fun thenRes r hthen => ?_) hstats
      exact ifReturned_ok (visitThrowing_ok e) (fun _ _ hr => Except.ok.inj hr) hthen
  | .logical .not [a], r, h => by
    simp only [visitThrowing] at h
    simp only [visitStats]
    refine ifReturned_ok (visitThrowing_ok a) (fun arg r harg => ?_) h
    exact ifReturned_ok (fun _ hr => Except.ok.inj hr) (fun _ _ hr => Except.ok.inj hr) harg
  | .logical .not [], r, h => by
    simp only [visitThrowing] at h
    simp only [visitStats]
    exact Except.ok.inj h
  | .logical .not (_ :: _ :: _), r, h => by
    simp only [visitThrowing] at h
    simp only [visitStats]
    exact Except.ok.inj h
  | .logical .or arguments, r, h => by
    simp only [visitThrowing] at h
    simp only [visitStats]
    exact visitThrowingLogical_ok true _ arguments r h
  | .logical .and arguments, r, h => by
    simp only [visitThrowing] at h
    simp only [visitStats]
    exact visitThrowingLogical_ok false _ arguments r h

theorem visitThrowingAll_ok : ∀ (arguments : List Node) (r : Except String (List GenericStats)),
    visitThrowingAll getter shift arguments = .ok r → visitStatsAll (returnedStats getter) shift arguments = r
  | [], r, h => by
    simp only [visitThrowingAll] at h
    simp only [visitStatsAll]
    exact Except.ok.inj h
  | a :: arguments, r, h => by
    simp only [visitThrowingAll] at h
    simp only [visitStatsAll]
    refine ifReturned_ok (visitThrowing_ok a) (fun stats r hstats => ?_) h
    exact ifReturned_ok (visitThrowingAll_ok arguments) (fun _ _ hr => Except.ok.inj hr) hstats

theorem visitThrowingLogical_ok (useOr : Bool) (current : BoolStats) :
    ∀ (arguments : List Node) (r : Except String GenericStats),
      visitThrowingLogical getter shift useOr current arguments = .ok r →
        visitStatsLogical (returnedStats getter) shift useOr current arguments = r
  | [], r, h => by
    simp only [visitThrowingLogical] at h
    simp only [visitStatsLogical]
    exact Except.ok.inj h
  | a :: arguments, r, h => by
    simp only [visitThrowingLogical] at h
    simp only [visitStatsLogical]
    cases hvisit : visitThrowing getter shift a with
    | error thrown =>
      rw [hvisit] at h
      cases h
    | ok visited =>
      rw [hvisit] at h
      rw [visitThrowing_ok a visited hvisit]
      cases visited with
      | error status => exact visitThrowingLogical_ok useOr _ arguments r h
      | ok stats =>
        refine ifReturned_ok (fun _ hr => Except.ok.inj hr) (fun b r hb => ?_) h
        split_ifs at hb ⊢
        · exact Except.ok.inj hb
        · exact visitThrowingLogical_ok useOr _ arguments r hb

end

end

/-- An answer of the filter is its answer for the stats that were returned. -/
lemma tryApplyFilter_ok {filter : StatsFilter} {getter : ThrowingStatsGetter} {matched : MatchedRows}
    (h : filter.tryApplyFilter getter = .ok matched) : StatsFilter.applyFilter (returnedStats getter)
      filter.timestampToTimestamptzShiftUs filter.root = matched := by
  unfold StatsFilter.tryApplyFilter at h
  unfold StatsFilter.applyFilter
  cases hroot : filter.root with
  | none =>
    rw [hroot] at h
    exact Except.ok.inj h
  | some root =>
    rw [hroot] at h
    dsimp only at h ⊢
    cases hvisit : visitThrowing getter filter.timestampToTimestamptzShiftUs root with
    | error thrown =>
      rw [hvisit] at h
      cases h
    | ok visited =>
      rw [hvisit] at h
      rw [visitThrowing_ok root visited hvisit]
      cases visited with
      | error status => exact Except.ok.inj h
      | ok stats =>
        dsimp only at h ⊢
        cases hbool : stats.getBool with
        | error status =>
          rw [hbool] at h
          exact Except.ok.inj h
        | ok b =>
          rw [hbool] at h
          dsimp only at h ⊢
          split_ifs at h ⊢ <;> exact Except.ok.inj h

/-! ### A skipped manifest -/

section
variable {types : Bytes → Option ValueType} {delta : Int} {interp : FunctionID → List Outcome → Outcome}
  {filter : StatsFilter} {schema : Schema} {partitionSpecs : List PartitionSpec}

/-- Stats that describe the values of a row describe the row to an expression that asks by types. -/
lemma describesRow_returned {getter : ThrowingStatsGetter} {row : Row} (h : DescribesValues getter row)
    (htyped : ∀ name x, row name = some x → types name = some x.1) :
    DescribesRow (typedStats types (returnedStats getter)) row := by
  intro name type stats hstats
  unfold typedStats at hstats
  split_ifs at hstats with htype
  have hgetter : getter name type = .ok (some stats) := by
    unfold returnedStats at hstats
    cases hget : getter name type with
    | error thrown =>
      rw [hget] at hstats
      cases hstats
    | ok answer =>
      rw [hget] at hstats
      exact congrArg Except.ok hstats
  obtain ⟨hnull, hvalue⟩ := h name type stats hgetter
  cases hcell : row name with
  | none => exact hnull hcell
  | some x =>
    obtain ⟨type', x⟩ := x
    obtain rfl : type = type' := Option.some.inj (htype.symm.trans (htyped name _ hcell))
    exact hvalue x hcell

/-- What the code needs of the filter over a manifest: years of the bounds that fit, and careful visits. -/
structure SoundPruning (filter : StatsFilter) (delta : Int) (interp : FunctionID → List Outcome → Outcome)
    (getter : ManifestFileStatsGetter) (row : Row) : Prop where
  years : ∀ name type, YearsFit getter name type
  careful : ∀ root ∈ filter.root, Careful (returnedStats getter.getStats) filter.timestampToTimestamptzShiftUs
    (CastSafe filter.timestampToTimestamptzShiftUs delta) (evalNode delta interp row) root

/-- A manifest is skipped for the answer of the filter. -/
lemma filterManifests_skipped {applyFilter : ThrowingStatsGetter → Except String MatchedRows}
    {manifests : List ManifestFile} {canSkip : List Bool}
    (h : filterManifests applyFilter schema partitionSpecs manifests = .ok canSkip) {i : Nat} {manifest : ManifestFile}
    (hmanifest : manifests[i]? = some manifest) (hskip : canSkip[i]? = some true) :
    ∃ getter, manifestStatsGetter schema partitionSpecs manifest = .ok (some getter) ∧
      applyFilter getter.getStats = .ok .none := by
  have hall := mapM_ok_iff.mp h
  obtain ⟨hi, hget⟩ := List.getElem?_eq_some_iff.mp hmanifest
  obtain ⟨hj, hgetSkip⟩ := List.getElem?_eq_some_iff.mp hskip
  have hstep := (List.forall₂_iff_get.mp hall).2 i hi hj
  simp only [List.get_eq_getElem, hget, hgetSkip] at hstep
  obtain ⟨getter, hgetter, hstep⟩ := bind_ok hstep
  cases getter with
  | none => cases hstep
  | some getter =>
    obtain ⟨matched, hmatched, hstep⟩ := bind_ok hstep
    obtain rfl : matched = .none := by simpa using Except.ok.inj hstep
    exact ⟨getter, hgetter, hmatched⟩

/-- The expression is not true on a row that can be in a skipped manifest. -/
lemma not_true_of_skipped {manifest : ManifestFile} {getter : ManifestFileStatsGetter}
    (hgetter : manifestStatsGetter schema partitionSpecs manifest = .ok (some getter))
    (hnone : filter.tryApplyFilter getter.getStats = .ok .none) {row : Row}
    (hrow : InManifest schema getter.spec manifest.partitions row) (hsound : SoundPruning filter delta interp getter row)
    (htyped : ∀ name x, row name = some x → types name = some x.1)
    (hasks : ∀ root ∈ filter.root, TypedBy types root) :
    ∃ root ∈ filter.root, evalNode delta interp row root ≠ .truth true := by
  have hanswer := tryApplyFilter_ok hnone
  cases hroot : filter.root with
  | none =>
    rw [hroot] at hanswer
    cases hanswer
  | some root =>
    rw [hroot] at hanswer
    refine ⟨root, rfl, ?_⟩
    have hdescribes := describesRow_returned
      (describesValues_of_covered hgetter (fun name type => columnCovered_iff.mpr (hsound.years name type)) hrow) htyped
    exact not_true_of_none hanswer (hasks root hroot) hdescribes (hsound.careful root hroot)

end

/-! ### The manifests that are read -/

section
variable {α β : Type} {as : List α} {bs : List β}

/-- The elements whose flag is not set. -/
def unskipped (as : List α) (skips : List Bool) : List α :=
  (as.zip skips).filterMap (fun (a, skip) => if skip then none else some a)

lemma unskipped_cons (a : α) (as : List α) (skip : Bool) (skips : List Bool) :
    unskipped (a :: as) (skip :: skips) = (if skip then [] else [a]) ++ unskipped as skips := by
  cases skip <;> rfl

lemma forall₂_unskipped {R : α → β → Prop} (h : List.Forall₂ R as bs) (skips : List Bool) :
    List.Forall₂ R (unskipped as skips) (unskipped bs skips) := by
  induction h generalizing skips with
  | nil => exact .nil
  | cons hab _ ih =>
    cases skips with
    | nil => exact .nil
    | cons skip skips =>
      rw [unskipped_cons, unskipped_cons]
      cases skip with
      | false => exact .cons hab (ih skips)
      | true => exact ih skips

lemma mem_unskipped {skips : List Bool} {a : α} {i : Nat} (ha : as[i]? = some a) (hskip : skips[i]? = some false) :
    a ∈ unskipped as skips := by
  unfold unskipped
  rw [List.mem_filterMap]
  refine ⟨(a, false), List.mem_iff_getElem?.mpr ⟨i, ?_⟩, rfl⟩
  rw [List.getElem?_zip_eq_some]
  exact ⟨ha, hskip⟩

lemma of_mem_unskipped {skips : List Bool} {a : α} (h : a ∈ unskipped as skips) :
    ∃ i : Nat, as[i]? = some a ∧ skips[i]? = some false := by
  unfold unskipped at h
  obtain ⟨⟨a', skip⟩, hmem, ha⟩ := List.mem_filterMap.mp h
  obtain ⟨i, hi⟩ := List.mem_iff_getElem?.mp hmem
  obtain ⟨hget, hflag⟩ := List.getElem?_zip_eq_some.mp hi
  cases skip with
  | false =>
    obtain rfl : a' = a := Option.some.inj ha
    exact ⟨i, hget, hflag⟩
  | true => cases ha

lemma unskipped_sublist (as : List α) (skips : List Bool) : (unskipped as skips).Sublist as := by
  induction as generalizing skips with
  | nil => exact .slnil
  | cons a as ih =>
    cases skips with
    | nil => exact List.nil_sublist _
    | cons skip skips =>
      rw [unskipped_cons]
      cases skip with
      | false => exact (ih skips).cons_cons a
      | true => exact (ih skips).cons a

/-- What is kept and what is skipped are all elements. -/
lemma unskipped_perm {skips : List Bool} (h : skips.length = as.length) :
    (unskipped as skips ++ unskipped as (skips.map (!·))).Perm as := by
  induction as generalizing skips with
  | nil => rfl
  | cons a as ih =>
    cases skips with
    | nil => cases h
    | cons skip skips =>
      have hrest := ih (Nat.succ.inj h)
      rw [List.map_cons, unskipped_cons, unskipped_cons]
      cases skip with
      | false => exact hrest.cons a
      | true => exact List.perm_middle.trans (hrest.cons a)

end

/-- The queue leaves out what the filter skips. -/
lemma manifestFilesQueue_eq (request : ScanRequest) (filter : StatsFilter) (manifestFiles : List ManifestFile) :
    ∃ skips : List Bool, skips.length = manifestFiles.length ∧
      request.manifestFilesQueue (some filter) manifestFiles = unskipped manifestFiles skips ∧
      ∀ (i : Nat) manifest, manifestFiles[i]? = some manifest → skips[i]? = some true →
        ∃ getter, manifestStatsGetter request.tableMetadata.currentSchema request.tableMetadata.partitionSpecs manifest =
          .ok (some getter) ∧ filter.tryApplyFilter getter.getStats = .ok .none := by
  unfold ScanRequest.manifestFilesQueue
  cases hskips : filterManifests filter.tryApplyFilter request.tableMetadata.currentSchema
      request.tableMetadata.partitionSpecs manifestFiles with
  | error message =>
    -- the filter failed, and no manifest is left out
    refine ⟨List.replicate manifestFiles.length false, List.length_replicate, ?_, ?_⟩
    · dsimp only
      rw [hskips]
      clear hskips
      induction manifestFiles with
      | nil => rfl
      | cons manifest manifestFiles ih =>
        rw [List.length_cons, List.replicate_succ, unskipped_cons, ← ih]
        rfl
    · intro i manifest _ hskip
      cases List.eq_of_mem_replicate (List.mem_of_getElem? hskip)
  | ok canSkip =>
    refine ⟨canSkip, (mapM_ok_iff.mp hskips).length_eq.symm, ?_, ?_⟩
    · dsimp only
      rw [hskips]
      rfl
    · intro i manifest hmanifest hskip
      exact filterManifests_skipped hskips hmanifest hskip

/-- Planning with a filter, as if the manifests that are left were read before the first entry is added. -/
lemma filtered_agree (request : ScanRequest) (statsFilter : Option StatsFilter) {manifestFiles : List ManifestFile}
    (hfiles : request.getManifestFiles = .ok manifestFiles) :
    Agree Eq (request.getScanMetadataFiltered statsFilter)
      ((request.manifestFilesQueue statsFilter manifestFiles).mapM (streamEntries request) >>=
        fun ls => getScanMetadata request.tableMetadata ls.flatten) := by
  unfold ScanRequest.getScanMetadataFiltered
  rw [hfiles, ok_bind]
  generalize request.manifestFilesQueue statsFilter manifestFiles = queue
  have hread : Agree Eq (queue.foldlM request.addManifest (.make request.tableMetadata))
      (queue.foldlM (fun p manifestFile => streamEntries request manifestFile >>= p.addEntries)
        (.make request.tableMetadata)) := by
    apply foldlM_agree (R := Eq) (S := Eq) _ (List.forall₂_same.mpr (fun _ _ => rfl)) rfl
    rintro p _ manifestFile _ rfl rfl
    exact addManifest_agree request p manifestFile
  have hloop := hread.trans (S := Eq) (T := Eq) (fun _ _ _ h h' => h.trans h')
    (foldlM_mapM_agree (streamEntries request) ReferencedDataFileAwareScanPlanner.addEntries queue _)
  simp only [addEntries_flatten] at hloop
  unfold getScanMetadata
  rw [← bind_assoc]
  apply hloop.bind
  rintro p _ rfl
  exact .of_eq rfl

end IcebergCxx.Proofs

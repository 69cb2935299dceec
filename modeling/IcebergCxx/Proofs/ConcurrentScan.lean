import IcebergCxx.Proofs.TableRows
import IcebergCxx.Proofs.TableScan

/-!
# Rows of a scan that is planned on several threads

The tasks over the manifests and over their entries run in any order. The plan that they leave gives every data file the
same deletes, so a scan of it returns the rows of the table.
-/

namespace IcebergCxx.Proofs

open Lib

lemma SameLayer.planTier_eq {a b : Layer} (h : SameLayer a b) : planTier a = planTier b := by
  unfold planTier
  rw [Multiset.coe_eq_coe.mpr h.data, Multiset.coe_eq_coe.mpr h.positional, Multiset.coe_eq_coe.mpr h.equality]

lemma map_planTier_eq {a b : Partition} (h : List.Forall₂ SameLayer a b) : a.map planTier = b.map planTier := by
  induction h with
  | nil => rfl
  | cons hlayer _ ih => rw [List.map_cons, List.map_cons, hlayer.planTier_eq, ih]

/-- The order inside the layers is nothing to the deletes that reach a data file. -/
lemma SamePlan.planReach_eq {a b : ScanMetadata} (h : SamePlan a b) : planReach a.partitions = planReach b.partitions := by
  have hpartitions := h.partitions
  generalize a.partitions = as at hpartitions
  generalize b.partitions = bs at hpartitions
  unfold planReach
  induction hpartitions with
  | nil => rfl
  | cons hpartition _ ih =>
    rw [List.map_cons, List.map_cons, List.sum_cons, List.sum_cons, map_planTier_eq hpartition, ih]

variable {request : ScanRequest} {manifestFiles : List ManifestFile} {ls : List (List ManifestEntry)} {plan : ScanMetadata}

/-- A run that plans has the plan of one thread, up to the order inside the layers. -/
lemma multiThreaded_plan (hfiles : request.getManifestFiles = .ok manifestFiles)
    (hls : manifestFiles.mapM (taskEntries request) = .ok ls) (hvectors : VectorsApart ls.flatten)
    (hrun : GetScanMetadataMultiThreaded request (.ok plan)) :
    ∃ p before, (ReferencedDataFileAwareScanPlanner.make request.tableMetadata).addEntries ls.flatten = .ok p ∧
      p.getResult = .ok before ∧ SamePlan before plan := by
  generalize hresult : (Except.ok plan : Except String ScanMetadata) = result at hrun
  cases hrun with
  | unread h => cases hresult
  | @planned manifestFiles' actions s hfiles' hsteps hfinished =>
    obtain rfl := Except.ok.inj (hfiles'.symm.trans hfiles)
    obtain ⟨reads, hs⟩ := foldlM_invariant (P := fun s => ∃ reads, Planning request manifestFiles' s reads)
      ⟨_, planning_start request manifestFiles'⟩
      (fun s action s' hs hstep => hs.elim (fun reads hs => hs.step hstep)) hsteps
    rcases hs.result_agree hfinished with ⟨⟨message, hfailed⟩, -⟩ | ⟨ls', steps, hls', hperm, hagree⟩
    · cases hresult.trans hfailed
    · obtain rfl := Except.ok.inj (hls'.symm.trans hls)
      rw [← hresult] at hagree
      have hordered := subSteps_agree request.tableMetadata hperm.symm (subSteps_pairwise hvectors)
      rw [← addEntries_subSteps] at hordered
      generalize hplanned : ((ReferencedDataFileAwareScanPlanner.make request.tableMetadata).addEntries ls'.flatten >>=
        ReferencedDataFileAwareScanPlanner.getResult) = planned at hordered
      generalize (steps.foldlM runSubStep (.make request.tableMetadata) >>=
        ReferencedDataFileAwareScanPlanner.getResult) = rearranged at hagree hordered
      cases hagree with
      | ok hsame =>
        obtain rfl := hsame
        cases hordered with
        | ok hplan =>
          obtain ⟨p, hadd, hbefore⟩ := bind_ok hplanned
          exact ⟨p, _, hadd, hbefore, hplan⟩

/-- The data file in one manifest and its deletes in another. -/
def valuesManifests : List ManifestFile := [{ path := bytes "data.avro" }, { path := bytes "deletes.avro", content := .deletes }]

def valuesRequest : ScanRequest where
  avro := memoryAvro
  json := compactJson
  getInt := assertedInt
  readFile path :=
    if path = bytes "list.avro" then writeManifestList memoryAvro valuesManifests
    else if path = bytes "data.avro" then writeManifestEntries memoryAvro ⟨∅, valuesEntries.take 1⟩ []
    else writeManifestEntries memoryAvro ⟨∅, valuesEntries.drop 1⟩ []
  tableMetadata := { flatTable with currentManifestListPath := some (bytes "list.avro") }
  useReaderSchema := false
  config := {}

/-- The equality delete first, and the calls of the three entries overlap. -/
def deletesFirst : List PlanningAction :=
  [.manifest 0, .manifest 1, .manifest 1, .entry 0, .manifest 0, .manifest 1, .entry 2, .entry 0, .entry 1, .manifest 1,
    .manifest 0, .entry 1, .entry 2]

lemma valuesRequest_files : valuesRequest.getManifestFiles = .ok valuesManifests := by
  rfl

set_option maxRecDepth 8000 in
lemma valuesRequest_entries : valuesManifests.mapM (taskEntries valuesRequest) =
    .ok [valuesEntries.take 1, valuesEntries.drop 1] := by
  rfl

set_option maxRecDepth 8000 in
lemma deletesFirst_run : (deletesFirst.foldlM (MultiThreadedPlanning.step valuesRequest)
    (.start valuesRequest valuesManifests)).map (fun s => (s.finished, s.result)) = some (true, .ok valuesPlan) := by
  rfl

end IcebergCxx.Proofs

import IcebergCxx.Proofs.SnapshotRemoval

/-!
# Loaded metadata trees

The constructor registers a manifest list before it knows that the manifests of it are there, and keeps every later
snapshot of a registered list. The tree is closed unless two snapshots share a list of which a manifest is missing.
-/

namespace IcebergCxx.Proofs

open Lib

variable {dir : Directory} {tree tree' : MetadataTree} {snap : Snapshot} {snapshots kept : List Snapshot}
  {list : List ManifestFile} {manifests manifests' : OrdMap Bytes Manifest} {name : Bytes} {added : Bool}

/-! ### What is on disk -/

/-- Every manifest that the list of this name on disk names is on disk, if there is such a list. -/
def ManifestsPresent (dir : Directory) (name : Bytes) : Prop :=
  ∀ list, dir.manifestList name = some (.ok list) → ∀ man ∈ list, (dir.manifest (filename man.path)).isSome

/-- The list of the snapshot and the manifests of it are on disk. -/
def SnapshotPresent (dir : Directory) (snap : Snapshot) : Prop :=
  (∃ list, dir.manifestList (filename snap.manifestListLocation) = some (.ok list)) ∧
    ManifestsPresent dir (filename snap.manifestListLocation)

/-- A list that two snapshots share has all its manifests. -/
def SharedListsPresent (dir : Directory) (snapshots : List Snapshot) : Prop :=
  snapshots.Pairwise (fun snap snap' =>
    filename snap.manifestListLocation = filename snap'.manifestListLocation →
      ManifestsPresent dir (filename snap.manifestListLocation))

/-- The tree has the list of every snapshot it keeps and the manifests of the list, as they are on disk, and it keeps
every snapshot for which they are on disk. -/
structure ClosedTree (dir : Directory) (snapshots : List Snapshot) (tree : MetadataTree) : Prop where
  kept : tree.metadataFile.snapshots.Sublist snapshots
  closed : ∀ snap ∈ tree.metadataFile.snapshots, ∃ list,
    dir.manifestList (filename snap.manifestListLocation) = some (.ok list) ∧
      tree.manifestsLists.find? (filename snap.manifestListLocation) = some list ∧
      ∀ man ∈ list, ∃ content, dir.manifest (filename man.path) = some (.ok content) ∧
        tree.manifests.find? (filename man.path) = some content
  complete : ∀ snap ∈ snapshots, SnapshotPresent dir snap → snap ∈ tree.metadataFile.snapshots

/-- In every order of the snapshots, the tree that the constructor makes is closed. -/
def ClosedInEveryOrder (dir : Directory) (metadata : TableMetadataV2) : Prop :=
  ∀ snapshots, snapshots.Perm metadata.snapshots → ∀ tree,
    MetadataTree.make dir { metadata with snapshots := snapshots } true = .ok tree → ClosedTree dir snapshots tree

/-! ### Loading the manifests of a list -/

/-- The manifests of the tree are those on disk. -/
def FromDisk (dir : Directory) (manifests : OrdMap Bytes Manifest) : Prop :=
  ∀ name man, manifests.find? name = some man → dir.manifest name = some (.ok man)

lemma fromDisk_emplace {man : Manifest} (h : FromDisk dir manifests) (hman : dir.manifest name = some (.ok man)) :
    FromDisk dir (manifests.emplace name man) := by
  intro name' man' hfind
  rw [OrdMap.find?_emplace] at hfind
  split_ifs at hfind with heq
  · subst heq
    cases hold : manifests.find? name' with
    | none => rw [hold] at hfind; cases hfind; exact hman
    | some old => rw [hold] at hfind; cases hfind; exact h name' old hold
  · exact h name' man' hfind

/-- The loop adds manifests that are on disk, and all of the list if they are there; it succeeds exactly then. -/
lemma addManifests_spec (h : MetadataTree.addManifests dir true list manifests = .ok (added, manifests'))
    (hdisk : FromDisk dir manifests) :
    FromDisk dir manifests' ∧ (∀ name, (manifests.find? name).isSome → (manifests'.find? name).isSome) ∧
      (added = true ↔ ∀ man ∈ list, (dir.manifest (filename man.path)).isSome) ∧
      (added = true → ∀ man ∈ list, (manifests'.find? (filename man.path)).isSome) := by
  induction list generalizing manifests with
  | nil =>
    cases h
    exact ⟨hdisk, fun _ => id, by simp, by simp⟩
  | cons manFile list ih =>
    rw [MetadataTree.addManifests] at h
    simp only at h
    split_ifs at h with hcontains
    · obtain ⟨hdisk', hgrows, hadded, hloaded⟩ := ih h hdisk
      obtain ⟨man, hman⟩ := Option.isSome_iff_exists.mp hcontains
      refine ⟨hdisk', hgrows, ?_, ?_⟩
      · simp [hadded, hdisk _ _ hman]
      · intro hall
        simpa using ⟨hgrows _ hcontains, hloaded hall⟩
    · cases hread : dir.manifest (filename manFile.path) with
      | none =>
        rw [hread] at h
        cases h
        exact ⟨hdisk, fun _ => id, by simp [hread], by simp⟩
      | some content =>
        rw [hread] at h
        obtain ⟨man, rfl, h⟩ := bind_ok h
        obtain ⟨hdisk', hgrows, hadded, hloaded⟩ := ih h (fromDisk_emplace hdisk hread)
        refine ⟨hdisk', ?_, by simp [hadded, hread], ?_⟩
        · intro name hname
          refine hgrows name ?_
          rw [OrdMap.find?_emplace]
          split_ifs
          · rfl
          · exact hname
        · intro hall
          have hhere : (manifests'.find? (filename manFile.path)).isSome := by
            refine hgrows _ ?_
            rw [OrdMap.find?_emplace, if_pos rfl]
            rfl
          simpa using ⟨hhere, hloaded hall⟩

/-! ### Adding a snapshot -/

/-- The invariant of the loop: what is registered is what is on disk, and the manifests of a registered list are loaded
if they are all there. -/
structure Loading (dir : Directory) (tree : MetadataTree) : Prop where
  lists : ∀ name list, tree.manifestsLists.find? name = some list → dir.manifestList name = some (.ok list)
  manifests : FromDisk dir tree.manifests
  loaded : ∀ name list, tree.manifestsLists.find? name = some list → ManifestsPresent dir name →
    ∀ man ∈ list, (tree.manifests.find? (filename man.path)).isSome

lemma loading_empty (dir : Directory) (metadata : TableMetadataV2) : Loading dir { metadataFile := metadata } where
  lists := by intro name list h; cases h
  manifests := by intro name man h; cases h
  loaded := by intro name list h; cases h

/-- What a call does: the list is missing, it is registered already, or it is new. -/
lemma addSnapshot_cases (h : MetadataTree.addSnapshot dir true snap tree = .ok (added, tree')) :
    (dir.manifestList (filename snap.manifestListLocation) = none ∧ added = false ∧ tree' = tree) ∨
    (∃ list, dir.manifestList (filename snap.manifestListLocation) = some (.ok list) ∧
      ((tree.manifestsLists.contains (filename snap.manifestListLocation) = true ∧ added = true ∧ tree' = tree) ∨
       (tree.manifestsLists.contains (filename snap.manifestListLocation) = false ∧ ∃ manifests,
          MetadataTree.addManifests dir true list tree.manifests = .ok (added, manifests) ∧
          tree' = { tree with
            manifestsLists := tree.manifestsLists.emplace (filename snap.manifestListLocation) list
            manifests := manifests }))) := by
  unfold MetadataTree.addSnapshot at h
  simp only at h
  cases hread : dir.manifestList (filename snap.manifestListLocation) with
  | none =>
    rw [hread] at h
    cases h
    exact .inl ⟨rfl, rfl, rfl⟩
  | some content =>
    rw [hread] at h
    obtain ⟨list, rfl, hrest⟩ := bind_ok h
    refine .inr ⟨list, rfl, ?_⟩
    by_cases hcontains : tree.manifestsLists.contains (filename snap.manifestListLocation) = true
    · rw [if_pos hcontains] at hrest
      cases hrest
      exact .inl ⟨hcontains, rfl, rfl⟩
    · rw [if_neg hcontains] at hrest
      obtain ⟨⟨added', manifests⟩, hadd, hrest⟩ := bind_ok hrest
      cases hrest
      exact .inr ⟨by simpa using hcontains, manifests, hadd, rfl⟩

/-- A call keeps the invariant. -/
lemma loading_addSnapshot (h : MetadataTree.addSnapshot dir true snap tree = .ok (added, tree'))
    (hload : Loading dir tree) : Loading dir tree' := by
  obtain ⟨-, -, rfl⟩ | ⟨list, hread, ⟨-, -, rfl⟩ | ⟨hnew, manifests, hadd, rfl⟩⟩ := addSnapshot_cases h
  · exact hload
  · exact hload
  · obtain ⟨hdisk, hgrows, hadded, hloaded⟩ := addManifests_spec hadd hload.manifests
    have hnone : tree.manifestsLists.find? (filename snap.manifestListLocation) = none := by
      simpa [OrdMap.contains] using hnew
    refine ⟨?_, hdisk, ?_⟩
    · intro name list' hfind
      rw [OrdMap.find?_emplace, hnone] at hfind
      split_ifs at hfind with heq
      · cases hfind
        rw [heq]
        exact hread
      · exact hload.lists name list' hfind
    · intro name list' hfind hpresent
      rw [OrdMap.find?_emplace, hnone] at hfind
      split_ifs at hfind with heq
      · cases hfind
        rw [heq] at hpresent
        exact hloaded (hadded.mpr (hpresent list hread))
      · intro man hman
        exact hgrows _ (hload.loaded name list' hfind hpresent man hman)

/-- A call registers the list of the snapshot if it is on disk. -/
lemma contains_addSnapshot (h : MetadataTree.addSnapshot dir true snap tree = .ok (added, tree'))
    (hload : Loading dir tree) (name : Bytes) :
    tree'.manifestsLists.contains name = true ↔ tree.manifestsLists.contains name = true ∨
      (name = filename snap.manifestListLocation ∧ ∃ list, dir.manifestList name = some (.ok list)) := by
  obtain ⟨hread, -, rfl⟩ | ⟨list, hread, ⟨hold, -, rfl⟩ | ⟨hnew, manifests, hadd, rfl⟩⟩ := addSnapshot_cases h
  · constructor
    · exact .inl
    · rintro (hcontains | ⟨rfl, list, hlist⟩)
      · exact hcontains
      · rw [hread] at hlist
        cases hlist
  · constructor
    · exact .inl
    · rintro (hcontains | ⟨rfl, -⟩)
      · exact hcontains
      · exact hold
  · simp only [OrdMap.contains, OrdMap.find?_emplace]
    split_ifs with heq
    · subst heq
      simp [hread]
    · simp [heq]

/-- A registered list is taken for a complete one; the manifests of a new one are looked for. -/
lemma added_addSnapshot (h : MetadataTree.addSnapshot dir true snap tree = .ok (added, tree'))
    (hload : Loading dir tree) :
    (tree.manifestsLists.contains (filename snap.manifestListLocation) = true → added = true) ∧
      (tree.manifestsLists.contains (filename snap.manifestListLocation) = false →
        (added = true ↔ SnapshotPresent dir snap)) ∧
      (added = true → tree'.manifestsLists.contains (filename snap.manifestListLocation) = true) := by
  obtain ⟨hread, rfl, rfl⟩ | ⟨list, hread, ⟨hold, rfl, rfl⟩ | ⟨hnew, manifests, hadd, rfl⟩⟩ := addSnapshot_cases h
  · refine ⟨?_, by simp [SnapshotPresent, hread], nofun⟩
    intro hcontains
    obtain ⟨list, hlist⟩ := Option.isSome_iff_exists.mp hcontains
    have hdisk := hload.lists _ _ hlist
    rw [hread] at hdisk
    cases hdisk
  · exact ⟨fun _ => rfl, by simp [hold], fun _ => hold⟩
  · obtain ⟨-, -, hadded, -⟩ := addManifests_spec hadd hload.manifests
    refine ⟨by simp [hnew], ?_, ?_⟩
    · simp [SnapshotPresent, ManifestsPresent, hread, hadded]
    · simp [OrdMap.contains, OrdMap.find?_emplace]

/-! ### Adding all snapshots -/

lemma addSnapshots_cons (h : MetadataTree.addSnapshots dir true (snap :: snapshots) tree = .ok (kept, tree')) :
    ∃ added tree₁ kept₁, MetadataTree.addSnapshot dir true snap tree = .ok (added, tree₁) ∧
      MetadataTree.addSnapshots dir true snapshots tree₁ = .ok (kept₁, tree') ∧
      kept = if added then snap :: kept₁ else kept₁ := by
  obtain ⟨⟨added, tree₁⟩, hsnap, h⟩ := bind_ok h
  obtain ⟨⟨kept₁, tree₂⟩, hrest, h⟩ := bind_ok h
  cases h
  exact ⟨added, tree₁, kept₁, hsnap, hrest, rfl⟩

/-- A run of the loop keeps the invariant, and what it keeps has a registered list. -/
lemma loading_addSnapshots (h : MetadataTree.addSnapshots dir true snapshots tree = .ok (kept, tree'))
    (hload : Loading dir tree) :
    Loading dir tree' ∧ kept.Sublist snapshots ∧
      (∀ name, tree.manifestsLists.contains name = true → tree'.manifestsLists.contains name = true) ∧
      ∀ snap ∈ kept, tree'.manifestsLists.contains (filename snap.manifestListLocation) = true := by
  induction snapshots generalizing tree kept with
  | nil =>
    cases h
    exact ⟨hload, List.Sublist.refl _, fun _ => id, by simp⟩
  | cons snap snapshots ih =>
    obtain ⟨added, tree₁, kept₁, hsnap, hrest, rfl⟩ := addSnapshots_cons h
    obtain ⟨hload₂, hkept, hgrows, hregistered⟩ := ih hrest (loading_addSnapshot hsnap hload)
    have hcontains := contains_addSnapshot hsnap hload
    have hadded := (added_addSnapshot hsnap hload).2.2
    refine ⟨hload₂, ?_, fun name hname => hgrows name ((hcontains name).mpr (.inl hname)), ?_⟩
    · cases added with
      | true => exact hkept.cons_cons snap
      | false => exact hkept.cons snap
    · cases added with
      | true => simpa using ⟨hgrows _ (hadded rfl), hregistered⟩
      | false => exact hregistered

/-- A run keeps every snapshot that is there. -/
lemma kept_addSnapshots (h : MetadataTree.addSnapshots dir true snapshots tree = .ok (kept, tree'))
    (hload : Loading dir tree) : ∀ snap ∈ snapshots, SnapshotPresent dir snap → snap ∈ kept := by
  induction snapshots generalizing tree kept with
  | nil => simp
  | cons snap snapshots ih =>
    obtain ⟨added, tree₁, kept₁, hsnap, hrest, rfl⟩ := addSnapshots_cons h
    obtain ⟨hold, hnew, -⟩ := added_addSnapshot hsnap hload
    have htail := ih hrest (loading_addSnapshot hsnap hload)
    intro snap' hmem hpresent
    obtain rfl | hmem := List.mem_cons.mp hmem
    · have hadded : added = true := by
        cases hcontains : tree.manifestsLists.contains (filename snap'.manifestListLocation) with
        | true => exact hold hcontains
        | false => exact (hnew hcontains).mpr hpresent
      rw [if_pos hadded]
      exact List.mem_cons_self
    · have hkept := htail snap' hmem hpresent
      cases added with
      | true => exact List.mem_cons_of_mem _ hkept
      | false => exact hkept

/-- A run keeps only snapshots that are there when the lists they share, and those that were registered before it,
have all their manifests. -/
lemma present_addSnapshots_iff (h : MetadataTree.addSnapshots dir true snapshots tree = .ok (kept, tree'))
    (hload : Loading dir tree) :
    (∀ snap ∈ kept, SnapshotPresent dir snap) ↔
      (∀ snap ∈ snapshots, tree.manifestsLists.contains (filename snap.manifestListLocation) = true →
        ManifestsPresent dir (filename snap.manifestListLocation)) ∧ SharedListsPresent dir snapshots := by
  induction snapshots generalizing tree kept with
  | nil =>
    cases h
    simp [SharedListsPresent]
  | cons snap snapshots ih =>
    obtain ⟨added, tree₁, kept₁, hsnap, hrest, rfl⟩ := addSnapshots_cons h
    obtain ⟨hold, hnew, -⟩ := added_addSnapshot hsnap hload
    have hcontains := contains_addSnapshot hsnap hload
    have htail := ih hrest (loading_addSnapshot hsnap hload)
    have hhead : (∀ snap' ∈ (if added then snap :: kept₁ else kept₁), SnapshotPresent dir snap') ↔
        (added = true → SnapshotPresent dir snap) ∧ ∀ snap' ∈ kept₁, SnapshotPresent dir snap' := by
      cases added <;> simp
    -- the head is kept without being there exactly when its list was registered before and has not all its manifests
    have hadded : (added = true → SnapshotPresent dir snap) ↔
        (tree.manifestsLists.contains (filename snap.manifestListLocation) = true →
          ManifestsPresent dir (filename snap.manifestListLocation)) := by
      cases hregistered : tree.manifestsLists.contains (filename snap.manifestListLocation) with
      | true =>
        obtain ⟨list, hlist⟩ := Option.isSome_iff_exists.mp hregistered
        simp [hold hregistered, SnapshotPresent, hload.lists _ _ hlist]
      | false => simp [hnew hregistered]
    have hshared : SharedListsPresent dir (snap :: snapshots) ↔
        (∀ snap' ∈ snapshots, filename snap.manifestListLocation = filename snap'.manifestListLocation →
          ManifestsPresent dir (filename snap.manifestListLocation)) ∧ SharedListsPresent dir snapshots :=
      List.pairwise_cons
    rw [hhead, hadded, htail, hshared, List.forall_mem_cons]
    constructor
    · rintro ⟨hfirst, hregistered, hshared⟩
      refine ⟨⟨hfirst, fun snap' hmem hin => hregistered snap' hmem ((hcontains _).mpr (.inl hin))⟩, ?_, hshared⟩
      intro snap' hmem heq list hread man hman
      have hin := (hcontains (filename snap'.manifestListLocation)).mpr (.inr ⟨heq.symm, list, heq ▸ hread⟩)
      exact hregistered snap' hmem hin list (heq ▸ hread) man hman
    · rintro ⟨⟨hfirst, hregistered⟩, hpair, hshared⟩
      refine ⟨hfirst, fun snap' hmem hin => ?_, hshared⟩
      obtain hin | ⟨heq, -⟩ := (hcontains _).mp hin
      · exact hregistered snap' hmem hin
      · rw [heq]
        exact hpair snap' hmem heq.symm

/-! ### The constructor -/

lemma sharedListsPresent_perm {snapshots' : List Snapshot} (h : snapshots'.Perm snapshots) :
    SharedListsPresent dir snapshots' ↔ SharedListsPresent dir snapshots := by
  refine h.pairwise_iff ?_
  intro snap snap' hshared heq
  rw [heq]
  exact hshared heq.symm

/-- The tree for one order of the snapshots is closed exactly when the lists that they share have all their manifests. -/
lemma closedTree_iff {metadata : TableMetadataV2}
    (h : MetadataTree.make dir { metadata with snapshots := snapshots } true = .ok tree) :
    ClosedTree dir snapshots tree ↔ SharedListsPresent dir snapshots := by
  obtain ⟨⟨kept, tree₁⟩, hrun, h⟩ := bind_ok h
  have hempty := loading_empty dir { metadata with snapshots := snapshots }
  obtain ⟨hload, hsublist, -, hregistered⟩ := loading_addSnapshots hrun hempty
  have hcomplete := kept_addSnapshots hrun hempty
  have hpresent := present_addSnapshots_iff hrun hempty
  have hnone (name : Bytes) : (∅ : OrdMap Bytes (List ManifestFile)).contains name = false := rfl
  simp only [hnone, Bool.false_eq_true, false_imp_iff, implies_true, true_and] at hpresent
  cases h
  rw [← hpresent]
  constructor
  · intro hclosed snap hsnap
    obtain ⟨list, hread, -, hmanifests⟩ := hclosed.closed snap hsnap
    refine ⟨⟨list, hread⟩, ?_⟩
    intro list' hread' man hman
    rw [hread] at hread'
    cases hread'
    obtain ⟨content, hcontent, -⟩ := hmanifests man hman
    rw [hcontent]
    rfl
  · intro hkept
    refine ⟨hsublist, ?_, hcomplete⟩
    intro snap hsnap
    obtain ⟨list, hlist⟩ := Option.isSome_iff_exists.mp (hregistered snap hsnap)
    refine ⟨list, hload.lists _ _ hlist, hlist, ?_⟩
    intro man hman
    obtain ⟨content, hcontent⟩ :=
      Option.isSome_iff_exists.mp (hload.loaded _ _ hlist (hkept snap hsnap).2 man hman)
    exact ⟨content, hload.manifests _ _ hcontent, hcontent⟩

/-- When the constructor succeeds, the tree is closed in every order of the snapshots exactly when no two snapshots
share a manifest list of which a manifest is missing. -/
theorem closedInEveryOrder_iff {metadata : TableMetadataV2} (h : MetadataTree.make dir metadata true = .ok tree) :
    ClosedInEveryOrder dir metadata ↔ SharedListsPresent dir metadata.snapshots := by
  constructor
  · intro hclosed
    exact (closedTree_iff h).mp (hclosed _ (List.Perm.refl _) tree h)
  · intro hshared snapshots hperm tree' hmake
    exact (closedTree_iff hmake).mpr ((sharedListsPresent_perm hperm).mpr hshared)

/-- A directory with one manifest list, which names two manifests. -/
def directoryWithList (manifest : Bytes → Option (Except String Manifest)) : Directory where
  manifestList := fun name =>
    if name = bytes "list" then some (.ok [{ path := bytes "loc/m0.avro" }, { path := bytes "loc/m1.avro" }]) else none
  manifest := manifest

/-- Two snapshots may share a list of which everything is there. -/
theorem sharedList_closedInEveryOrder :
    ClosedInEveryOrder (directoryWithList (fun _ => some (.ok ⟨∅, []⟩))) (metadataWithLog []) := by
  refine (closedInEveryOrder_iff rfl).mpr ?_
  have hpresent (name : Bytes) : ManifestsPresent (directoryWithList (fun _ => some (.ok ⟨∅, []⟩))) name :=
    fun _ _ _ _ => rfl
  exact List.pairwise_of_forall (fun _ _ _ => hpresent _)

/-- Without the manifests the first of two snapshots that share the list is dropped, and the second one is kept. -/
theorem missingManifest_notClosed :
    ∃ tree, MetadataTree.make (directoryWithList (fun _ => none)) (metadataWithLog []) true = .ok tree ∧
      tree.metadataFile.snapshots = [snapshotWithId 2] ∧
      ¬ClosedTree (directoryWithList (fun _ => none)) (metadataWithLog []).snapshots tree := by
  refine ⟨_, rfl, rfl, ?_⟩
  intro hclosed
  obtain ⟨list, hread, -, hmanifests⟩ := hclosed.closed (snapshotWithId 2) (List.mem_singleton_self _)
  cases hread
  obtain ⟨content, hcontent, -⟩ := hmanifests _ List.mem_cons_self
  cases hcontent

end IcebergCxx.Proofs

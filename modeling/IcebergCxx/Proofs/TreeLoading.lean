import IcebergCxx.Proofs.FixLocation
import IcebergCxx.Relocation

/-!
# Loading moved trees

Where the new location leaves the file names as they are, the loading from a directory that has the moved files follows
the loading of the originals step by step and ends with the moved trees.
-/

namespace IcebergCxx.Proofs

open Lib MetadataTree

variable {fix : StringFix} {dir dir' : Directory} {list : List ManifestFile} {name : Bytes} {added : Bool}
  {manifests manifests' : OrdMap Bytes Manifest} {tree tree' : MetadataTree} {metadata metadata' : TableMetadataV2}

/-! ### File names -/

lemma filename_filename (path : Bytes) : filename (filename path) = filename path := by
  simp only [filename, List.reverse_reverse, List.takeWhile_idem]

/-- The new location leaves the name of the file as it is. -/
def KeepsName (fix : StringFix) (path : Bytes) : Prop := filename (fixString fix path) = filename path

/-- Without a difference there is nothing to fix. -/
lemma fixString_of_not_needFix (h : fix.needFix = false) (path : Bytes) : fixString fix path = path := by
  have heq : fix.fromText = fix.toText := by simpa [StringFix.needFix] using h
  rw [fixString, replacePattern]
  cases hfind : find fix.fromText path with
  | none => rfl
  | some pos =>
    have hsplit := drop_find hfind
    rw [Option.map_some, Option.getD_some, ← heq]
    exact hsplit.symm

/-! ### The parts of a moved tree -/

def fixManifestFile (fix : StringFix) (man : ManifestFile) : ManifestFile := { man with path := fixString fix man.path }

def fixManifest (fix : StringFix) (man : Manifest) : Manifest :=
  { man with entries := man.entries.map (fixEntry fix) }

def fixSnapshot (fix : StringFix) (snap : Snapshot) : Snapshot :=
  { snap with manifestListLocation := fixString fix snap.manifestListLocation }

def fixMetadata (fix : StringFix) (metadata : TableMetadataV2) : TableMetadataV2 :=
  { metadata with
    location := fixString fix metadata.location
    snapshots := metadata.snapshots.map (fixSnapshot fix)
    metadataLog := metadata.metadataLog.map (fun log => { log with metadataFile := fixString fix log.metadataFile }) }

lemma fixTree_eq (fix : StringFix) (tree : MetadataTree) :
    fixTree fix tree =
      { metadataFile := fixMetadata fix tree.metadataFile
        manifestsLists := tree.manifestsLists.map (List.map (fixManifestFile fix))
        manifests := tree.manifests.map (fixManifest fix) } := rfl

lemma map_emplace {K V W : Type} [LinearOrder K] (m : OrdMap K V) (key : K) (v : V) (f : V → W) :
    (m.emplace key v).map f = (m.map f).emplace key (f v) := by
  apply OrdMap.ext_find
  intro other
  simp only [OrdMap.find?_map, OrdMap.find?_emplace]
  split_ifs
  · cases m.find? key <;> rfl
  · rfl

lemma contains_map {V W : Type} (m : OrdMap Bytes V) (name : Bytes) (f : V → W) :
    (m.map f).contains name = m.contains name := by
  rw [OrdMap.contains, OrdMap.contains, OrdMap.find?_map, Option.isSome_map]

/-- The directory has the moved lists and manifests of a tree, under their names. -/
structure ServesTree (fix : StringFix) (dir : Directory) (tree : MetadataTree) : Prop where
  lists : ∀ name list, tree.manifestsLists.find? name = some list →
    dir.manifestList name = some (.ok (list.map (fixManifestFile fix)))
  manifests : ∀ name man, tree.manifests.find? name = some man → dir.manifest name = some (.ok (fixManifest fix man))

/-! ### Loading the manifests of a list -/

/-- What the loop does at one manifest when nothing may be missing: it is loaded already, or it is read. -/
lemma addManifests_cons {manFile : ManifestFile}
    (h : addManifests dir false (manFile :: list) manifests = .ok (added, manifests')) :
    (manifests.contains (filename manFile.path) = true ∧
      addManifests dir false list manifests = .ok (added, manifests')) ∨
    (manifests.contains (filename manFile.path) = false ∧ ∃ man,
      dir.manifest (filename manFile.path) = some (.ok man) ∧
      addManifests dir false list (manifests.emplace (filename manFile.path) man) = .ok (added, manifests')) := by
  rw [addManifests] at h
  by_cases hcontains : manifests.contains (filename manFile.path) = true
  · rw [if_pos hcontains] at h
    exact .inl ⟨hcontains, h⟩
  · rw [if_neg hcontains] at h
    refine .inr ⟨by simpa using hcontains, ?_⟩
    cases hread : dir.manifest (filename manFile.path) with
    | none =>
      rw [hread] at h
      cases h
    | some content =>
      rw [hread] at h
      obtain ⟨man, rfl, h⟩ := bind_ok h
      exact ⟨man, rfl, h⟩

lemma find?_emplace_of_new {V : Type} {m : OrdMap Bytes V} {v v' : V} {other : Bytes}
    (hnew : m.contains name = false) (h : m.find? other = some v') : (m.emplace name v).find? other = some v' := by
  rw [OrdMap.find?_emplace]
  split_ifs with heq
  · rw [← heq, OrdMap.contains, h] at hnew
    cases hnew
  · exact h

/-- The loop adds all manifests of the list, as they are on disk, to those that are loaded. -/
lemma addManifests_loads (h : addManifests dir false list manifests = .ok (added, manifests'))
    (hdisk : FromDisk dir manifests) :
    added = true ∧ FromDisk dir manifests' ∧
      (∀ name man, manifests.find? name = some man → manifests'.find? name = some man) ∧
      ∀ name, manifests'.contains name = true →
        manifests.contains name = true ∨ ∃ man ∈ list, name = filename man.path := by
  induction list generalizing manifests with
  | nil =>
    cases h
    exact ⟨rfl, hdisk, fun _ _ => id, fun _ => .inl⟩
  | cons manFile list ih =>
    obtain ⟨-, h⟩ | ⟨hnew, man, hread, h⟩ := addManifests_cons h
    · obtain ⟨hadded, hdisk', hgrows, hnames⟩ := ih h hdisk
      refine ⟨hadded, hdisk', hgrows, fun name hname => ?_⟩
      exact (hnames name hname).imp_right fun ⟨man, hman, heq⟩ => ⟨man, List.mem_cons_of_mem _ hman, heq⟩
    · obtain ⟨hadded, hdisk', hgrows, hnames⟩ := ih h (fromDisk_emplace hdisk hread)
      refine ⟨hadded, hdisk', fun name man hfind => hgrows name man (find?_emplace_of_new hnew hfind), ?_⟩
      intro name hname
      rcases hnames name hname with hold | ⟨man, hman, heq⟩
      · rw [OrdMap.contains, OrdMap.find?_emplace] at hold
        split_ifs at hold with heq
        · exact .inr ⟨manFile, List.mem_cons_self, heq⟩
        · exact .inl hold
      · exact .inr ⟨man, List.mem_cons_of_mem _ hman, heq⟩

/-- In the new directory the loop loads the moved manifests. -/
lemma addManifests_fix (h : addManifests dir false list manifests = .ok (added, manifests'))
    (hdisk : FromDisk dir manifests) (hnames : ∀ man ∈ list, KeepsName fix man.path)
    (hserves : ∀ name man, manifests'.find? name = some man → dir'.manifest name = some (.ok (fixManifest fix man))) :
    addManifests dir' false (list.map (fixManifestFile fix)) (manifests.map (fixManifest fix)) =
      .ok (true, manifests'.map (fixManifest fix)) := by
  induction list generalizing manifests with
  | nil =>
    cases h
    rfl
  | cons manFile list ih =>
    obtain ⟨hfirst, hnames⟩ := List.forall_mem_cons.mp hnames
    have hname : filename (fixManifestFile fix manFile).path = filename manFile.path := hfirst
    rw [List.map_cons, addManifests]
    simp only [hname, contains_map]
    obtain ⟨hcontains, h⟩ | ⟨hnew, man, hread, h⟩ := addManifests_cons h
    · rw [if_pos hcontains]
      exact ih h hdisk hnames
    · have hdisk' := fromDisk_emplace hdisk hread
      have hhere : (manifests.emplace (filename manFile.path) man).find? (filename manFile.path) = some man := by
        have hnone : manifests.find? (filename manFile.path) = none := by simpa [OrdMap.contains] using hnew
        rw [OrdMap.find?_emplace, if_pos rfl, hnone, Option.getD_none]
      have hmoved := hserves _ _ ((addManifests_loads h hdisk').2.2.1 _ _ hhere)
      rw [if_neg (by simpa using hnew), hmoved]
      simp only [ok_bind]
      rw [← map_emplace]
      exact ih h hdisk' hnames

/-! ### Adding the snapshots -/

/-- What the loop has registered is on disk, under file names. -/
structure LoadedFrom (dir : Directory) (tree : MetadataTree) : Prop where
  lists : ∀ name list, tree.manifestsLists.find? name = some list → dir.manifestList name = some (.ok list)
  manifests : FromDisk dir tree.manifests
  listNames : ∀ name, tree.manifestsLists.contains name = true → filename name = name
  manifestNames : ∀ name, tree.manifests.contains name = true → filename name = name

/-- Every list and manifest of the first tree is in the second one. -/
structure GrowsTo (tree tree' : MetadataTree) : Prop where
  lists : ∀ name list, tree.manifestsLists.find? name = some list → tree'.manifestsLists.find? name = some list
  manifests : ∀ name man, tree.manifests.find? name = some man → tree'.manifests.find? name = some man

lemma GrowsTo.refl (tree : MetadataTree) : GrowsTo tree tree := ⟨fun _ _ => id, fun _ _ => id⟩

lemma GrowsTo.trans {tree₁ tree₂ tree₃ : MetadataTree} (h : GrowsTo tree₁ tree₂) (h' : GrowsTo tree₂ tree₃) :
    GrowsTo tree₁ tree₃ where
  lists := fun name list hfind => h'.lists name list (h.lists name list hfind)
  manifests := fun name man hfind => h'.manifests name man (h.manifests name man hfind)

lemma ServesTree.of_growsTo (h : ServesTree fix dir tree') (hgrows : GrowsTo tree tree') : ServesTree fix dir tree where
  lists := fun name list hfind => h.lists name list (hgrows.lists name list hfind)
  manifests := fun name man hfind => h.manifests name man (hgrows.manifests name man hfind)

/-- What a call does when nothing may be missing: the list is registered already, or it is new. -/
lemma addSnapshot_loads {snap : Snapshot} (h : addSnapshot dir false snap tree = .ok (added, tree')) :
    ∃ list, dir.manifestList (filename snap.manifestListLocation) = some (.ok list) ∧
      ((tree.manifestsLists.contains (filename snap.manifestListLocation) = true ∧ added = true ∧ tree' = tree) ∨
       (tree.manifestsLists.contains (filename snap.manifestListLocation) = false ∧ ∃ manifests,
          addManifests dir false list tree.manifests = .ok (added, manifests) ∧
          tree' = { tree with
            manifestsLists := tree.manifestsLists.emplace (filename snap.manifestListLocation) list
            manifests := manifests })) := by
  unfold addSnapshot at h
  simp only at h
  cases hread : dir.manifestList (filename snap.manifestListLocation) with
  | none =>
    rw [hread] at h
    cases h
  | some content =>
    rw [hread] at h
    obtain ⟨list, rfl, hrest⟩ := bind_ok h
    refine ⟨list, rfl, ?_⟩
    by_cases hcontains : tree.manifestsLists.contains (filename snap.manifestListLocation) = true
    · rw [if_pos hcontains] at hrest
      cases hrest
      exact .inl ⟨hcontains, rfl, rfl⟩
    · rw [if_neg hcontains] at hrest
      obtain ⟨⟨added', manifests⟩, hadd, hrest⟩ := bind_ok hrest
      cases hrest
      exact .inr ⟨by simpa using hcontains, manifests, hadd, rfl⟩

lemma contains_emplace {V : Type} (m : OrdMap Bytes V) (name other : Bytes) (v : V) :
    (m.emplace name v).contains other = true ↔ other = name ∨ m.contains other = true := by
  rw [OrdMap.contains, OrdMap.find?_emplace]
  split_ifs with heq
  · simp [heq]
  · simp [heq, OrdMap.contains]

/-- A call keeps what is registered and adds what is on disk. -/
lemma loadedFrom_addSnapshot {snap : Snapshot} (h : addSnapshot dir false snap tree = .ok (added, tree'))
    (hload : LoadedFrom dir tree) :
    added = true ∧ LoadedFrom dir tree' ∧ GrowsTo tree tree' ∧ tree'.metadataFile = tree.metadataFile ∧
      ∃ list, tree'.manifestsLists.find? (filename snap.manifestListLocation) = some list := by
  obtain ⟨list, hread, ⟨hold, rfl, rfl⟩ | ⟨hnew, manifests, hadd, rfl⟩⟩ := addSnapshot_loads h
  · exact ⟨rfl, hload, .refl _, rfl, Option.isSome_iff_exists.mp hold⟩
  · obtain ⟨hadded, hdisk, hgrows, hnames⟩ := addManifests_loads hadd hload.manifests
    have hnone : tree.manifestsLists.find? (filename snap.manifestListLocation) = none := by
      simpa [OrdMap.contains] using hnew
    refine ⟨hadded, ⟨?_, hdisk, ?_, ?_⟩, ⟨fun name list' hfind => find?_emplace_of_new hnew hfind, hgrows⟩, rfl, list, ?_⟩
    · intro name list' hfind
      rw [OrdMap.find?_emplace, hnone] at hfind
      split_ifs at hfind with heq
      · cases hfind
        rw [heq]
        exact hread
      · exact hload.lists name list' hfind
    · intro name hname
      rcases (contains_emplace _ _ _ _).mp hname with rfl | hold
      · exact filename_filename _
      · exact hload.listNames name hold
    · intro name hname
      rcases hnames name hname with hold | ⟨man, -, rfl⟩
      · exact hload.manifestNames name hold
      · exact filename_filename _
    · rw [OrdMap.find?_emplace, if_pos rfl, hnone, Option.getD_none]

/-- The new location leaves the names of the manifests in the lists of a tree as they are. -/
def ListsKeepNames (fix : StringFix) (tree : MetadataTree) : Prop :=
  ∀ name list, tree.manifestsLists.find? name = some list → ∀ man ∈ list, KeepsName fix man.path

/-- In the new directory a call adds the moved list and the moved manifests. -/
lemma addSnapshot_fix {snap : Snapshot} (h : addSnapshot dir false snap tree = .ok (added, tree'))
    (hload : LoadedFrom dir tree) (hname : KeepsName fix snap.manifestListLocation) (hnames : ListsKeepNames fix tree')
    (hserves : ServesTree fix dir' tree') :
    addSnapshot dir' false (fixSnapshot fix snap) (fixTree fix tree) = .ok (true, fixTree fix tree') := by
  have hname' : filename (fixSnapshot fix snap).manifestListLocation = filename snap.manifestListLocation := hname
  obtain ⟨-, -, -, -, list', hfind⟩ := loadedFrom_addSnapshot h hload
  unfold addSnapshot
  simp only [hname', hserves.lists _ _ hfind, ok_bind, fixTree_eq, contains_map]
  obtain ⟨list, hread, ⟨hold, rfl, rfl⟩ | ⟨hnew, manifests, hadd, rfl⟩⟩ := addSnapshot_loads h
  · rw [if_pos hold]
    rfl
  · have hnone : tree.manifestsLists.find? (filename snap.manifestListLocation) = none := by
      simpa [OrdMap.contains] using hnew
    have hhere : (tree.manifestsLists.emplace (filename snap.manifestListLocation) list).find?
        (filename snap.manifestListLocation) = some list := by
      rw [OrdMap.find?_emplace, if_pos rfl, hnone, Option.getD_none]
    obtain rfl : list' = list := Option.some.inj (hfind.symm.trans hhere)
    have hmans := addManifests_fix hadd hload.manifests (hnames _ _ hfind) hserves.manifests
    rw [if_neg (by simpa using hnew), hmans, ok_bind, ← map_emplace]
    rfl

lemma addSnapshots_loads_cons {snap : Snapshot} {snapshots kept : List Snapshot}
    (h : addSnapshots dir false (snap :: snapshots) tree = .ok (kept, tree')) :
    ∃ added tree₁ kept₁, addSnapshot dir false snap tree = .ok (added, tree₁) ∧
      addSnapshots dir false snapshots tree₁ = .ok (kept₁, tree') ∧ kept = if added then snap :: kept₁ else kept₁ := by
  obtain ⟨⟨added, tree₁⟩, hsnap, h⟩ := bind_ok h
  obtain ⟨⟨kept₁, tree₂⟩, hrest, h⟩ := bind_ok h
  cases h
  exact ⟨added, tree₁, kept₁, hsnap, hrest, rfl⟩

/-- A run of the loop keeps all snapshots and registers what is on disk. -/
lemma loadedFrom_addSnapshots {snapshots kept : List Snapshot}
    (h : addSnapshots dir false snapshots tree = .ok (kept, tree')) (hload : LoadedFrom dir tree) :
    kept = snapshots ∧ LoadedFrom dir tree' ∧ GrowsTo tree tree' ∧ tree'.metadataFile = tree.metadataFile := by
  induction snapshots generalizing tree kept with
  | nil =>
    cases h
    exact ⟨rfl, hload, .refl _, rfl⟩
  | cons snap snapshots ih =>
    obtain ⟨added, tree₁, kept₁, hsnap, hrest, rfl⟩ := addSnapshots_loads_cons h
    obtain ⟨rfl, hload₁, hgrows₁, hmetadata₁, -⟩ := loadedFrom_addSnapshot hsnap hload
    obtain ⟨rfl, hload₂, hgrows₂, hmetadata₂⟩ := ih hrest hload₁
    exact ⟨rfl, hload₂, hgrows₁.trans hgrows₂, hmetadata₂.trans hmetadata₁⟩

/-- A run in the new directory follows the run in the old one. -/
lemma addSnapshots_fix {snapshots kept : List Snapshot}
    (h : addSnapshots dir false snapshots tree = .ok (kept, tree')) (hload : LoadedFrom dir tree)
    (hname : ∀ snap ∈ snapshots, KeepsName fix snap.manifestListLocation) (hnames : ListsKeepNames fix tree')
    (hserves : ServesTree fix dir' tree') :
    addSnapshots dir' false (snapshots.map (fixSnapshot fix)) (fixTree fix tree) =
      .ok (snapshots.map (fixSnapshot fix), fixTree fix tree') := by
  induction snapshots generalizing tree kept with
  | nil =>
    cases h
    rfl
  | cons snap snapshots ih =>
    obtain ⟨hfirst, hname⟩ := List.forall_mem_cons.mp hname
    obtain ⟨added, tree₁, kept₁, hsnap, hrest, rfl⟩ := addSnapshots_loads_cons h
    obtain ⟨-, hload₁, -, -, -⟩ := loadedFrom_addSnapshot hsnap hload
    obtain ⟨-, -, hgrows, -⟩ := loadedFrom_addSnapshots hrest hload₁
    have hnames₁ : ListsKeepNames fix tree₁ := fun name list hfind => hnames name list (hgrows.lists name list hfind)
    have hmoved := addSnapshot_fix hsnap hload hfirst hnames₁ (hserves.of_growsTo hgrows)
    rw [List.map_cons, addSnapshots, hmoved, ok_bind]
    simp only [ih hrest hload₁ hname, ok_bind]
    rfl

/-! ### The constructor -/

lemma loadedFrom_empty (dir : Directory) (metadata : TableMetadataV2) :
    LoadedFrom dir { metadataFile := metadata } where
  lists := by
    intro name list h
    cases h
  manifests := by
    intro name man h
    cases h
  listNames := by
    intro name h
    cases h
  manifestNames := by
    intro name h
    cases h

/-- The constructor keeps the metadata, and all that it loads is on disk. -/
lemma make_loads (h : make dir metadata false = .ok tree) : tree.metadataFile = metadata ∧ LoadedFrom dir tree := by
  obtain ⟨⟨kept, tree₁⟩, hrun, h⟩ := bind_ok h
  obtain ⟨rfl, hload, -, -⟩ := loadedFrom_addSnapshots hrun (loadedFrom_empty dir metadata)
  cases h
  exact ⟨rfl, ⟨hload.lists, hload.manifests, hload.listNames, hload.manifestNames⟩⟩

/-- The new location leaves the file names in the metadata of a tree as they are. -/
def KeepsNames (fix : StringFix) (tree : MetadataTree) : Prop := ∀ path ∈ tree.metaPaths, KeepsName fix path

lemma KeepsNames.snapshots (h : KeepsNames fix tree) :
    ∀ snap ∈ tree.metadataFile.snapshots, KeepsName fix snap.manifestListLocation := by
  intro snap hsnap
  apply h
  simp only [metaPaths, List.mem_append, List.mem_map]
  exact .inl (.inl ⟨snap, hsnap, rfl⟩)

lemma KeepsNames.log (h : KeepsNames fix tree) :
    ∀ log ∈ tree.metadataFile.metadataLog, KeepsName fix log.metadataFile := by
  intro log hlog
  apply h
  simp only [metaPaths, List.mem_append, List.mem_map]
  exact .inl (.inr ⟨log, hlog, rfl⟩)

lemma KeepsNames.lists (h : KeepsNames fix tree) : ListsKeepNames fix tree := by
  intro name list hfind man hman
  apply h
  simp only [metaPaths, List.mem_append, List.mem_map]
  exact .inr ⟨man, List.mem_flatten.mpr ⟨list, (OrdMap.mem_values _ _).mpr ⟨name, hfind⟩, hman⟩, rfl⟩

/-- In the new directory the constructor makes the moved tree. -/
lemma make_fix (h : make dir metadata false = .ok tree) (hnames : KeepsNames fix tree) (hserves : ServesTree fix dir' tree) :
    make dir' (fixMetadata fix metadata) false = .ok (fixTree fix tree) := by
  obtain ⟨hmetadata, -⟩ := make_loads h
  obtain ⟨⟨kept, tree₁⟩, hrun, h⟩ := bind_ok h
  obtain ⟨rfl, -, -, -⟩ := loadedFrom_addSnapshots hrun (loadedFrom_empty dir metadata)
  cases h
  have hmoved := addSnapshots_fix hrun (loadedFrom_empty dir metadata) hnames.snapshots hnames.lists
    ⟨hserves.lists, hserves.manifests⟩
  have hempty : fixTree fix { metadataFile := metadata } = { metadataFile := fixMetadata fix metadata } := rfl
  rw [hempty] at hmoved
  have hsnapshots : (fixMetadata fix metadata).snapshots = metadata.snapshots.map (fixSnapshot fix) := rfl
  rw [make, hsnapshots, hmoved, ok_bind]
  rfl

/-! ### Loading from a directory -/

section
variable {env : MetadataEnvironment} {disk disk' : Disk env} {prev : List (Bytes × MetadataTree)}

/-- The directory has the moved files of a tree. -/
structure Has (disk : Disk env) (fix : StringFix) (name : Bytes) (tree : MetadataTree) : Prop where
  metadata : readMetadataFile disk name = .ok (fixMetadata fix tree.metadataFile)
  serves : ServesTree fix disk.directory tree

/-- A loaded tree has the metadata of its file and what the directory has for it. -/
lemma load_loads (h : load disk false name = .ok tree) :
    readMetadataFile disk name = .ok tree.metadataFile ∧ LoadedFrom disk.directory tree := by
  obtain ⟨metadata, hread, hmake⟩ := bind_ok h
  obtain ⟨rfl, hload⟩ := make_loads hmake
  exact ⟨hread, hload⟩

lemma load_fix (h : load disk false name = .ok tree) (hnames : KeepsNames fix tree) (hhas : Has disk' fix name tree) :
    load disk' false name = .ok (fixTree fix tree) := by
  obtain ⟨metadata, hread, hmake⟩ := bind_ok h
  obtain ⟨hmetadata, -⟩ := make_loads hmake
  rw [load, hhas.metadata, ok_bind, hmetadata]
  exact make_fix hmake hnames hhas.serves

lemma logByTimestamp_fixTree : (fixTree fix tree).logByTimestamp = tree.logByTimestamp.map (fixString fix) := by
  have hfold : ∀ (logs : List MetadataLog) (out : OrdMap Int Bytes),
      (logs.map (fun log => { log with metadataFile := fixString fix log.metadataFile })).foldl
        (fun out log => out.emplace log.timestampMs.toInt log.metadataFile) (out.map (fixString fix)) =
      (logs.foldl (fun out log => out.emplace log.timestampMs.toInt log.metadataFile) out).map (fixString fix) := by
    intro logs
    induction logs with
    | nil => exact fun _ => rfl
    | cons log logs ih =>
      intro out
      rw [List.map_cons, List.foldl_cons, List.foldl_cons, ← map_emplace]
      exact ih _
  exact hfold tree.metadataFile.metadataLog ∅

/-- The files that are loaded are in the log. -/
lemma mem_logByTimestamp {path : Bytes} (h : path ∈ tree.logByTimestamp.values) :
    ∃ log ∈ tree.metadataFile.metadataLog, log.metadataFile = path := by
  have hfold : ∀ (logs : List MetadataLog) (out : OrdMap Int Bytes) (path : Bytes),
      path ∈ (logs.foldl (fun out log => out.emplace log.timestampMs.toInt log.metadataFile) out).values →
      path ∈ out.values ∨ ∃ log ∈ logs, log.metadataFile = path := by
    intro logs
    induction logs with
    | nil => exact fun _ _ => .inl
    | cons log logs ih =>
      intro out path hpath
      rcases ih _ path hpath with hold | ⟨log', hlog', heq⟩
      · obtain ⟨key, hkey⟩ := (OrdMap.mem_values _ _).mp hold
        rw [OrdMap.find?_emplace] at hkey
        split_ifs at hkey with hhere
        · cases hfind : out.find? log.timestampMs.toInt with
          | none =>
            rw [hfind] at hkey
            exact .inr ⟨log, List.mem_cons_self, Option.some.inj hkey⟩
          | some old =>
            rw [hfind] at hkey
            exact .inl ((OrdMap.mem_values _ _).mpr ⟨_, hfind.trans hkey⟩)
        · exact .inl ((OrdMap.mem_values _ _).mpr ⟨key, hkey⟩)
      · exact .inr ⟨log', List.mem_cons_of_mem _ hlog', heq⟩
  rcases hfold _ _ _ h with hnone | hlog
  · cases hnone
  · exact hlog

lemma loadPrevious_cons {path : Bytes} {paths : List Bytes} (h : loadPrevious disk false (path :: paths) = .ok prev) :
    ∃ oldMeta prev', load disk false (filename path) = .ok oldMeta ∧ loadPrevious disk false paths = .ok prev' ∧
      prev = (filename path, oldMeta) :: prev' := by
  rw [loadPrevious] at h
  cases hload : load disk false (filename path) with
  | error ex =>
    rw [hload] at h
    cases h
  | ok oldMeta =>
    rw [hload] at h
    obtain ⟨prev', hprev, h⟩ := bind_ok h
    cases h
    exact ⟨oldMeta, prev', rfl, hprev, rfl⟩

/-- Every earlier tree is loaded from its file. -/
lemma loadPrevious_loads {paths : List Bytes} (h : loadPrevious disk false paths = .ok prev) :
    ∀ p ∈ prev, load disk false p.1 = .ok p.2 := by
  induction paths generalizing prev with
  | nil =>
    cases h
    exact fun p hp => absurd hp List.not_mem_nil
  | cons path paths ih =>
    obtain ⟨oldMeta, prev', hload, hprev, rfl⟩ := loadPrevious_cons h
    exact List.forall_mem_cons.mpr ⟨hload, ih hprev⟩

lemma loadPrevious_fix {paths : List Bytes} (h : loadPrevious disk false paths = .ok prev)
    (hpaths : ∀ path ∈ paths, KeepsName fix path) (hnames : ∀ p ∈ prev, KeepsNames fix p.2)
    (hhas : ∀ p ∈ prev, Has disk' fix p.1 p.2) :
    loadPrevious disk' false (paths.map (fixString fix)) = .ok (prev.map (fun p => (p.1, fixTree fix p.2))) := by
  induction paths generalizing prev with
  | nil =>
    cases h
    rfl
  | cons path paths ih =>
    obtain ⟨hpath, hpaths⟩ := List.forall_mem_cons.mp hpaths
    obtain ⟨oldMeta, prev', hload, hprev, rfl⟩ := loadPrevious_cons h
    obtain ⟨hname, hnames⟩ := List.forall_mem_cons.mp hnames
    obtain ⟨hfirst, hhas⟩ := List.forall_mem_cons.mp hhas
    rw [List.map_cons, loadPrevious, hpath, load_fix hload hname hfirst]
    simp only [ih hprev hpaths hnames hhas, ok_bind]
    rfl

/-- All trees with the names of their files. -/
def namedTrees (name : Bytes) (loaded : MetadataTree × List (Bytes × MetadataTree)) : List (Bytes × MetadataTree) :=
  loaded.2 ++ [(name, loaded.1)]

lemma loadAll_loads {loaded : MetadataTree × List (Bytes × MetadataTree)} (h : loadAll disk name = .ok loaded) :
    load disk false name = .ok loaded.1 ∧ loadPrevious disk false loaded.1.logByTimestamp.values = .ok loaded.2 ∧
      ∀ p ∈ namedTrees name loaded, load disk false p.1 = .ok p.2 := by
  obtain ⟨tree, hload, h⟩ := bind_ok h
  obtain ⟨prev, hprev, h⟩ := bind_ok h
  cases h
  refine ⟨hload, hprev, fun p hp => ?_⟩
  rcases List.mem_append.mp hp with hp | hp
  · exact loadPrevious_loads hprev p hp
  · rw [List.mem_singleton.mp hp]
    exact hload

/-- A directory with the moved files of all trees has the moved trees. -/
lemma loadAll_fix {loaded : MetadataTree × List (Bytes × MetadataTree)} (h : loadAll disk name = .ok loaded)
    (hnames : ∀ p ∈ namedTrees name loaded, KeepsNames fix p.2)
    (hhas : ∀ p ∈ namedTrees name loaded, Has disk' fix p.1 p.2) :
    loadAll disk' name = .ok (fixTree fix loaded.1, loaded.2.map (fun p => (p.1, fixTree fix p.2))) := by
  obtain ⟨hload, hprev, -⟩ := loadAll_loads h
  have hmain : (name, loaded.1) ∈ namedTrees name loaded := List.mem_append_right _ (List.mem_singleton_self _)
  have hpaths : ∀ path ∈ loaded.1.logByTimestamp.values, KeepsName fix path := by
    intro path hpath
    obtain ⟨log, hlog, rfl⟩ := mem_logByTimestamp hpath
    exact (hnames _ hmain).log log hlog
  have hmoved := loadPrevious_fix hprev hpaths (fun p hp => hnames p (List.mem_append_left _ hp))
    (fun p hp => hhas p (List.mem_append_left _ hp))
  rw [loadAll, load_fix hload (hnames _ hmain) (hhas _ hmain), ok_bind, logByTimestamp_fixTree, OrdMap.values_map,
    hmoved, ok_bind]
  rfl

end

end IcebergCxx.Proofs

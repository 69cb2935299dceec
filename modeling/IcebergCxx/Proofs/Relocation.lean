import IcebergCxx.Proofs.Manifest
import IcebergCxx.Proofs.ManifestList
import IcebergCxx.Proofs.TableMetadata
import IcebergCxx.Proofs.TreeLoading

/-!
# Relocated tables

What `fix_location` writes has one file for every name, since all trees come from one directory: the trees are loaded
again as they were moved.
-/

namespace IcebergCxx.Proofs

open Lib MetadataTree

variable {fix : StringFix} {list : List ManifestFile} {name : Bytes} {tree : MetadataTree}

section
variable {env : MetadataEnvironment} {disk : Disk env}

/-! ### Writing to a directory -/

/-- The directory after all files were written, the later over the earlier ones. -/
def writeAll (files : List (Bytes × MetadataDirFile env.avro)) (out : Disk env) : Disk env :=
  files.foldl (fun out file => out.write file.1 file.2) out

lemma writeAll_append (files files' : List (Bytes × MetadataDirFile env.avro)) (out : Disk env) :
    writeAll (files ++ files') out = writeAll files' (writeAll files out) := List.foldl_append

lemma writeAll_of_notMem {files : List (Bytes × MetadataDirFile env.avro)} {out : Disk env}
    (h : name ∉ files.map Prod.fst) : writeAll files out name = out name := by
  induction files generalizing out with
  | nil => rfl
  | cons file files ih =>
    rw [List.map_cons, List.mem_cons, not_or] at h
    exact (ih h.2).trans (if_neg h.1)

/-- A file that is written under its name only as it is, is there. -/
lemma writeAll_of_mem {files : List (Bytes × MetadataDirFile env.avro)} {file : MetadataDirFile env.avro}
    {out : Disk env} (h : (name, file) ∈ files) (hsame : ∀ file', (name, file') ∈ files → file' = file) :
    writeAll files out name = some file := by
  induction files using List.reverseRecOn with
  | nil => cases h
  | append_singleton files last ih =>
    rw [writeAll_append]
    by_cases heq : name = last.1
    · have hlast : last.2 = file := hsame _ (by simp [heq])
      exact (if_pos heq).trans (congrArg some hlast)
    · have hmem : (name, file) ∈ files := by
        rcases List.mem_append.mp h with h | h
        · exact h
        · rw [← List.mem_singleton.mp h] at heq
          exact absurd rfl heq
      exact (if_neg heq).trans (ih hmem fun file' hfile' => hsame file' (List.mem_append_left _ hfile'))

lemma foldlM_write {α : Type} {files : List α} {path : α → Bytes} {content : α → Except String env.avro.File}
    {file : α → MetadataDirFile env.avro} (h : ∀ a ∈ files, ∃ c, content a = .ok c ∧ file a = .container c) (out : Disk env) :
    files.foldlM (fun (out : Disk env) a => do
      let content ← content a
      return out.write (path a) (.container content)) out =
      .ok (writeAll (files.map (fun a => (path a, file a))) out) := by
  induction files generalizing out with
  | nil => rfl
  | cons a files ih =>
    obtain ⟨⟨c, hc, hfile⟩, hrest⟩ := List.forall_mem_cons.mp h
    have hfirst : (do
        let content ← content a
        return out.write (path a) (.container content) : Except String (Disk env)) =
        .ok (out.write (path a) (file a)) := by
      rw [hc, hfile]
      rfl
    rw [List.foldlM_cons, hfirst, ok_bind, ih hrest]
    rfl

/-- A manifest list is read back. -/
lemma manifestList_stored (avro : AvroLibrary) (list : List ManifestFile) :
    ∃ content, writeManifestList avro list = .ok content ∧ readManifestList avro content = .ok list := by
  obtain ⟨data, hdata, hdecode⟩ :=
    bind_ok (Generated.manifestFileCodec.fileRoundTrip avro ∅ (list.map writeManifestFile))
  rw [List.map_map] at hdata
  refine ⟨_, by rw [writeManifestList, manifestListSchema_eq, ok_bind]; rfl, ?_⟩
  have hread : (list.map writeManifestFile).map readManifestFile = list := by
    rw [List.map_map]
    exact List.map_id'' readManifestFile_writeManifestFile _
  rw [readManifestList, manifestListSchema_eq, ok_bind]
  refine Eq.trans (congrArg (fun data => data >>= _) hdata) ?_
  rw [ok_bind, hdecode, ok_bind, hread]
  rfl

/-- The files of a tree are read back as they were written. -/
structure StorableTree (env : MetadataEnvironment) (tree : MetadataTree) : Prop where
  metadata : RoundTrips env.json tree.metadataFile
  manifests : ∀ man ∈ tree.manifests.values, ∃ content, writeManifestEntries env.avro man [] = .ok content ∧
    readManifestEntries env.avro env.json env.getInt content [] {} true = .ok man

def plainFile (written : Except String Bytes) : MetadataDirFile env.avro := .plain (written.toOption.getD [])

def containerFile (written : Except String env.avro.File) : MetadataDirFile env.avro :=
  written.toOption.elim (.plain []) .container

/-- The files that `WriteFiles` writes. -/
def treeFiles (env : MetadataEnvironment) (name : Bytes) (tree : MetadataTree) :
    List (Bytes × MetadataDirFile env.avro) :=
  (name, plainFile (writeTableMetadataV2 env.json tree.metadataFile)) ::
    (tree.manifestsLists.entries.map (fun list => (filename list.1, containerFile (writeManifestList env.avro list.2))) ++
      tree.manifests.entries.map (fun man => (filename man.1, containerFile (writeManifestEntries env.avro man.2 []))))

lemma writeFiles_eq (h : StorableTree env tree) (out : Disk env) :
    writeFiles name tree out = .ok (writeAll (treeFiles env name tree) out) := by
  obtain ⟨serialized, hserialized, -⟩ := h.metadata
  have hlists : ∀ list ∈ tree.manifestsLists.entries, ∃ content, writeManifestList env.avro list.2 = .ok content ∧
      containerFile (writeManifestList env.avro list.2) = .container content := by
    intro list _
    obtain ⟨content, hcontent, -⟩ := manifestList_stored env.avro list.2
    exact ⟨content, hcontent, by rw [hcontent]; rfl⟩
  have hmanifests : ∀ man ∈ tree.manifests.entries, ∃ content, writeManifestEntries env.avro man.2 [] = .ok content ∧
      containerFile (writeManifestEntries env.avro man.2 []) = .container content := by
    intro man hman
    obtain ⟨content, hcontent, -⟩ := h.manifests man.2 (List.mem_map_of_mem hman)
    exact ⟨content, hcontent, by rw [hcontent]; rfl⟩
  have hmain : plainFile (writeTableMetadataV2 env.json tree.metadataFile) = (.plain serialized : MetadataDirFile env.avro) := by
    rw [hserialized]
    rfl
  rw [writeFiles, hserialized, ok_bind, foldlM_write hlists, ok_bind, foldlM_write hmanifests, treeFiles, hmain,
    ← writeAll_append]
  rfl

/-! ### The files of moved trees -/

lemma readMetadataFile_plain {metadata : TableMetadataV2} (h : readMetadataFile disk name = .ok metadata) :
    ∃ content, disk name = some (.plain content) := by
  unfold readMetadataFile at h
  cases hfile : disk name with
  | none =>
    rw [hfile] at h
    cases h
  | some file =>
    rw [hfile] at h
    cases file with
    | plain content => exact ⟨content, rfl⟩
    | container content => cases h

lemma manifestList_container (h : disk.directory.manifestList name = some (.ok list)) :
    ∃ content, disk name = some (.container content) := by
  obtain ⟨file, hfile, hread⟩ := Option.map_eq_some_iff.mp h
  cases file with
  | plain content => cases hread
  | container content => exact ⟨content, hfile⟩

lemma manifest_container {man : Manifest} (h : disk.directory.manifest name = some (.ok man)) :
    ∃ content, disk name = some (.container content) := by
  obtain ⟨file, hfile, hread⟩ := Option.map_eq_some_iff.mp h
  cases file with
  | plain content => cases hread
  | container content => exact ⟨content, hfile⟩

/-- No file is a manifest list of one tree and a manifest of another. -/
def NamesApart (trees : List (Bytes × MetadataTree)) : Prop :=
  ∀ p ∈ trees, ∀ q ∈ trees, ∀ name, p.2.manifestsLists.contains name = true → q.2.manifests.contains name = false

lemma NamesApart.not_both {trees : List (Bytes × MetadataTree)} (h : NamesApart trees) {p q : Bytes × MetadataTree}
    (hp : p ∈ trees) (hq : q ∈ trees) {man : Manifest} (hlist : p.2.manifestsLists.find? name = some list)
    (hman : q.2.manifests.find? name = some man) : False := by
  have hnot := h p hp q hq name (Option.isSome_iff_exists.mpr ⟨list, hlist⟩)
  rw [OrdMap.contains, hman] at hnot
  cases hnot

/-- What a file of a moved tree is. -/
inductive FileOf (env : MetadataEnvironment) (fix : StringFix) (p : Bytes × MetadataTree) (name : Bytes) :
    MetadataDirFile env.avro → Prop
  | metadata (h : name = p.1) :
    FileOf env fix p name (plainFile (writeTableMetadataV2 env.json (fixMetadata fix p.2.metadataFile)))
  | list (list : List ManifestFile) (h : p.2.manifestsLists.find? name = some list) :
    FileOf env fix p name (containerFile (writeManifestList env.avro (list.map (fixManifestFile fix))))
  | manifest (man : Manifest) (h : p.2.manifests.find? name = some man) :
    FileOf env fix p name (containerFile (writeManifestEntries env.avro (fixManifest fix man) []))

lemma mem_entries_map {V W : Type} {m : OrdMap Bytes V} {f : V → W} {e : Bytes × W} (h : e ∈ (m.map f).entries) :
    ∃ v, m.find? e.1 = some v ∧ e.2 = f v := by
  obtain ⟨key, value⟩ := e
  rw [OrdMap.mem_entries, OrdMap.find?_map] at h
  obtain ⟨v, hv, rfl⟩ := Option.map_eq_some_iff.mp h
  exact ⟨v, hv, rfl⟩

lemma mem_treeFiles_iff {p : Bytes × MetadataTree} {file : MetadataDirFile env.avro}
    (hload : LoadedFrom disk.directory p.2) :
    (name, file) ∈ treeFiles env p.1 (fixTree fix p.2) ↔ FileOf env fix p name file := by
  rw [treeFiles, List.mem_cons, List.mem_append, List.mem_map, List.mem_map]
  constructor
  · rintro (heq | ⟨e, he, heq⟩ | ⟨e, he, heq⟩)
    · obtain ⟨rfl, rfl⟩ := Prod.mk.inj heq
      exact .metadata rfl
    · obtain ⟨rfl, rfl⟩ := Prod.mk.inj heq
      obtain ⟨list, hfind, hlist⟩ := mem_entries_map he
      have hname := hload.listNames e.1 (Option.isSome_iff_exists.mpr ⟨list, hfind⟩)
      rw [hlist, hname]
      exact .list list hfind
    · obtain ⟨rfl, rfl⟩ := Prod.mk.inj heq
      obtain ⟨man, hfind, hman⟩ := mem_entries_map he
      have hname := hload.manifestNames e.1 (Option.isSome_iff_exists.mpr ⟨man, hfind⟩)
      rw [hman, hname]
      exact .manifest man hfind
  · intro h
    cases h with
    | metadata h =>
      rw [h]
      exact .inl rfl
    | list list h =>
      refine .inr (.inl ⟨(name, list.map (fixManifestFile fix)), ?_, ?_⟩)
      · rw [OrdMap.mem_entries, fixTree_eq, OrdMap.find?_map, h]
        rfl
      · rw [hload.listNames name (Option.isSome_iff_exists.mpr ⟨list, h⟩)]
    | manifest man h =>
      refine .inr (.inr ⟨(name, fixManifest fix man), ?_, ?_⟩)
      · rw [OrdMap.mem_entries, fixTree_eq, OrdMap.find?_map, h]
        rfl
      · rw [hload.manifestNames name (Option.isSome_iff_exists.mpr ⟨man, h⟩)]

/-- Two trees from one directory have the same file under one name. -/
lemma fileOf_unique {trees : List (Bytes × MetadataTree)} (hload : ∀ p ∈ trees, load disk false p.1 = .ok p.2)
    (hapart : NamesApart trees) {p q : Bytes × MetadataTree} (hp : p ∈ trees) (hq : q ∈ trees)
    {file file' : MetadataDirFile env.avro} (h : FileOf env fix p name file) (h' : FileOf env fix q name file') :
    file = file' := by
  obtain ⟨hmetadata, hfrom⟩ := load_loads (hload p hp)
  obtain ⟨hmetadata', hfrom'⟩ := load_loads (hload q hq)
  -- a file on the disk has one format
  have hformat : ∀ content, disk name = some (.plain content) → ∀ content', disk name ≠ some (.container content') := by
    intro content hplain content' hcontainer
    rw [hplain] at hcontainer
    cases hcontainer
  cases h with
  | metadata h =>
    rw [← h] at hmetadata
    obtain ⟨content, hplain⟩ := readMetadataFile_plain hmetadata
    cases h' with
    | metadata h' =>
      rw [← h', hmetadata] at hmetadata'
      rw [Except.ok.inj hmetadata']
    | list list' h' => exact absurd (manifestList_container (hfrom'.lists _ _ h')) (by simpa using hformat _ hplain)
    | manifest man' h' => exact absurd (manifest_container (hfrom'.manifests _ _ h')) (by simpa using hformat _ hplain)
  | list list h =>
    have hlist := hfrom.lists _ _ h
    cases h' with
    | metadata h' =>
      rw [← h'] at hmetadata'
      obtain ⟨content, hplain⟩ := readMetadataFile_plain hmetadata'
      exact absurd (manifestList_container hlist) (by simpa using hformat _ hplain)
    | list list' h' =>
      obtain rfl := Except.ok.inj (Option.some.inj (hlist.symm.trans (hfrom'.lists _ _ h')))
      rfl
    | manifest man' h' => exact (hapart.not_both hp hq h h').elim
  | manifest man h =>
    have hman := hfrom.manifests _ _ h
    cases h' with
    | metadata h' =>
      rw [← h'] at hmetadata'
      obtain ⟨content, hplain⟩ := readMetadataFile_plain hmetadata'
      exact absurd (manifest_container hman) (by simpa using hformat _ hplain)
    | list list' h' => exact (hapart.not_both hq hp h' h).elim
    | manifest man' h' =>
      obtain rfl := Except.ok.inj (Option.some.inj (hman.symm.trans (hfrom'.manifests _ _ h')))
      rfl

/-- All files of the moved trees. -/
def movedFiles (env : MetadataEnvironment) (fix : StringFix) (trees : List (Bytes × MetadataTree)) :
    List (Bytes × MetadataDirFile env.avro) :=
  trees.flatMap (fun p => treeFiles env p.1 (fixTree fix p.2))

section
variable {trees : List (Bytes × MetadataTree)} (hload : ∀ p ∈ trees, load disk false p.1 = .ok p.2)
include hload

lemma mem_movedFiles {file : MetadataDirFile env.avro} :
    (name, file) ∈ movedFiles env fix trees ↔ ∃ p ∈ trees, FileOf env fix p name file := by
  rw [movedFiles, List.mem_flatMap]
  exact exists_congr fun p => and_congr_right fun hp => mem_treeFiles_iff (load_loads (hload p hp)).2

lemma writeAll_movedFiles (hapart : NamesApart trees) {p : Bytes × MetadataTree} (hp : p ∈ trees)
    {file : MetadataDirFile env.avro} (h : FileOf env fix p name file) (out : Disk env) :
    writeAll (movedFiles env fix trees) out name = some file := by
  apply writeAll_of_mem ((mem_movedFiles hload).mpr ⟨p, hp, h⟩)
  intro file' hfile'
  obtain ⟨q, hq, h'⟩ := (mem_movedFiles hload).mp hfile'
  exact fileOf_unique hload hapart hq hp h' h

/-- The new directory has the moved files of every tree. -/
lemma has_writeAll (hapart : NamesApart trees) (hstored : ∀ p ∈ trees, StorableTree env (fixTree fix p.2))
    {p : Bytes × MetadataTree} (hp : p ∈ trees) (out : Disk env) :
    Has (writeAll (movedFiles env fix trees) out) fix p.1 p.2 where
  metadata := by
    obtain ⟨serialized, hserialized, hread⟩ := (hstored p hp).metadata
    have hfile := writeAll_movedFiles hload hapart hp (@FileOf.metadata env fix p _ rfl) out
    rw [fixTree_eq] at hserialized hread
    rw [readMetadataFile, hfile, hserialized]
    simp only [plainFile, Except.toOption, Option.getD_some, MetadataDirFile.readMetadata, hread, ok_bind]
    rfl
  serves := by
    constructor
    · intro name list hfind
      obtain ⟨content, hcontent, hread⟩ := manifestList_stored env.avro (list.map (fixManifestFile fix))
      have hfile := writeAll_movedFiles hload hapart hp (@FileOf.list env fix p _ list hfind) out
      rw [Disk.directory]
      dsimp only
      rw [hfile, hcontent]
      exact congrArg some hread
    · intro name man hfind
      have hmem : fixManifest fix man ∈ (fixTree fix p.2).manifests.values := by
        rw [fixTree_eq, OrdMap.values_map]
        exact List.mem_map_of_mem ((OrdMap.mem_values _ _).mpr ⟨name, hfind⟩)
      obtain ⟨content, hcontent, hread⟩ := (hstored p hp).manifests _ hmem
      have hfile := writeAll_movedFiles hload hapart hp (@FileOf.manifest env fix p _ man hfind) out
      rw [Disk.directory]
      dsimp only
      rw [hfile, hcontent]
      exact congrArg some hread

end

/-! ### The program -/

lemma fixTree_of_not_needFix (h : fix.needFix = false) (tree : MetadataTree) : fixTree fix tree = tree := by
  have hfix : fixString fix = id := funext (fixString_of_not_needFix h)
  have hman : fixManifestFile fix = id := by
    funext man
    simp only [fixManifestFile, hfix, id]
  have hentry : fixEntry fix = id := by
    funext entry
    simp only [fixEntry, hfix, id]
  have hmanifest : fixManifest fix = id := by
    funext man
    simp only [fixManifest, hentry, List.map_id, id]
  have hsnap : fixSnapshot fix = id := by
    funext snap
    simp only [fixSnapshot, hfix, id]
  have hmap {V : Type} (m : OrdMap Bytes V) : m.map id = m := by
    apply OrdMap.ext_find
    intro name
    rw [OrdMap.find?_map, Option.map_id, id]
  have hmetadata : fixMetadata fix tree.metadataFile = tree.metadataFile := by
    simp only [fixMetadata, hfix, hsnap, List.map_id, id, List.map_id']
  rw [fixTree_eq, hmetadata, hman, hmanifest, List.map_id_fun, hmap, hmap]

lemma fixTrees_eq (fix : StringFix) (trees : List MetadataTree) : fixTrees fix trees = trees.map (fixTree fix) := by
  cases h : fix.needFix with
  | true => rw [fixTrees, if_pos h, fixLocations_eq]
  | false =>
    have hid : fixTree fix = id := funext (fixTree_of_not_needFix h)
    rw [fixTrees, if_neg (by simp [h]), hid, List.map_id]

lemma foldlM_writeFiles {trees : List (Bytes × MetadataTree)} (h : ∀ p ∈ trees, StorableTree env (fixTree fix p.2))
    (out : Disk env) :
    (trees.map (fun p => (p.1, fixTree fix p.2))).foldlM (fun out p => writeFiles p.1 p.2 out) out =
      .ok (writeAll (movedFiles env fix trees) out) := by
  induction trees generalizing out with
  | nil => rfl
  | cons p trees ih =>
    obtain ⟨hfirst, hrest⟩ := List.forall_mem_cons.mp h
    have hfiles : movedFiles env fix (p :: trees) = treeFiles env p.1 (fixTree fix p.2) ++ movedFiles env fix trees :=
      List.flatMap_cons
    rw [List.map_cons, List.foldlM_cons, writeFiles_eq hfirst, ok_bind, ih hrest, hfiles, writeAll_append]

lemma relocate_eq {loaded : MetadataTree × List (Bytes × MetadataTree)} (h : loadAll disk name = .ok loaded)
    (hstored : ∀ p ∈ namedTrees name loaded, StorableTree env (fixTree fix p.2)) (out : Disk env) :
    relocate disk name fix out = .ok (writeAll (movedFiles env fix (namedTrees name loaded)) out) := by
  have hzip : (loaded.2.map Prod.fst ++ [name]).zip ((loaded.2.map Prod.snd ++ [loaded.1]).map (fixTree fix)) =
      (namedTrees name loaded).map (fun p => (p.1, fixTree fix p.2)) := by
    have hnames : loaded.2.map Prod.fst ++ [name] = (namedTrees name loaded).map Prod.fst := by
      rw [namedTrees, List.map_append, List.map_singleton]
    have htrees : loaded.2.map Prod.snd ++ [loaded.1] = (namedTrees name loaded).map Prod.snd := by
      rw [namedTrees, List.map_append, List.map_singleton]
    rw [hnames, htrees, List.map_map, List.zip_map']
    rfl
  rw [relocate, h, ok_bind]
  dsimp only
  rw [fixTrees_eq, hzip, foldlM_writeFiles hstored]

/-- The names of the files that belong to a tree. -/
def fileNames (p : Bytes × MetadataTree) : List Bytes := p.1 :: (p.2.manifestsLists.keys ++ p.2.manifests.keys)

lemma FileOf.mem_fileNames {p : Bytes × MetadataTree} {file : MetadataDirFile env.avro} (h : FileOf env fix p name file) :
    name ∈ fileNames p := by
  cases h with
  | metadata h =>
    rw [h]
    exact List.mem_cons_self
  | list list h =>
    have hkey : name ∈ p.2.manifestsLists.keys := (OrdMap.mem_keys _ _).mpr (by rw [h]; rfl)
    exact List.mem_cons_of_mem _ (List.mem_append_left _ hkey)
  | manifest man h =>
    have hkey : name ∈ p.2.manifests.keys := (OrdMap.mem_keys _ _).mpr (by rw [h]; rfl)
    exact List.mem_cons_of_mem _ (List.mem_append_right _ hkey)

end

/-- Metadata directories in memory. -/
def memoryEnvironment : MetadataEnvironment := ⟨memoryAvro, compactJson, assertedInt, "Invalid data file"⟩

def oldToNew : StringFix := ⟨bytes "old", bytes "new"⟩

/-- The metadata of a table with one snapshot at a location. -/
def metadataAtLocation (location : Bytes) : TableMetadataV2 :=
  { oneBlobMetadata ∅ with
    location := location
    snapshots := [{ firstSnapshot with manifestListLocation := location ++ bytes "/list.avro" }]
    statistics := [] }

def listAt (location : Bytes) : List ManifestFile := [{ path := location ++ bytes "/m0.avro" }]

def manifestAt (location : Bytes) : Manifest :=
  ⟨∅, [{ status := .added, dataFile := { filePath := location ++ bytes "/a", fileFormat := bytes "PARQUET" } }]⟩

def treeAt (location : Bytes) : MetadataTree where
  metadataFile := metadataAtLocation location
  manifestsLists := (∅ : OrdMap Bytes (List ManifestFile)).emplace (bytes "list.avro") (listAt location)
  manifests := (∅ : OrdMap Bytes Manifest).emplace (bytes "m0.avro") (manifestAt location)

lemma fixTree_treeAt : fixTree oldToNew (treeAt (bytes "old")) = treeAt (bytes "new") := rfl

lemma roundTrips_metadataAtLocation {location : Bytes} (h : Built (metadataAtLocation location)) :
    RoundTrips compactJson (metadataAtLocation location) := by
  have hempty : MapNulFree ∅ := fun p hp => absurd hp List.not_mem_nil
  have hsummary : MapNulFree firstSnapshot.summary := by decide
  have hw : Writable (metadataAtLocation location) := by
    refine ⟨?_, ?_, ?_, ?_, hempty, ?_, ?_, ?_⟩
    · simp [metadataAtLocation, oneBlobMetadata, SchemaTyped, Constructed, InInt32]
    · simp [metadataAtLocation, oneBlobMetadata, SpecTyped, InInt32]
    · intro snap hsnap
      rw [List.mem_singleton.mp hsnap]
      rfl
    · simp [metadataAtLocation]
    · intro snap hsnap
      rw [List.mem_singleton.mp hsnap]
      exact hsummary
    · simp [metadataAtLocation]
    · intro p hp
      rw [List.mem_singleton.mp hp]
      decide
  refine ⟨_, writeTableMetadataV2_eq compactJson hw, (readTableMetadataV2_print compactJson).mpr ?_⟩
  exact (makeTableMetadataV2_write hw h _).mpr ⟨by simp [metadataAtLocation], rfl⟩

lemma storable_treeAt {location : Bytes} (h : Built (metadataAtLocation location))
    (hmanifest : ∃ content, writeManifestEntries memoryAvro (manifestAt location) [] = .ok content ∧
      readManifestEntries memoryAvro compactJson assertedInt content [] {} true = .ok (manifestAt location)) :
    StorableTree memoryEnvironment (treeAt location) where
  metadata := roundTrips_metadataAtLocation h
  manifests := by
    intro man hman
    rw [List.mem_singleton.mp hman]
    exact hmanifest

set_option maxRecDepth 8000 in
lemma storable_old : StorableTree memoryEnvironment (treeAt (bytes "old")) :=
  storable_treeAt ⟨rfl, rfl, by decide⟩ ⟨_, rfl, rfl⟩

set_option maxRecDepth 8000 in
lemma storable_new : StorableTree memoryEnvironment (treeAt (bytes "new")) :=
  storable_treeAt ⟨rfl, rfl, by decide⟩ ⟨_, rfl, rfl⟩

/-- The directory of the table before it is moved. -/
def oldDisk : Disk memoryEnvironment := fun name =>
  if name = bytes "v1.json" then some (plainFile (writeTableMetadataV2 compactJson (metadataAtLocation (bytes "old"))))
  else if name = bytes "list.avro" then some (containerFile (writeManifestList memoryAvro (listAt (bytes "old"))))
  else if name = bytes "m0.avro" then some (containerFile (writeManifestEntries memoryAvro (manifestAt (bytes "old")) []))
  else none

lemma oldDisk_metadata : readMetadataFile oldDisk (bytes "v1.json") = .ok (metadataAtLocation (bytes "old")) := by
  obtain ⟨serialized, hserialized, hread⟩ := storable_old.metadata
  have hfile : oldDisk (bytes "v1.json") =
      some (plainFile (writeTableMetadataV2 compactJson (metadataAtLocation (bytes "old")))) := if_pos rfl
  have hplain : plainFile (writeTableMetadataV2 compactJson (metadataAtLocation (bytes "old"))) =
      (.plain serialized : MetadataDirFile memoryEnvironment.avro) := congrArg plainFile hserialized
  rw [readMetadataFile, hfile, hplain]
  exact congrArg (fun metadata => metadata >>= _) hread

lemma oldDisk_list : oldDisk.directory.manifestList (bytes "list.avro") = some (.ok (listAt (bytes "old"))) := by
  obtain ⟨content, hcontent, hread⟩ := manifestList_stored memoryAvro (listAt (bytes "old"))
  have hfile : oldDisk (bytes "list.avro") =
      some (containerFile (writeManifestList memoryAvro (listAt (bytes "old")))) :=
    (if_neg (by decide)).trans (if_pos rfl)
  rw [Disk.directory]
  dsimp only
  rw [hfile, hcontent]
  exact congrArg some hread

lemma oldDisk_manifest : oldDisk.directory.manifest (bytes "m0.avro") = some (.ok (manifestAt (bytes "old"))) := by
  obtain ⟨content, hcontent, hread⟩ := storable_old.manifests _ (List.mem_singleton_self _)
  have hfile : oldDisk (bytes "m0.avro") =
      some (containerFile (writeManifestEntries memoryAvro (manifestAt (bytes "old")) [])) :=
    (if_neg (by decide)).trans ((if_neg (by decide)).trans (if_pos rfl))
  have hcontainer : containerFile (writeManifestEntries memoryAvro (manifestAt (bytes "old")) []) =
      (.container content : MetadataDirFile memoryEnvironment.avro) := congrArg containerFile hcontent
  rw [Disk.directory]
  dsimp only
  rw [hfile, hcontainer]
  exact congrArg some hread

lemma loadAll_oldDisk : loadAll oldDisk (bytes "v1.json") = .ok (treeAt (bytes "old"), []) := by
  have hmans : addManifests oldDisk.directory false (listAt (bytes "old")) ∅ =
      .ok (true, (treeAt (bytes "old")).manifests) := by
    rw [listAt, addManifests, if_neg (by decide), show filename _ = bytes "m0.avro" from rfl, oldDisk_manifest]
    rfl
  have hlist : addSnapshot oldDisk.directory false { firstSnapshot with manifestListLocation := bytes "old/list.avro" }
      { metadataFile := metadataAtLocation (bytes "old") } = .ok (true, treeAt (bytes "old")) := by
    unfold addSnapshot
    dsimp only
    rw [show filename (bytes "old/list.avro") = bytes "list.avro" from rfl, oldDisk_list]
    simp only [ok_bind]
    rw [if_neg (by decide), hmans]
    rfl
  have hload : load oldDisk false (bytes "v1.json") = .ok (treeAt (bytes "old")) := by
    rw [load, oldDisk_metadata, ok_bind, make]
    have hsnaps : (metadataAtLocation (bytes "old")).snapshots =
        [{ firstSnapshot with manifestListLocation := bytes "old/list.avro" }] := rfl
    rw [hsnaps, addSnapshots, hlist]
    rfl
  rw [loadAll, hload]
  rfl

end IcebergCxx.Proofs

import IcebergCxx.Manifest
import IcebergCxx.ManifestList
import IcebergCxx.Lib.TextSearch

/-!
# Metadata trees

`metadata_tree.cpp`: the metadata of a table with the manifest lists and the manifests of its snapshots, which are
loaded by file name from the directory of the metadata file, cut down to one snapshot and moved to another location.
-/

namespace IcebergCxx

open Lib

/-! ### Cutting down to one snapshot -/

/-- The first entry of the snapshot replaces the snapshot log. -/
def keepSnapshotLog (snapshotId : Int64) (snapshotLog : List SnapshotLog) : List SnapshotLog :=
  match snapshotLog.find? (fun log => log.snapshotId = snapshotId) with
  | some log => [log]
  | none => snapshotLog

/-- The refs of the snapshot, and the branch `main` if there is no such ref and it is switched. -/
def keepRefs (snapshotId : Int64) (switchMain : Bool) (refs : OrdMap Bytes SnapshotRef) : OrdMap Bytes SnapshotRef :=
  let kept := refs.filter (fun _ ref => ref.snapshotId = snapshotId)
  if switchMain then kept.emplace (bytes "main") ⟨snapshotId, bytes "branch", none, none, none⟩ else kept

/-- `MetadataFile::RemoveOtherSnapshots`; the metadata stays as far as it was changed when an exception is thrown. -/
def removeOtherSnapshots (snapshotId : Int64) (switchMain : Bool) : EStateM String TableMetadataV2 Unit := do
  let metadata ← get
  match metadata.snapshots.find? (fun snap => snap.snapshotId = snapshotId) with
  | none => throw ("no snapshot " ++ toString snapshotId.toInt)
  | some snapshot =>
    match snapshot.schemaId with
    | none => throw ("snapshot " ++ toString snapshotId.toInt ++ " has no schema_id")
    | some schemaId =>
      let currentSchemaId := schemaId.toInt32
      set { metadata with
        currentSnapshotId := some snapshotId
        snapshots := [snapshot]
        currentSchemaId := currentSchemaId }
      match metadata.schemas.find? (fun schema => schema.schemaId = currentSchemaId.toInt) with
      | none =>
        throw ("no schema " ++ toString currentSchemaId.toInt ++ " needed for shapshot " ++ toString snapshotId.toInt)
      | some schema =>
        modify (fun metadata => { metadata with
          schemas := [schema]
          snapshotLog := keepSnapshotLog snapshotId metadata.snapshotLog
          refs := keepRefs snapshotId switchMain metadata.refs })

/-! ### Loading -/

/-- The directory of the metadata file: what is read of the manifest lists and the manifests in it, by file name. -/
structure Directory where
  manifestList : Bytes → Option (Except String (List ManifestFile))
  manifest : Bytes → Option (Except String Manifest)

/-- `MetadataTree`. -/
structure MetadataTree where
  metadataFile : TableMetadataV2
  manifestsLists : OrdMap Bytes (List ManifestFile) := ∅
  manifests : OrdMap Bytes Manifest := ∅

/-- `path::filename`. -/
def filename (path : Bytes) : Bytes := (path.reverse.takeWhile (fun c => c ≠ 47)).reverse

namespace MetadataTree

/-- The loop of `AddSnapshot` over the manifests of a list that is new. -/
def addManifests (dir : Directory) (ignoreMissingSnapshots : Bool) :
    List ManifestFile → OrdMap Bytes Manifest → Except String (Bool × OrdMap Bytes Manifest)
  | [], manifests => .ok (true, manifests)
  | manFile :: list, manifests =>
    let name := filename manFile.path
    if manifests.contains name then addManifests dir ignoreMissingSnapshots list manifests
    else
      match dir.manifest name with
      | none =>
        if ignoreMissingSnapshots then .ok (false, manifests)
        else .error ("No manifest file '" ++ text name ++ "'")
      | some content => do
        let man ← content
        addManifests dir ignoreMissingSnapshots list (manifests.emplace name man)

/-- `AddSnapshot`. -/
def addSnapshot (dir : Directory) (ignoreMissingSnapshots : Bool) (snap : Snapshot) (tree : MetadataTree) :
    Except String (Bool × MetadataTree) :=
  let name := filename snap.manifestListLocation
  match dir.manifestList name with
  | none =>
    if ignoreMissingSnapshots then .ok (false, tree) else .error ("No manifests list file '" ++ text name ++ "'")
  | some content => do
    let list ← content
    if tree.manifestsLists.contains name then return (true, tree)
    else do
      let (added, manifests) ← addManifests dir ignoreMissingSnapshots list tree.manifests
      return (added, { tree with manifestsLists := tree.manifestsLists.emplace name list, manifests := manifests })

/-- The loop of the constructor: the snapshots that are kept, and the tree. -/
def addSnapshots (dir : Directory) (ignoreMissingSnapshots : Bool) :
    List Snapshot → MetadataTree → Except String (List Snapshot × MetadataTree)
  | [], tree => .ok ([], tree)
  | snap :: snapshots, tree => do
    let (added, tree) ← addSnapshot dir ignoreMissingSnapshots snap tree
    let (actualSnaps, tree) ← addSnapshots dir ignoreMissingSnapshots snapshots tree
    return (if added then snap :: actualSnaps else actualSnaps, tree)

/-- The constructor, on the metadata that `ReadMetadataFile` has read. -/
def make (dir : Directory) (metadata : TableMetadataV2) (ignoreMissingSnapshots : Bool) : Except String MetadataTree := do
  let (actualSnaps, tree) ← addSnapshots dir ignoreMissingSnapshots metadata.snapshots { metadataFile := metadata }
  return { tree with metadataFile := { metadata with snapshots := actualSnaps } }

end MetadataTree

/-! ### Moving -/

/-- `StringFix`. -/
structure StringFix where
  fromText : Bytes
  toText : Bytes

/-- `ReplacePattern`: the string afterwards, if the pattern stands in it. -/
def replacePattern (fix : StringFix) (str : Bytes) : Option Bytes :=
  (find fix.fromText str).map (fun pos => str.take pos ++ fix.toText ++ str.drop (pos + fix.fromText.length))

/-- What `FixString` makes of a string. -/
def fixString (fix : StringFix) (str : Bytes) : Bytes := (replacePattern fix str).getD str

/-- What `FixString` records of it. -/
def recordRename (fix : StringFix) (renames : OrdMap Bytes Bytes) (str : Bytes) : OrdMap Bytes Bytes :=
  match replacePattern fix str with
  | some fixed => renames.insert str fixed
  | none => renames

/-- The three maps that `FixLocation` fills. -/
structure Renames where
  renamesData : OrdMap Bytes Bytes := ∅
  renamesMeta : OrdMap Bytes Bytes := ∅
  renameLocations : OrdMap Bytes Bytes := ∅

namespace MetadataTree

/-- The paths of the metadata files of a tree, in the order in which they are fixed. -/
def metaPaths (tree : MetadataTree) : List Bytes :=
  tree.metadataFile.snapshots.map Snapshot.manifestListLocation ++
    tree.metadataFile.metadataLog.map MetadataLog.metadataFile ++
    tree.manifestsLists.values.flatten.map ManifestFile.path

/-- The paths of the data and delete files of a tree. -/
def dataPaths (tree : MetadataTree) : List Bytes :=
  (tree.manifests.values.flatMap Manifest.entries).map (fun entry => entry.dataFile.filePath)

def fixEntry (fix : StringFix) (entry : ManifestEntry) : ManifestEntry :=
  { entry with dataFile := { entry.dataFile with filePath := fixString fix entry.dataFile.filePath } }

/-- `FixLocation`. The order of the two hash tables does not matter. -/
def fixLocation (fix : StringFix) (tree : MetadataTree) (renames : Renames) : MetadataTree × Renames :=
  let metadata := tree.metadataFile
  ({ metadataFile :=
      { metadata with
        location := fixString fix metadata.location
        snapshots := metadata.snapshots.map (fun snap =>
          { snap with manifestListLocation := fixString fix snap.manifestListLocation })
        metadataLog := metadata.metadataLog.map (fun log => { log with metadataFile := fixString fix log.metadataFile }) }
     manifestsLists := tree.manifestsLists.map (fun list =>
        list.map (fun man => { man with path := fixString fix man.path }))
     manifests := tree.manifests.map (fun man => { man with entries := man.entries.map (fixEntry fix) }) },
   { renameLocations := recordRename fix renames.renameLocations metadata.location
     renamesMeta := tree.metaPaths.foldl (recordRename fix) renames.renamesMeta
     renamesData := tree.dataPaths.foldl (recordRename fix) renames.renamesData })

/-- The relocation of all trees in `fix_location.cpp`, which share the maps. -/
def fixLocations (fix : StringFix) : List MetadataTree → Renames → List MetadataTree × Renames
  | [], renames => ([], renames)
  | tree :: trees, renames =>
    let (tree, renames) := tree.fixLocation fix renames
    let (trees, renames) := fixLocations fix trees renames
    (tree :: trees, renames)

end MetadataTree

end IcebergCxx

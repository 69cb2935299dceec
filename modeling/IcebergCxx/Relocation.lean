import IcebergCxx.MetadataTree
import IcebergCxx.TableMetadata

/-!
# Relocating tables

`fix_location.cpp`: a metadata file is loaded from its directory with the earlier ones in its log, the trees are moved to
another location, and their files are written to another directory. Files of a directory can be opened.
-/

namespace IcebergCxx

open Lib

/-- The libraries that read and write metadata files, and what is thrown on a file that is not an Avro file. -/
structure MetadataEnvironment where
  avro : AvroLibrary
  json : JsonLibrary
  getInt : Option Json → Except String Int
  magicError : String

/-- A file in a metadata directory. -/
inductive MetadataDirFile (avro : AvroLibrary)
  | plain (content : Bytes)
  | container (content : avro.File)

/-- The files of a directory by name. -/
abbrev Disk (env : MetadataEnvironment) := Bytes → Option (MetadataDirFile env.avro)

namespace MetadataDirFile

/-- `ReadTableMetadataV2` on a file; an Avro file is no JSON text. -/
def readMetadata (env : MetadataEnvironment) : MetadataDirFile env.avro → Except String (Option TableMetadataV2)
  | .plain content => readTableMetadataV2 env.json content
  | .container _ => .ok none

/-- `ReadManifestList` on a file. -/
def readList (env : MetadataEnvironment) : MetadataDirFile env.avro → Except String (List ManifestFile)
  | .plain _ => .error env.magicError
  | .container content => readManifestList env.avro content

/-- `ReadManifestEntries` on a file, without a partition spec. -/
def readEntries (env : MetadataEnvironment) : MetadataDirFile env.avro → Except String Manifest
  | .plain _ => .error env.magicError
  | .container content => readManifestEntries env.avro env.json env.getInt content [] {} true

end MetadataDirFile

namespace Disk

variable {env : MetadataEnvironment}

/-- What is read of the files as manifest lists and manifests. -/
def directory (disk : Disk env) : Directory where
  manifestList name := (disk name).map (MetadataDirFile.readList env)
  manifest name := (disk name).map (MetadataDirFile.readEntries env)

def write (disk : Disk env) (name : Bytes) (file : MetadataDirFile env.avro) : Disk env :=
  fun other => if other = name then some file else disk other

end Disk

/-- `StringFix::NeedFix`. -/
def StringFix.needFix (fix : StringFix) : Bool := fix.fromText ≠ fix.toText

namespace MetadataTree

variable {env : MetadataEnvironment}

/-- `ReadMetadataFile`. -/
def readMetadataFile (disk : Disk env) (name : Bytes) : Except String TableMetadataV2 :=
  match disk name with
  | none => .error ("No metadata file '" ++ text name ++ "'")
  | some file => do
    let metadata ← file.readMetadata env
    metadata.elim (.error ("Cannot read metadata file '" ++ text name ++ "'")) .ok

/-- The constructor, on the file with this name. -/
def load (disk : Disk env) (ignoreMissingSnapshots : Bool) (name : Bytes) : Except String MetadataTree := do
  let metadata ← readMetadataFile disk name
  make disk.directory metadata ignoreMissingSnapshots

/-- `MetadataLog`: the first file of each timestamp. -/
def logByTimestamp (tree : MetadataTree) : OrdMap Int Bytes :=
  tree.metadataFile.metadataLog.foldl (fun out log => out.emplace log.timestampMs.toInt log.metadataFile) ∅

/-- The loop of `LoadTree` over the paths in the log, with the names of the files. -/
def loadPrevious (disk : Disk env) (ignoreMissingSnapshots : Bool) :
    List Bytes → Except String (List (Bytes × MetadataTree))
  | [] => .ok []
  | path :: paths =>
    match load disk false (filename path) with
    | .ok oldMeta => do
      let prevMeta ← loadPrevious disk ignoreMissingSnapshots paths
      return (filename path, oldMeta) :: prevMeta
    | .error ex =>
      if ignoreMissingSnapshots then loadPrevious disk ignoreMissingSnapshots paths
      else .error ("Error while processing '" ++ text (filename path) ++ "': " ++ ex)

/-- The tree of the metadata file and, by `LoadTree`, those of the files in its log. -/
def loadAll (disk : Disk env) (name : Bytes) : Except String (MetadataTree × List (Bytes × MetadataTree)) := do
  let metaTree ← load disk false name
  let prevMeta ← loadPrevious disk false metaTree.logByTimestamp.values
  return (metaTree, prevMeta)

/-- `WriteFiles`. The order of the two hash tables does not matter. -/
def writeFiles (name : Bytes) (tree : MetadataTree) (out : Disk env) : Except String (Disk env) := do
  let serialized ← writeTableMetadataV2 env.json tree.metadataFile
  let out ← tree.manifestsLists.entries.foldlM (fun (out : Disk env) list => do
    let content ← writeManifestList env.avro list.2
    return out.write (filename list.1) (.container content)) (out.write name (.plain serialized))
  tree.manifests.entries.foldlM (fun (out : Disk env) man => do
    let content ← writeManifestEntries env.avro man.2 []
    return out.write (filename man.1) (.container content)) out

/-- The trees after `FixLocation`, if it is called. -/
def fixTrees (fix : StringFix) (trees : List MetadataTree) : List MetadataTree :=
  if fix.needFix then (fixLocations fix trees {}).1 else trees

/-- `main` of `fix_location.cpp`: the directory `outdir` afterwards. -/
def relocate (disk : Disk env) (name : Bytes) (fix : StringFix) (outdir : Disk env) : Except String (Disk env) := do
  let (metaTree, prevMeta) ← loadAll disk name
  let fixed := fixTrees fix (prevMeta.map Prod.snd ++ [metaTree])
  ((prevMeta.map Prod.fst ++ [name]).zip fixed).foldlM (fun out tree => writeFiles tree.1 tree.2 out) outdir

end MetadataTree

end IcebergCxx

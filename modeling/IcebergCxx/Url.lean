import IcebergCxx.Basic
import IcebergCxx.Lib.TextSearch

/-!
# URLs

Metadata files, manifest lists and manifests are opened by `OpenFile` of `tea_scan.cpp`, which
splits the URL and puts its location and path together. Data and delete files are opened by the
function that `MakeFileReaderProvider` makes, which takes all that follows the schema. The file
system is chosen by the schema that `SplitUrl` of `url.cpp` finds.
-/

namespace IcebergCxx

open Lib

/-- `UrlComponents` of `tea_scan.cpp`. -/
structure UrlComponents where
  schema : Bytes
  location : Bytes
  path : Bytes
  deriving DecidableEq

def schemaDelimiter : Bytes := bytes "://"

/-- `SplitUrl` of `tea_scan.cpp`. -/
def splitUrl (url : Bytes) : UrlComponents :=
  let delimiterPos := find schemaDelimiter url
  let schema := (delimiterPos.map (fun pos => url.take pos)).getD []
  let locationPos := (delimiterPos.map (fun pos => pos + schemaDelimiter.length)).getD 0
  match findFirstOf (bytes "/?#") url locationPos with
  | none => { schema := schema, location := url.drop locationPos, path := [] }
  | some nonLocationPos =>
    let location := (url.drop locationPos).take (nonLocationPos - locationPos)
    if url[nonLocationPos]? = some 47 then
      let nonPathPos := findFirstOf (bytes "?#") url (nonLocationPos + 1)
      let path := before (nonPathPos.map (fun pos => pos - nonLocationPos)) (url.drop nonLocationPos)
      { schema := schema, location := location, path := path }
    else { schema := schema, location := location, path := [] }

def isKnownPrefix (schema : Bytes) : Bool := schema = bytes "s3a" || schema = bytes "s3" || schema = bytes "file"

def urlToPath (url : Bytes) : Bytes :=
  let components := splitUrl url
  if isKnownPrefix components.schema then components.location ++ components.path else []

/-- The path that `OpenFile` opens. -/
def openFilePath (url : Bytes) : Except String Bytes :=
  let path := urlToPath url
  if path.isEmpty then .error ("bad url: " ++ text url) else .ok path

namespace Fs

/-- `UrlComponents` of `url.h`. -/
structure UrlComponents where
  schema : Bytes := []
  location : Bytes := []
  path : Bytes := []
  params : List (Bytes × Bytes) := []
  deriving DecidableEq

def parseParam (param : Bytes) : Bytes × Bytes :=
  match findFirst [61] param with
  | some pos => (param.take pos, param.drop (pos + 1))
  | none => (param, [])

/-- The loop over the parameters. Every round takes at least one byte, so the length of the text is
enough fuel. At a question mark only the first byte is taken. -/
def parseParams : Nat → Bytes → List (Bytes × Bytes)
  | 0, _ => []
  | fuel + 1, url =>
    if url.isEmpty || url.head? = some 35 then []
    else
      match findFirst (bytes "?&#") url with
      | none => [parseParam url]
      | some pos =>
        if url[pos]? = some 63 then parseParams fuel (url.drop 1)
        else if url[pos]? = some 38 then parseParam (url.take pos) :: parseParams fuel (url.drop (pos + 1))
        else parseParam (url.take pos) :: parseParams fuel (url.drop pos)

/-- `SplitUrl` of `url.cpp`. -/
def splitUrl (url : Bytes) : UrlComponents :=
  let delimiterPos := find schemaDelimiter url
  let schema := (delimiterPos.map (fun pos => url.take pos)).getD []
  let url := url.drop ((delimiterPos.map (fun pos => pos + schemaDelimiter.length)).getD 0)
  match findFirst (bytes "/?#") url with
  | none => { schema := schema, location := url }
  | some pos =>
    let location := url.take pos
    let url := url.drop pos
    match findFirst (bytes "?#") url with
    | none => { schema := schema, location := location, path := url }
    | some pos =>
      { schema := schema
        location := location
        path := url.take pos
        params := parseParams (url.drop pos).length (url.drop pos) }

end Fs

/-- `FileSystemProvider::GetFileSystem`, with the schemas it has a getter for. -/
def getFileSystem (schemas : List Bytes) (url : Bytes) : Except String Bytes :=
  let schema := (Fs.splitUrl url).schema
  if schema ∈ schemas then .ok schema
  else .error ("FileSystemProvider: unexpected filesystem schema " ++ text schema ++ " for url " ++ text url)

/-- The path that the opener of `MakeFileReaderProvider` opens. -/
def openerPath (schemas : List Bytes) (url : Bytes) : Except String Bytes := do
  let _ ← getFileSystem schemas url
  match find schemaDelimiter url with
  | none => .error ("FileReaderProvider: file " ++ text url ++ " does not contain schema")
  | some pos => return url.drop (pos + 3)

end IcebergCxx

import IcebergCxx.JsonSerde
import IcebergCxx.Lib.Packing

/-!
# Puffin files

`puffin.h` and `puffin.cpp`: a file is `Magic Blob* Magic FooterPayload FooterPayloadSize Flags
Magic`. The footer payload is a JSON document that lists the blobs; it is found from the end of
the file, either in memory (`makeFooter`) or through a random access file (`readFooter`). The
JSON implementation is a parameter.
-/

namespace IcebergCxx

open Lib

/-- A `std::string`: its length does not exceed `max_size()`. -/
structure StdString where
  bytes : Bytes
  length_lt : bytes.length < 2 ^ 63

/-- The conversion to `size_t`. -/
def toSizeT (x : Int) : Nat := (x % 2 ^ 64).toNat

/-- `std::string_view::substr`. -/
def substr (s : Bytes) (pos count : Nat) : Except String Bytes :=
  if s.length < pos then .error "basic_string_view::substr: pos is greater than size"
  else .ok ((s.drop pos).take count)

namespace Puffin

def kPuffinMagicBytes : Bytes := [0x50, 0x46, 0x41, 0x31]

/-! ### The footer payload -/

structure BlobMetadata where
  type : Bytes
  fields : List Int32
  snapshotId : Int64
  sequenceNumber : Int64
  offset : Int64
  length : Int64
  compressionCodec : Option Bytes
  properties : OrdMap Bytes Bytes
  deriving DecidableEq

structure DeserializedFooter where
  blobs : List BlobMetadata
  properties : OrdMap Bytes Bytes
  deriving DecidableEq

namespace Field

def kType : Bytes := bytes "type"
def kFields : Bytes := bytes "fields"
def kSnapshotId : Bytes := bytes "snapshot-id"
def kSequenceNumber : Bytes := bytes "sequence-number"
def kOffset : Bytes := bytes "offset"
def kLength : Bytes := bytes "length"
def kCompressionCodec : Bytes := bytes "compression-codec"
def kProperties : Bytes := bytes "properties"
def kBlobs : Bytes := bytes "blobs"

end Field

def serializeProperties (props : OrdMap Bytes Bytes) : Json :=
  .object (props.entries.map (fun p => (cString p.1, serializeString p.2)))

def blobMembers (blob : BlobMetadata) : List (Bytes × Json) :=
  [(Field.kFields, .array (blob.fields.map (fun f => .int f.toInt))),
    (Field.kType, serializeString blob.type),
    (Field.kCompressionCodec, serializeOptional serializeString blob.compressionCodec),
    (Field.kLength, .int blob.length.toInt),
    (Field.kOffset, .int blob.offset.toInt),
    (Field.kProperties, serializeProperties blob.properties),
    (Field.kSequenceNumber, .int blob.sequenceNumber.toInt),
    (Field.kSnapshotId, .int blob.snapshotId.toInt)]

def serializeBlob (blob : BlobMetadata) : Json := .object (blobMembers blob)

def footerMembers (footer : DeserializedFooter) : List (Bytes × Json) :=
  [(Field.kBlobs, .array (footer.blobs.map serializeBlob)),
    (Field.kProperties, serializeProperties footer.properties)]

def serializeFooter (footer : DeserializedFooter) : Json := .object (footerMembers footer)

/-- Keeps the first value of a name, as `std::map::emplace` does; a member that is not a string
is passed over. -/
def emplaceMember (result : OrdMap Bytes Bytes) (member : Bytes × Json) : OrdMap Bytes Bytes :=
  match member.2 with
  | .string value => result.emplace (cString member.1) (cString value)
  | _ => result

def deserializeProperties : Json → Except String (OrdMap Bytes Bytes)
  | .object members => .ok (members.foldl emplaceMember ∅)
  | _ => .error "Deserialize<std::map<std::string, std::string>>"

/-- `Extract` of an optional: the member may be missing. -/
def extractOptional (members : List (Bytes × Json)) (fieldName : Bytes) : Except String (Option Bytes) :=
  match Json.findMember fieldName members with
  | some value => deserializeOptional deserializeString value
  | none => .ok none

def deserializeBlob : Json → Except String BlobMetadata
  | .object m => do
    let type ← extract deserializeString m Field.kType
    let fields ← extract (deserializeVector deserializeInt32) m Field.kFields
    let snapshotId ← extract deserializeInt64 m Field.kSnapshotId
    let sequenceNumber ← extract deserializeInt64 m Field.kSequenceNumber
    let offset ← extract deserializeInt64 m Field.kOffset
    let length ← extract deserializeInt64 m Field.kLength
    let compressionCodec ← extractOptional m Field.kCompressionCodec
    let properties ← extract deserializeProperties m Field.kProperties
    return {
      type := type
      fields := fields
      snapshotId := snapshotId
      sequenceNumber := sequenceNumber
      offset := offset
      length := length
      compressionCodec := compressionCodec
      properties := properties }
  | _ => .error "Deserialize<PuffinFile::Footer::BlobMetadata>"

def deserializeFooter : Json → Except String DeserializedFooter
  | .object m => do
    let blobs ← extract (deserializeVector deserializeBlob) m Field.kBlobs
    let properties ← extract deserializeProperties m Field.kProperties
    return { blobs := blobs, properties := properties }
  | _ => .error "Deserialize<PuffinFile::Footer::DeserializedFooter>"

/-- `CreateFooter`: the text up to its first zero byte. -/
def createFooter (lib : JsonLibrary) (footer : DeserializedFooter) : Bytes :=
  cString (lib.print (serializeFooter footer))

/-! ### Finding the footer -/

/-- Parses the trailer `[footer_payload_size(4)] [flags(4)] [magic(4)]` into the payload size. -/
def parseTrailerView (trailer : Bytes) : Except String Int :=
  if trailer.length < 12 then .error "Failed to read Puffin trailer"
  else if (trailer.drop 8).take 4 ≠ kPuffinMagicBytes then
    .error ("PuffinFile is incorrect: magic bytes after footer are incorrect (found " ++
      text ((trailer.drop 8).take 4) ++ ")")
  else if ofLeBytes ((trailer.drop 4).take 4) % 2 = 1 then
    .error "Compressed puffin files are not supported yet"
  else .ok (wrapInt32 (ofLeBytes (trailer.take 4)))

/-- Verifies the leading magic and extracts the payload from `[magic(4)][payload(N)]`. -/
def extractPayload (payloadWithMagic : Bytes) : Except String Bytes :=
  if payloadWithMagic.length < 4 ∨ payloadWithMagic.take 4 ≠ kPuffinMagicBytes then
    .error "PuffinFile is incorrect: magic bytes before footer are incorrect"
  else .ok (payloadWithMagic.drop 4)

/-- `arrow::io::RandomAccessFile` over fixed contents: `ReadAt` fails on a negative offset or
length and returns the requested bytes when they exist. -/
structure RandomAccessFile (contents : StdString) where
  readAt : Int → Int → Except String Bytes
  readAt_negative : ∀ position nbytes, position < 0 ∨ nbytes < 0 → ∃ e, readAt position nbytes = .error e
  readAt_ok : ∀ position nbytes : Nat, position + nbytes ≤ contents.bytes.length →
    readAt position nbytes = .ok ((contents.bytes.drop position).take nbytes)

/-- `PuffinFile::ReadFooter`. The sums with the payload size are computed in `int`, the position
in `int64_t`. -/
def readFooter {contents : StdString} (file : RandomAccessFile contents) : Except String Bytes :=
  let fileSize : Int := contents.bytes.length
  if fileSize < 16 then
    .error ("PuffinFile is incorrect: file is too small (" ++ toString fileSize ++ ")")
  else do
    let trailer ← file.readAt (fileSize - 12) 12
    let footerPayloadSize ← parseTrailerView trailer
    if fileSize < wrapInt32 (16 + footerPayloadSize) then
      .error "PuffinFile is incorrect: file is too small"
    else do
      let payload ← file.readAt (wrapInt64 (fileSize - 16 - footerPayloadSize)) (wrapInt32 (4 + footerPayloadSize))
      extractPayload payload

/-- `PuffinFile::MakeFooter`. The length check is computed in `size_t`, the position and the
count in `int` and then converted. -/
def makeFooter (data : StdString) : Except String Bytes :=
  let size : Int := data.bytes.length
  if size < 16 then
    .error ("PuffinFile is incorrect: file is too small (" ++ toString size ++ ")")
  else do
    let trailer ← substr data.bytes (toSizeT (size - 12)) data.bytes.length
    let footerPayloadSize ← parseTrailerView trailer
    if size < toSizeT (16 + toSizeT footerPayloadSize) then
      .error ("PuffinFile is incorrect: file is too small (" ++ toString size ++
        ", but footer payload size is " ++ toString footerPayloadSize ++ ")")
    else do
      let payload ← substr data.bytes (toSizeT (size - wrapInt32 (16 + footerPayloadSize)))
        (toSizeT (wrapInt32 (4 + footerPayloadSize)))
      extractPayload payload

/-! ### Files -/

structure PuffinFile where
  data : StdString
  footer : Bytes

/-- `PuffinFile::Make`. -/
def make (data : StdString) : Except String PuffinFile :=
  if data.bytes.length < 4 then
    .error ("PuffinFile is incorrect: file is too small (" ++ toString data.bytes.length ++ ")")
  else if data.bytes.take 4 ≠ kPuffinMagicBytes then
    .error ("PuffinFile is incorrect: magic bytes are incorrect (expected " ++ text kPuffinMagicBytes ++
      ", found " ++ text (data.bytes.take 4) ++ ")")
  else do
    let footer ← makeFooter data
    return { data := data, footer := footer }

/-- `Footer::GetDeserializedFooter`: a payload that is not JSON leaves the null document. -/
def getDeserializedFooter (lib : JsonLibrary) (payload : Bytes) : Except String DeserializedFooter :=
  deserializeFooter ((lib.parse payload).getD .null)

/-- `Footer::GetBlobMetadata`. -/
def getBlobMetadata (lib : JsonLibrary) (payload : Bytes) (blobNumber : Nat) : Except String BlobMetadata := do
  let footer ← getDeserializedFooter lib payload
  match footer.blobs[blobNumber]? with
  | some blob => .ok blob
  | none => .error ("GetBlobMetadata: requested blob number (" ++ toString blobNumber ++
      ") does not exist (total blob count is " ++ toString footer.blobs.length ++ ")")

/-- `PuffinFile::GetBlob`. -/
def getBlob (lib : JsonLibrary) (file : PuffinFile) (blobNumber : Nat) : Except String Bytes := do
  let blobMeta ← getBlobMetadata lib file.footer blobNumber
  let offset := blobMeta.offset.toInt
  let length := blobMeta.length.toInt
  if 0 ≤ offset ∧ 0 ≤ length ∧ toSizeT (wrapInt64 (offset + length)) < file.data.bytes.length then
    substr file.data.bytes (toSizeT offset) (toSizeT length)
  else
    .error ("GetBlob: unexpected blob request (offset = " ++ toString offset ++ ", length = " ++
      toString length ++ ") for file with size " ++ toString file.data.bytes.length)

/-! ### Building -/

structure Blob where
  data : Bytes
  properties : OrdMap Bytes Bytes
  fields : List Int32
  blobType : Bytes
  deriving DecidableEq

structure PuffinFileBuilder where
  blobs : List Blob
  sequenceNumber : Option Int64
  snapshotId : Option Int64

namespace PuffinFileBuilder

def new : PuffinFileBuilder :=
  { blobs := []
    sequenceNumber := none
    snapshotId := none }

def setSequenceNumber (builder : PuffinFileBuilder) (sequenceNumber : Int64) : PuffinFileBuilder :=
  { builder with sequenceNumber := some sequenceNumber }

def setSnapshotId (builder : PuffinFileBuilder) (snapshotId : Int64) : PuffinFileBuilder :=
  { builder with snapshotId := some snapshotId }

def appendBlob (builder : PuffinFileBuilder) (blob : Blob) : PuffinFileBuilder :=
  { builder with blobs := builder.blobs ++ [blob] }

end PuffinFileBuilder

/-- The loop of `Build` over the blobs: the bytes written so far and the metadata so far. -/
def buildStep (sequenceNumber snapshotId : Int64) (state : Bytes × List BlobMetadata) (blob : Blob) :
    Bytes × List BlobMetadata :=
  let blobMeta : BlobMetadata :=
    { type := blob.blobType
      fields := blob.fields
      snapshotId := snapshotId
      sequenceNumber := sequenceNumber
      offset := Int64.ofNat state.1.length
      length := Int64.ofNat blob.data.length
      compressionCodec := none
      properties := blob.properties }
  (state.1 ++ blob.data, state.2 ++ [blobMeta])

/-- The footer that `Build` writes after the blobs. -/
def builtFooter (blobMeta : List BlobMetadata) : DeserializedFooter :=
  { blobs := blobMeta
    properties := (∅ : OrdMap Bytes Bytes).insert (bytes "created-by") (bytes "iceberg-cpp") }

/-- The bytes that `Build` passes to `PuffinFile::Make`. -/
def buildBytes (lib : JsonLibrary) (blobs : List Blob) (sequenceNumber snapshotId : Int64) : Bytes :=
  let state := blobs.foldl (buildStep sequenceNumber snapshotId) (kPuffinMagicBytes, [])
  let footer := createFooter lib (builtFooter state.2)
  let footerSize := wrapInt32 footer.length
  state.1 ++ kPuffinMagicBytes ++ footer ++ leBytes 4 (footerSize % 2 ^ 32).toNat ++ bytes "0000" ++
    kPuffinMagicBytes

/-- `PuffinFileBuilder::Build`. Appending past `max_size()` throws. -/
def build (lib : JsonLibrary) (builder : PuffinFileBuilder) : Except String PuffinFile := do
  ensure (!builder.blobs.isEmpty) "PuffinFileBuilder: building puffin file without blobs is not supported"
  ensure builder.sequenceNumber.isSome "PuffinFileBuilder: sequence_number is not set"
  ensure builder.snapshotId.isSome "PuffinFileBuilder: snapshot_id is not set"
  let result := buildBytes lib builder.blobs (builder.sequenceNumber.getD 0) (builder.snapshotId.getD 0)
  if h : result.length < 2 ^ 63 then make ⟨result, h⟩
  else .error "basic_string::append"

end Puffin

end IcebergCxx

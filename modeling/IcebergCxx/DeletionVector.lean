import IcebergCxx.Puffin
import IcebergCxx.Lib.StringStream

/-!
# Deletion vectors

`deletion_vector.h` and `deletion_vector.cpp`: a set of row positions and the blob it is stored in,
`Length Magic Bitmap Checksum`. The length counts the magic and the bitmap, and it and the checksum
are big-endian. The bitmap library and `crc32` are parameters.
-/

namespace IcebergCxx

open Lib

/-- `roaring::Roaring64Map` with its portable format. What is written is read back, and each run
of `2 ^ 32` positions that is not empty takes bytes of its own. -/
structure RoaringLibrary where
  Bitmap : Type
  elems : Bitmap → Finset UInt64
  write : Bitmap → Bytes
  readSafe : Bytes → Except String Bitmap
  shrinkToFit : Bitmap → Bitmap
  elems_shrinkToFit : ∀ b, elems (shrinkToFit b) = elems b
  readSafe_write : ∀ b, ∃ b', readSafe (write b) = .ok b' ∧ elems b' = elems b
  card_le : ∀ data b, readSafe data = .ok b → (elems b).card ≤ 2 ^ 32 * data.length

namespace RoaringLibrary

variable (roaring : RoaringLibrary)

def getSizeInBytes (b : roaring.Bitmap) : Nat := (roaring.write b).length

/-- How many elements are at most `x`. -/
def rank (b : roaring.Bitmap) (x : UInt64) : UInt64 :=
  UInt64.ofNat ((roaring.elems b).filter (· ≤ x)).card

def contains (b : roaring.Bitmap) (x : UInt64) : Bool := decide (x ∈ roaring.elems b)

end RoaringLibrary

structure DeletionVector (roaring : RoaringLibrary) where
  properties : OrdMap Bytes Bytes
  fields : List Int32
  bitmap : roaring.Bitmap

namespace DeletionVector

def kCardinality : Bytes := bytes "cardinality"
def kReferencedDataFile : Bytes := bytes "referenced-data-file"
def kCompressionCodec : Bytes := bytes "compression-codec"

def kMagicSequence : Bytes := [0xd1, 0xd3, 0x39, 0x64]
def kBlobType : Bytes := bytes "deletion-vector-v1"
def kMagicSequenceOffset : Nat := 4
def kDataOffset : Nat := 8

/-! ### Validation of a blob -/

/-- `UItoLittleEndianBytes`: the name notwithstanding, the most significant byte comes first. -/
def uiToLittleEndianBytes (value : Nat) : Bytes := (leBytes 4 value).reverse

/-- The value of four bytes, most significant first. -/
def ofReversedBytes (str : Bytes) : Nat := ofLeBytes str.reverse

def getLen (data : Bytes) : Except String Nat := do
  let len := ofReversedBytes (data.take 4)
  ensure (len + 8 = data.length) ("deletion vector blob's length doesn't match expected: expected " ++
    toString (len + 8) ++ ", but actual is " ++ toString data.length)
  return len

def validateMagicSequence (data : Bytes) : Except String Unit :=
  ensure ((data.drop kMagicSequenceOffset).take 4 = kMagicSequence)
    ("blob data contains wrong magic sequence: expected " ++ text kMagicSequence ++ ", but actual is " ++
      text ((data.drop kMagicSequenceOffset).take 4))

def getCheckSum (data : Bytes) : Nat := ofReversedBytes ((data.drop (data.length - 4)).take 4)

variable {roaring : RoaringLibrary}

/-- `Cardinality(l, r)`. -/
def cardinality (dv : DeletionVector roaring) (l r : UInt64) : UInt64 :=
  roaring.rank dv.bitmap r - roaring.rank dv.bitmap l + (if roaring.contains dv.bitmap l then 1 else 0)

/-- `std::vector<uint64_t>::max_size`. -/
def maxVectorSize : Nat := 2 ^ 60 - 1

/-- `GetElems`. The iterator goes through the elements in ascending order, and `move` passes over those
below `l`. The vector throws when it would grow beyond its `max_size`, whatever was reserved. -/
def getElems (dv : DeletionVector roaring) (l r : UInt64) : Except String (List Nat) := do
  ensure ((dv.cardinality l r).toNat ≤ maxVectorSize) "vector::reserve"
  let res := ((((roaring.elems dv.bitmap).image UInt64.toNat).sort).dropWhile (fun x => x < l.toNat)).takeWhile
    (fun x => x ≤ r.toNat)
  ensure (res.length ≤ maxVectorSize) "vector::_M_realloc_insert"
  return res

/-- The constructor that takes a bitmap. -/
def ofBitmap (blobMetadata : Puffin.BlobMetadata) (bitmap : roaring.Bitmap) : DeletionVector roaring :=
  { properties := blobMetadata.properties
    fields := blobMetadata.fields
    bitmap := bitmap }

/-- The constructor that reads a blob. -/
def ofBlob (roaring : RoaringLibrary) (crc32 : Bytes → UInt32) (blobMetadata : Puffin.BlobMetadata) (blob : Bytes) :
    Except String (DeletionVector roaring) := do
  ensure (blobMetadata.type = kBlobType)
    ("Invalid blob type: expected " ++ text kBlobType ++ ", found " ++ text blobMetadata.type)
  ensure (blobMetadata.properties.contains kReferencedDataFile) (text kReferencedDataFile ++ " not found")
  ensure (!blobMetadata.properties.contains kCompressionCodec)
    "deletion vector blob must omit compession-codec in properties"
  ensure blobMetadata.compressionCodec.isNone "deletion vector blob must omit compression-codec in metadata"
  ensure (toSizeT blobMetadata.length.toInt = blob.length) ("deletion vector blob's length (" ++
    toString blobMetadata.length.toInt ++ ") doesn't match metadata length (" ++ toString blob.length ++ ")")
  ensure (12 ≤ blob.length) "deletion vector blob is too small"
  let len ← getLen blob
  validateMagicSequence blob
  let bitmap ← (roaring.readSafe ((blob.drop kDataOffset).take (len - 4))).mapError
    ("Failed to deserialize deletion vector: " ++ ·)
  let dv : DeletionVector roaring := ofBitmap blobMetadata bitmap
  let expected ← (blobMetadata.properties.find? kCardinality).elim
    (.error (text kCardinality ++ " not found")) Except.ok
  let value ← StringStream.stoull expected
  ensure (value = (dv.cardinality 0 (-1)).toNat) ("cardinality doesn't match: expected" ++ text expected ++
    ", actual is " ++ toString (dv.cardinality 0 (-1)).toNat)
  let realChecksum := (crc32 ((blob.drop kMagicSequenceOffset).take len)).toNat
  ensure (realChecksum = getCheckSum blob) ("crc32 checksum doesn't match: expected " ++
    toString (getCheckSum blob) ++ ", actual is " ++ toString realChecksum)
  return dv

/-! ### Writing a blob -/

/-- The bytes that `GetBlob` returns for a bitmap that fits. -/
def serialize (dv : DeletionVector roaring) (crc32 : Bytes → UInt32) : Bytes :=
  let len := 4 + roaring.getSizeInBytes dv.bitmap
  let res := uiToLittleEndianBytes len ++ kMagicSequence ++ roaring.write dv.bitmap
  res ++ uiToLittleEndianBytes (crc32 ((res.drop kMagicSequenceOffset).take len)).toNat

/-- The vector after the step of `GetBlob` that shrinks a bitmap that is too big. -/
def shrunk (dv : DeletionVector roaring) : DeletionVector roaring :=
  if 2 ^ 32 - 1 < 4 + roaring.getSizeInBytes dv.bitmap then { dv with bitmap := roaring.shrinkToFit dv.bitmap }
  else dv

/-- `GetBlob`. The bitmap is `mutable`, so the vector is returned too. -/
def getBlob (dv : DeletionVector roaring) (crc32 : Bytes → UInt32) :
    Except String (Bytes × DeletionVector roaring) := do
  let dv := dv.shrunk
  ensure (4 + roaring.getSizeInBytes dv.bitmap ≤ 2 ^ 32 - 1) "deletion vector is too big to be serialized"
  return (dv.serialize crc32, dv)

def getProperties (dv : DeletionVector roaring) : OrdMap Bytes Bytes :=
  dv.properties.insert kCardinality (toDecimal (dv.cardinality 0 (-1)).toNat)

def getFields (dv : DeletionVector roaring) : List Int32 := dv.fields

/-! ### Through a Puffin file -/

/-- The blob that is appended to a `PuffinFileBuilder`. -/
def toPuffinBlob (dv : DeletionVector roaring) (crc32 : Bytes → UInt32) : Except String Puffin.Blob := do
  let (data, dv) ← dv.getBlob crc32
  return {
    data := data
    properties := dv.getProperties
    fields := dv.getFields
    blobType := kBlobType }

/-- The vector stored as one of the blobs of a Puffin file. -/
def ofPuffinFile (roaring : RoaringLibrary) (crc32 : Bytes → UInt32) (lib : JsonLibrary) (data : StdString)
    (blobNumber : Nat) : Except String (DeletionVector roaring) := do
  let file ← Puffin.make data
  let blobMetadata ← Puffin.getBlobMetadata lib file.footer blobNumber
  let blob ← Puffin.getBlob lib file blobNumber
  ofBlob roaring crc32 blobMetadata blob

end DeletionVector

/-! ### Changing a vector -/

/-- The calls of `roaring::Roaring64Map` that change a bitmap or look at its ends. A range whose ends
are the wrong way round is empty. -/
structure RoaringOperations (roaring : RoaringLibrary) where
  addChecked : roaring.Bitmap → UInt64 → roaring.Bitmap × Bool
  removeChecked : roaring.Bitmap → UInt64 → roaring.Bitmap × Bool
  addMany : roaring.Bitmap → List UInt64 → roaring.Bitmap
  addRangeClosed : roaring.Bitmap → UInt64 → UInt64 → roaring.Bitmap
  removeRangeClosed : roaring.Bitmap → UInt64 → UInt64 → roaring.Bitmap
  clear : roaring.Bitmap → roaring.Bitmap
  isEmpty : roaring.Bitmap → Bool
  maximum : roaring.Bitmap → UInt64
  minimum : roaring.Bitmap → UInt64
  elems_addChecked : ∀ b x, roaring.elems (addChecked b x).1 = insert x (roaring.elems b)
  addChecked_new : ∀ b x, (addChecked b x).2 = true ↔ x ∉ roaring.elems b
  elems_removeChecked : ∀ b x, roaring.elems (removeChecked b x).1 = (roaring.elems b).erase x
  removeChecked_found : ∀ b x, (removeChecked b x).2 = true ↔ x ∈ roaring.elems b
  mem_addMany : ∀ b vals y, y ∈ roaring.elems (addMany b vals) ↔ y ∈ roaring.elems b ∨ y ∈ vals
  mem_addRangeClosed : ∀ b l r y, y ∈ roaring.elems (addRangeClosed b l r) ↔ y ∈ roaring.elems b ∨ l ≤ y ∧ y ≤ r
  mem_removeRangeClosed : ∀ b l r y,
    y ∈ roaring.elems (removeRangeClosed b l r) ↔ y ∈ roaring.elems b ∧ ¬(l ≤ y ∧ y ≤ r)
  elems_clear : ∀ b, roaring.elems (clear b) = ∅
  isEmpty_iff : ∀ b, isEmpty b = true ↔ roaring.elems b = ∅
  maximum_greatest : ∀ b, (roaring.elems b).Nonempty → IsGreatest ↑(roaring.elems b) (maximum b)
  minimum_least : ∀ b, (roaring.elems b).Nonempty → IsLeast ↑(roaring.elems b) (minimum b)

namespace DeletionVector

section

variable {roaring : RoaringLibrary} (operations : RoaringOperations roaring)

protected def add (dv : DeletionVector roaring) (x : UInt64) : DeletionVector roaring × Bool :=
  ({ dv with bitmap := (operations.addChecked dv.bitmap x).1 }, (operations.addChecked dv.bitmap x).2)

protected def remove (dv : DeletionVector roaring) (x : UInt64) : DeletionVector roaring × Bool :=
  ({ dv with bitmap := (operations.removeChecked dv.bitmap x).1 }, (operations.removeChecked dv.bitmap x).2)

protected def contains (dv : DeletionVector roaring) (x : UInt64) : Bool := roaring.contains dv.bitmap x

def addMany (dv : DeletionVector roaring) (vals : List UInt64) : DeletionVector roaring :=
  { dv with bitmap := operations.addMany dv.bitmap vals }

def addRange (dv : DeletionVector roaring) (l r : UInt64) : DeletionVector roaring :=
  { dv with bitmap := operations.addRangeClosed dv.bitmap l r }

def removeRange (dv : DeletionVector roaring) (l r : UInt64) : DeletionVector roaring :=
  { dv with bitmap := operations.removeRangeClosed dv.bitmap l r }

protected def clear (dv : DeletionVector roaring) : DeletionVector roaring :=
  { dv with bitmap := operations.clear dv.bitmap }

protected def empty (dv : DeletionVector roaring) : Bool := operations.isEmpty dv.bitmap

protected def max (dv : DeletionVector roaring) : Option UInt64 :=
  if dv.empty operations then none else some (operations.maximum dv.bitmap)

protected def min (dv : DeletionVector roaring) : Option UInt64 :=
  if dv.empty operations then none else some (operations.minimum dv.bitmap)

/-- The calls on a vector, without those that look at a range. -/
inductive Operation
  | add (x : UInt64)
  | remove (x : UInt64)
  | contains (x : UInt64)
  | addMany (vals : List UInt64)
  | addRange (l r : UInt64)
  | removeRange (l r : UInt64)
  | clear
  | empty
  | max
  | min
  | getBlob
  | getProperties

/-- What a call returns. -/
inductive Answer
  | done
  | flag (value : Bool)
  | position (value : Option UInt64)
  | blob (value : Except String Bytes)
  | properties (value : OrdMap Bytes Bytes)

/-- One call. `GetBlob` and `GetProperties` are `const`, but the bitmap and the properties are
`mutable`: the former leaves the bitmap shrunk even when it throws, the latter leaves the number of
positions in the properties. -/
protected def call (crc32 : Bytes → UInt32) (dv : DeletionVector roaring) : Operation → DeletionVector roaring × Answer
  | .add x => ((dv.add operations x).1, .flag (dv.add operations x).2)
  | .remove x => ((dv.remove operations x).1, .flag (dv.remove operations x).2)
  | .contains x => (dv, .flag (dv.contains x))
  | .addMany vals => (dv.addMany operations vals, .done)
  | .addRange l r => (dv.addRange operations l r, .done)
  | .removeRange l r => (dv.removeRange operations l r, .done)
  | .clear => (dv.clear operations, .done)
  | .empty => (dv, .flag (dv.empty operations))
  | .max => (dv, .position (dv.max operations))
  | .min => (dv, .position (dv.min operations))
  | .getBlob => (dv.shrunk, .blob ((dv.getBlob crc32).map Prod.fst))
  | .getProperties => ({ dv with properties := dv.getProperties }, .properties dv.getProperties)

/-- The vector after some calls, and what they have returned. -/
protected def run (crc32 : Bytes → UInt32) (dv : DeletionVector roaring) :
    List Operation → DeletionVector roaring × List Answer
  | [] => (dv, [])
  | operation :: rest =>
    let (dv, answer) := dv.call operations crc32 operation
    let (dv, answers) := DeletionVector.run crc32 dv rest
    (dv, answer :: answers)

end

end DeletionVector

/-- `FileReaderProvider::OpenDeletionVector`: the blob is looked up by its place in the file. -/
def FileReaderProvider.openDeletionVector (roaring : RoaringLibrary) (crc32 : Bytes → UInt32) (lib : JsonLibrary)
    (opener : Bytes → Except String (Σ contents : StdString, Puffin.RandomAccessFile contents)) (path : Bytes)
    (offset length : Int64) : Except String (DeletionVector roaring) := do
  let inputFile ← opener path
  let footer ← Puffin.readFooter inputFile.2
  let deserializedFooter ← Puffin.getDeserializedFooter lib footer
  match deserializedFooter.blobs.find? (fun blob => blob.offset = offset ∧ blob.length = length) with
  | none => .error ("Deletion vector blob not found at offset " ++ toString offset.toInt)
  | some blob =>
    let blobData ← inputFile.2.readAt offset.toInt length.toInt
    DeletionVector.ofBlob roaring crc32 blob blobData

end IcebergCxx

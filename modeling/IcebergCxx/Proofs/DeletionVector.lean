import IcebergCxx.DeletionVector
import IcebergCxx.Proofs.PuffinRoundTrip

/-!
# Deletion vectors in Puffin files

`ofBlob_ok_iff` says what the constructor accepts. A vector that was written is accepted again with
the same positions, unless its properties have become others on the way: the footer keeps a key up
to its first zero byte only.
-/

namespace IcebergCxx.Proofs

open Lib Puffin DeletionVector

/-! ### Properties after the cut -/

section Cut

lemma find?_foldl_emplace_cut (l : List (Bytes × Bytes)) (r : OrdMap Bytes Bytes) (k : Bytes) :
    (l.foldl (fun r p => r.emplace (cString p.1) (cString p.2)) r).find? k =
      (r.find? k).or ((l.find? (fun p => cString p.1 = k)).map (fun p => cString p.2)) := by
  induction l generalizing r with
  | nil => simp
  | cons p l ih =>
    rw [List.foldl_cons, ih, OrdMap.find?_emplace, List.find?_cons]
    by_cases hk : k = cString p.1
    · subst hk
      cases hr : r.find? (cString p.1) <;> simp
    · rw [if_neg hk, decide_eq_false (Ne.symm hk)]

variable {props : OrdMap Bytes Bytes} {k : Bytes}

lemma find?_cutProperties (props : OrdMap Bytes Bytes) (k : Bytes) :
    (cutProperties props).find? k = (props.entries.find? (fun p => cString p.1 = k)).map (fun p => cString p.2) := by
  rw [cutProperties, find?_foldl_emplace_cut, OrdMap.find?_empty, Option.none_or]

lemma contains_cutProperties : (cutProperties props).contains k = true ↔ ∃ k' ∈ props.keys, cString k' = k := by
  rw [OrdMap.contains, find?_cutProperties, Option.isSome_map, List.find?_isSome, OrdMap.keys]
  simp only [List.mem_map, decide_eq_true_eq]
  constructor
  · rintro ⟨p, hp, hk⟩
    exact ⟨p.1, ⟨p, hp, rfl⟩, hk⟩
  · rintro ⟨k', ⟨p, hp, rfl⟩, hk⟩
    exact ⟨p, hp, hk⟩

lemma contains_iff_mem_keys : props.contains k = true ↔ k ∈ props.keys :=
  (OrdMap.mem_keys props k).symm

/-- A key without a zero byte keeps its value: it comes before every key that is cut to it. -/
lemma find?_cutProperties_of_find? {v : Bytes} (hk : (0 : Byte) ∉ k) (h : props.find? k = some v) :
    (cutProperties props).find? k = some (cString v) := by
  have hmem : (k, v) ∈ props.entries := (props.mem_entries k v).mpr h
  have hcut : cString k = k := cString_of_notMem hk
  have hsome : (props.entries.find? (fun p => cString p.1 = k)).isSome := by
    rw [List.find?_isSome]
    exact ⟨(k, v), hmem, by simpa using hcut⟩
  obtain ⟨p, hp⟩ := Option.isSome_iff_exists.mp hsome
  rw [find?_cutProperties, hp]
  obtain ⟨hpk, before, after, he, hbefore⟩ := List.find?_eq_some_iff_append.mp hp
  simp only [decide_eq_true_eq] at hpk
  have hpre : k <+: p.1 := by
    rw [← hpk]
    exact List.takeWhile_prefix _
  have hle : ¬p.1 < k := hpre.le
  have hsorted := props.sorted
  rw [he, List.pairwise_append] at hsorted
  rw [he, List.mem_append, List.mem_cons] at hmem
  rcases hmem with hmem | rfl | hmem
  · have := hbefore _ hmem
    simp [hcut] at this
  · rfl
  · have := (List.pairwise_cons.mp hsorted.2.1).1 _ hmem
    exact absurd this hle

end Cut

/-! ### What the constructor accepts -/

lemma ensure_bind_ok_iff {β : Type} {c : Bool} {m : String} {f : Unit → Except String β} {b : β} :
    (ensure c m >>= f) = .ok b ↔ c = true ∧ f () = .ok b := by
  cases c with
  | false => simp [ensure]
  | true => simp [ensure_true]

section Accepted

variable {roaring : RoaringLibrary} {crc32 : Bytes → UInt32} {m : Puffin.BlobMetadata} {blob : Bytes}
  {dv : DeletionVector roaring}

/-- All positions, for a set that is not everything. -/
lemma cardinality_toNat (h : (roaring.elems dv.bitmap).card < 2 ^ 64) :
    (dv.cardinality 0 (-1)).toNat = (roaring.elems dv.bitmap).card := by
  have hall : (roaring.elems dv.bitmap).filter (· ≤ (-1 : UInt64)) = roaring.elems dv.bitmap := by
    rw [Finset.filter_eq_self]
    intro x _
    have := x.toNat_lt
    rw [UInt64.le_iff_toNat_le, show (-1 : UInt64).toNat = 2 ^ 64 - 1 from rfl]
    omega
  have hzero (x : UInt64) : x ≤ 0 ↔ x = 0 := by
    rw [UInt64.le_iff_toNat_le, ← UInt64.toNat_inj, UInt64.toNat_zero]
    omega
  have hsame : roaring.rank dv.bitmap 0 = if roaring.contains dv.bitmap 0 then 1 else 0 := by
    simp only [RoaringLibrary.rank, RoaringLibrary.contains, hzero, Finset.filter_eq', decide_eq_true_eq]
    split_ifs <;> rfl
  rw [cardinality, hsame, RoaringLibrary.rank, hall, UInt64.sub_add_cancel, UInt64.toNat_ofNat', Nat.mod_eq_of_lt h]

/-- The checks of the constructor that are about the metadata. -/
structure MetadataAccepted (m : Puffin.BlobMetadata) : Prop where
  type_eq : m.type = kBlobType
  referenced : m.properties.contains kReferencedDataFile = true
  no_codec_property : m.properties.contains kCompressionCodec = false
  no_codec : m.compressionCodec = none

/-- The checks of the constructor that are about the bytes, and the vector it makes of them. -/
structure BlobAccepted (roaring : RoaringLibrary) (crc32 : Bytes → UInt32) (m : Puffin.BlobMetadata) (blob : Bytes)
    (dv : DeletionVector roaring) : Prop where
  length_eq : toSizeT m.length.toInt = blob.length
  twelve_le : 12 ≤ blob.length
  prefix_eq : ofReversedBytes (blob.take 4) + 8 = blob.length
  magic_eq : (blob.drop 4).take 4 = kMagicSequence
  decoded : roaring.readSafe ((blob.drop 8).take (ofReversedBytes (blob.take 4) - 4)) = .ok dv.bitmap
  cardinality_eq : ∃ value, m.properties.find? kCardinality = some value ∧
    StringStream.stoull value = .ok (dv.cardinality 0 (-1)).toNat
  checksum_eq : (crc32 ((blob.drop 4).take (ofReversedBytes (blob.take 4)))).toNat =
    ofReversedBytes ((blob.drop (blob.length - 4)).take 4)
  properties_eq : dv.properties = m.properties
  fields_eq : dv.fields = m.fields

lemma getLen_ok_iff {len : Nat} :
    getLen blob = .ok len ↔ len = ofReversedBytes (blob.take 4) ∧ len + 8 = blob.length := by
  rw [getLen, ensure_bind_ok_iff, decide_eq_true_eq]
  constructor
  · rintro ⟨h, h'⟩
    cases h'
    exact ⟨rfl, h⟩
  · rintro ⟨rfl, h⟩
    exact ⟨h, rfl⟩

theorem ofBlob_ok_iff :
    ofBlob roaring crc32 m blob = .ok dv ↔ MetadataAccepted m ∧ BlobAccepted roaring crc32 m blob dv := by
  constructor
  · intro h
    simp only [ofBlob, validateMagicSequence, ensure_bind_ok_iff, decide_eq_true_eq] at h
    obtain ⟨htype, href, hcodec, hnone, hlength, h12, h⟩ := h
    obtain ⟨len, hlen, h⟩ := bind_ok h
    obtain ⟨rfl, hlen⟩ := getLen_ok_iff.mp hlen
    rw [ensure_bind_ok_iff, decide_eq_true_eq] at h
    obtain ⟨hmagic, h⟩ := h
    obtain ⟨bitmap, hbitmap, h⟩ := bind_ok h
    obtain ⟨expected, hexpected, h⟩ := bind_ok h
    obtain ⟨value, hvalue, h⟩ := bind_ok h
    simp only [ensure_bind_ok_iff, decide_eq_true_eq] at h
    obtain ⟨hcard, hsum, h⟩ := h
    cases h
    refine ⟨⟨htype, href, by simpa using hcodec, by simpa using hnone⟩, hlength, h12, hlen, hmagic, ?_, ?_, hsum, rfl, rfl⟩
    · cases hr : roaring.readSafe ((blob.drop kDataOffset).take (ofReversedBytes (blob.take 4) - 4)) with
      | error e =>
        rw [hr] at hbitmap
        cases hbitmap
      | ok b =>
        rw [hr] at hbitmap
        cases hbitmap
        exact hr
    · cases hf : m.properties.find? kCardinality with
      | none =>
        rw [hf] at hexpected
        cases hexpected
      | some v =>
        rw [hf] at hexpected
        cases hexpected
        exact ⟨_, rfl, by rw [hvalue, hcard]⟩
  · rintro ⟨hm, hb⟩
    obtain ⟨value, hvalue, hcard⟩ := hb.cardinality_eq
    have hdv : ofBitmap m dv.bitmap = dv := by
      rw [ofBitmap, ← hb.properties_eq, ← hb.fields_eq]
    have hread := hb.decoded
    have hsum := hb.checksum_eq
    simp only [ofBlob, validateMagicSequence, ensure_bind_ok_iff, decide_eq_true_eq]
    refine ⟨hm.type_eq, hm.referenced, by simp [hm.no_codec_property], by simp [hm.no_codec], hb.length_eq, hb.twelve_le, ?_⟩
    rw [getLen_ok_iff.mpr ⟨rfl, hb.prefix_eq⟩, ok_bind, ensure_bind_ok_iff, decide_eq_true_eq]
    refine ⟨hb.magic_eq, ?_⟩
    rw [kDataOffset, hread, hvalue]
    simp only [Except.mapError, Option.elim_some, ok_bind, hcard, hdv, ensure_bind_ok_iff, decide_eq_true_eq]
    exact ⟨trivial, hsum, rfl⟩

end Accepted

/-! ### What is written is accepted -/

section Written

variable {roaring : RoaringLibrary} (crc32 : Bytes → UInt32) (dv : DeletionVector roaring)

/-- The serialized size fits in 32 bits, if need be after shrinking. -/
def VectorFits : Prop :=
  4 + roaring.getSizeInBytes dv.bitmap ≤ 2 ^ 32 - 1 ∨
    4 + roaring.getSizeInBytes (roaring.shrinkToFit dv.bitmap) ≤ 2 ^ 32 - 1

variable {dv}

lemma elems_shrunk : roaring.elems dv.shrunk.bitmap = roaring.elems dv.bitmap := by
  unfold shrunk
  split_ifs
  · exact roaring.elems_shrinkToFit _
  · rfl

lemma properties_shrunk : dv.shrunk.properties = dv.properties := by
  unfold shrunk
  split_ifs <;> rfl

lemma VectorFits.shrunk (h : VectorFits dv) : 4 + roaring.getSizeInBytes dv.shrunk.bitmap ≤ 2 ^ 32 - 1 := by
  unfold DeletionVector.shrunk
  split_ifs with hlt
  · rcases h with h | h
    · omega
    · exact h
  · omega

lemma card_lt (h : 4 + roaring.getSizeInBytes dv.bitmap ≤ 2 ^ 32 - 1) : (roaring.elems dv.bitmap).card < 2 ^ 64 := by
  obtain ⟨b, hb, he⟩ := roaring.readSafe_write dv.bitmap
  have hle := roaring.card_le _ _ hb
  rw [he] at hle
  unfold RoaringLibrary.getSizeInBytes at h
  omega

lemma length_uiToLittleEndianBytes (v : Nat) : (uiToLittleEndianBytes v).length = 4 := by
  simp [uiToLittleEndianBytes]

lemma ofReversedBytes_ui {v : Nat} (h : v < 2 ^ 32) : ofReversedBytes (uiToLittleEndianBytes v) = v := by
  rw [ofReversedBytes, uiToLittleEndianBytes, List.reverse_reverse, ofLeBytes_leBytes]
  omega

/-- The parts of the blob. -/
lemma serialize_eq : dv.serialize crc32 =
    uiToLittleEndianBytes (4 + roaring.getSizeInBytes dv.bitmap) ++ (kMagicSequence ++ (roaring.write dv.bitmap ++
      uiToLittleEndianBytes (crc32 (kMagicSequence ++ roaring.write dv.bitmap)).toNat)) := by
  have hm : kMagicSequence.length = 4 := rfl
  have hcovered : ((uiToLittleEndianBytes (4 + roaring.getSizeInBytes dv.bitmap) ++ kMagicSequence ++
      roaring.write dv.bitmap).drop kMagicSequenceOffset).take (4 + roaring.getSizeInBytes dv.bitmap) =
      kMagicSequence ++ roaring.write dv.bitmap := by
    rw [List.append_assoc, kMagicSequenceOffset, List.drop_left' (length_uiToLittleEndianBytes _)]
    apply List.take_of_length_le
    rw [List.length_append, hm, RoaringLibrary.getSizeInBytes]
  rw [serialize]
  simp only [hcovered]
  simp only [List.append_assoc]

lemma length_serialize : (dv.serialize crc32).length = roaring.getSizeInBytes dv.bitmap + 12 := by
  have hm : kMagicSequence.length = 4 := rfl
  rw [serialize_eq]
  simp only [List.length_append, length_uiToLittleEndianBytes, hm, RoaringLibrary.getSizeInBytes]
  omega

/-- The constructor decodes what `GetBlob` has written. -/
lemma blobAccepted_serialize {m : Puffin.BlobMetadata} (hfit : 4 + roaring.getSizeInBytes dv.bitmap ≤ 2 ^ 32 - 1)
    (hlen : toSizeT m.length.toInt = (dv.serialize crc32).length)
    (hcard : m.properties.find? kCardinality = some (toDecimal (roaring.elems dv.bitmap).card)) :
    ∃ dv', BlobAccepted roaring crc32 m (dv.serialize crc32) dv' ∧
      roaring.elems dv'.bitmap = roaring.elems dv.bitmap := by
  obtain ⟨b, hread, helems⟩ := roaring.readSafe_write dv.bitmap
  have hm : kMagicSequence.length = 4 := rfl
  have hlength := @length_serialize roaring crc32 dv
  have hlead : ofReversedBytes ((dv.serialize crc32).take 4) = 4 + roaring.getSizeInBytes dv.bitmap := by
    rw [serialize_eq, List.take_left' (length_uiToLittleEndianBytes _), ofReversedBytes_ui (by omega)]
  have hdrop : (dv.serialize crc32).drop 4 = kMagicSequence ++ (roaring.write dv.bitmap ++
      uiToLittleEndianBytes (crc32 (kMagicSequence ++ roaring.write dv.bitmap)).toNat) := by
    rw [serialize_eq, List.drop_left' (length_uiToLittleEndianBytes _)]
  have hdata : (dv.serialize crc32).drop 8 = roaring.write dv.bitmap ++
      uiToLittleEndianBytes (crc32 (kMagicSequence ++ roaring.write dv.bitmap)).toNat := by
    rw [show 8 = 4 + 4 from rfl, ← List.drop_drop, hdrop, List.drop_left' hm]
  have hcovered : ((dv.serialize crc32).drop 4).take (4 + roaring.getSizeInBytes dv.bitmap) =
      kMagicSequence ++ roaring.write dv.bitmap := by
    rw [hdrop, ← List.append_assoc]
    apply List.take_left'
    rw [List.length_append, hm, RoaringLibrary.getSizeInBytes]
  have hchecksum : (dv.serialize crc32).drop ((dv.serialize crc32).length - 4) =
      uiToLittleEndianBytes (crc32 (kMagicSequence ++ roaring.write dv.bitmap)).toNat := by
    rw [hlength, show roaring.getSizeInBytes dv.bitmap + 12 - 4 = 8 + roaring.getSizeInBytes dv.bitmap by omega,
      ← List.drop_drop, hdata, RoaringLibrary.getSizeInBytes, List.drop_left]
  have hb : (roaring.elems b).card < 2 ^ 64 := by
    rw [helems]
    exact card_lt hfit
  refine ⟨ofBitmap m b, ⟨hlen, by omega, by omega, ?_, ?_, ⟨_, hcard, ?_⟩, ?_, rfl, rfl⟩, helems⟩
  · rw [hdrop, List.take_left' hm]
  · rw [hlead, hdata, Nat.add_sub_cancel_left, RoaringLibrary.getSizeInBytes, List.take_left]
    exact hread
  · rw [cardinality_toNat hb]
    simp only [ofBitmap, helems]
    exact StringStream.stoull_toDecimal (card_lt hfit)
  · rw [hlead, hcovered, hchecksum, List.take_of_length_le (by rw [length_uiToLittleEndianBytes])]
    exact (ofReversedBytes_ui (UInt32.toNat_lt _)).symm

end Written

/-! ### Through a Puffin file -/

section Stored

variable {roaring : RoaringLibrary} (lib : JsonLibrary) (crc32 : Bytes → UInt32)

/-- The blob that a vector that fits is written as. -/
def writtenBlob (dv : DeletionVector roaring) : Blob :=
  { data := dv.shrunk.serialize crc32
    properties := dv.shrunk.getProperties
    fields := dv.shrunk.getFields
    blobType := kBlobType }

/-- The vector is written as one of the blobs of a Puffin file, and a vector with the same
positions is read from it. -/
def StoresSet (dv : DeletionVector roaring) (before after : List Blob) (sequenceNumber snapshotId : Int64) : Prop :=
  ∃ blob file dv', dv.toPuffinBlob crc32 = .ok blob ∧
    build lib (puffinBuilderOf (before ++ blob :: after) sequenceNumber snapshotId) = .ok file ∧
    ofPuffinFile roaring crc32 lib file.data before.length = .ok dv' ∧
    roaring.elems dv'.bitmap = roaring.elems dv.bitmap

/-- No key of the properties is cut to `compression-codec`, and the footer and the file are not too
long. -/
def Storable (dv : DeletionVector roaring) (before after : List Blob) (sequenceNumber snapshotId : Int64) : Prop :=
  (∀ k ∈ dv.properties.keys, cString k ≠ kCompressionCodec) ∧
    (footerText lib (before ++ writtenBlob crc32 dv :: after) sequenceNumber snapshotId).length < 2 ^ 31 - 16 ∧
    ((before ++ writtenBlob crc32 dv :: after).flatMap Blob.data).length +
      (footerText lib (before ++ writtenBlob crc32 dv :: after) sequenceNumber snapshotId).length + 20 < 2 ^ 63

variable {dv : DeletionVector roaring} {before after : List Blob} {sequenceNumber snapshotId : Int64}

lemma toPuffinBlob_eq (h : VectorFits dv) : dv.toPuffinBlob crc32 = .ok (writtenBlob crc32 dv) := by
  have hsize : decide (4 + roaring.getSizeInBytes dv.shrunk.bitmap ≤ 2 ^ 32 - 1) = true := decide_eq_true h.shrunk
  simp only [toPuffinBlob, DeletionVector.getBlob, hsize, ensure_true, ok_bind]
  rfl

lemma find?_getProperties (k : Bytes) : dv.shrunk.getProperties.find? k =
    if k = kCardinality then some (toDecimal (dv.shrunk.cardinality 0 (-1)).toNat) else dv.properties.find? k := by
  rw [getProperties, OrdMap.find?_insert, properties_shrunk]
  split_ifs <;> rfl

lemma keys_getProperties {k : Bytes} : k ∈ dv.shrunk.getProperties.keys ↔ k = kCardinality ∨ k ∈ dv.properties.keys := by
  rw [OrdMap.mem_keys, OrdMap.mem_keys, find?_getProperties]
  split_ifs with hk
  · simp [hk]
  · simp [hk]

/-- After the cut the properties still name no codec exactly when no key is cut to that name. -/
lemma contains_codec_iff : (cutProperties dv.shrunk.getProperties).contains kCompressionCodec = false ↔
    ∀ k ∈ dv.properties.keys, cString k ≠ kCompressionCodec := by
  have hcard : cString kCardinality ≠ kCompressionCodec := by decide
  rw [← Bool.not_eq_true, contains_cutProperties]
  constructor
  · intro h k hk hcut
    exact h ⟨k, keys_getProperties.mpr (Or.inr hk), hcut⟩
  · rintro h ⟨k, hk, hcut⟩
    rcases keys_getProperties.mp hk with rfl | hk
    · exact hcard hcut
    · exact h k hk hcut

lemma contains_referenced (h : dv.properties.contains kReferencedDataFile = true) :
    (cutProperties dv.shrunk.getProperties).contains kReferencedDataFile = true :=
  contains_cutProperties.mpr ⟨kReferencedDataFile,
    keys_getProperties.mpr (Or.inr (contains_iff_mem_keys.mp h)), by decide⟩

lemma find?_cardinality (h : VectorFits dv) : (cutProperties dv.shrunk.getProperties).find? kCardinality =
    some (toDecimal (roaring.elems dv.shrunk.bitmap).card) := by
  have hz : (0 : Byte) ∉ toDecimal (roaring.elems dv.shrunk.bitmap).card := by
    intro hmem
    have := Json.isDigit_toDecimal _ _ hmem
    revert this
    decide
  have hfind := @find?_getProperties roaring dv kCardinality
  rw [if_pos rfl, cardinality_toNat (card_lt h.shrunk)] at hfind
  rw [find?_cutProperties_of_find? (by decide) hfind, cString_of_notMem hz]

lemma getElem?_middle (b : Blob) : (before ++ b :: after)[before.length]? = some b := by
  simp

/-- A file that was built and is short enough gives the blob to the constructor with its
properties cut. -/
lemma ofPuffinFile_built (hsz : (buildBytes lib (before ++ writtenBlob crc32 dv :: after) sequenceNumber
      snapshotId).length < 2 ^ 63)
    (hL : (footerText lib (before ++ writtenBlob crc32 dv :: after) sequenceNumber snapshotId).length < 2 ^ 31 - 16) :
    ∃ o, ofPuffinFile roaring crc32 lib ⟨_, hsz⟩ before.length =
      ofBlob roaring crc32 (cutMetadata (metadataAt sequenceNumber snapshotId o (writtenBlob crc32 dv)))
        (dv.shrunk.serialize crc32) := by
  obtain ⟨hmake, -⟩ := build_ok lib (by simp) hsz hL
  obtain ⟨hblob, o, hmeta⟩ := getBlob_built lib hsz (getElem?_middle (writtenBlob crc32 dv))
  refine ⟨o, ?_⟩
  rw [ofPuffinFile, hmake, ok_bind, hmeta, ok_bind, hblob, ok_bind]
  rfl

lemma toSizeT_ofNat {n : Nat} (h : n < 2 ^ 63) : toSizeT (Int64.ofNat n).toInt = n := by
  rw [toInt_ofNat_of_lt h, toSizeT]
  omega

lemma StoresSet.storable (hfit : VectorFits dv)
    (h : StoresSet lib crc32 dv before after sequenceNumber snapshotId) :
    Storable lib crc32 dv before after sequenceNumber snapshotId := by
  obtain ⟨blob, file, dv', hblob, hbuild, hread, -⟩ := h
  rw [toPuffinBlob_eq crc32 hfit] at hblob
  cases hblob
  have hread' := hread
  unfold ofPuffinFile at hread'
  obtain ⟨file', hmake, hread'⟩ := bind_ok hread'
  obtain ⟨m, hm, -⟩ := bind_ok hread'
  obtain ⟨footer, hfooter, -⟩ := bind_ok hm
  have hne : before ++ writtenBlob crc32 dv :: after ≠ [] := by simp
  -- `Build` has passed the same bytes to `Make` already
  have hsame : file' = file := by
    have hb := hbuild
    rw [build_eq lib hne] at hb
    split_ifs at hb with hsz
    rw [((make_built lib hsz).mp hb).1, hb] at hmake
    cases hmake
    rfl
  subst hsame
  obtain ⟨hL, hsz⟩ := length_lt_of_build lib hne hbuild hfooter
  obtain ⟨-, hbuilt⟩ := build_ok lib hne hsz hL
  rw [hbuilt] at hbuild
  cases hbuild
  obtain ⟨o, hof⟩ := ofPuffinFile_built lib crc32 hsz hL
  rw [hof, ofBlob_ok_iff] at hread
  refine ⟨contains_codec_iff.mp hread.1.no_codec_property, hL, ?_⟩
  rw [← length_buildBytes]
  exact hsz

lemma Storable.storesSet (hfit : VectorFits dv) (href : dv.properties.contains kReferencedDataFile = true)
    (h : Storable lib crc32 dv before after sequenceNumber snapshotId) :
    StoresSet lib crc32 dv before after sequenceNumber snapshotId := by
  obtain ⟨hkeys, hL, hsz⟩ := h
  rw [← length_buildBytes] at hsz
  obtain ⟨-, hbuilt⟩ := build_ok lib (by simp) hsz hL
  obtain ⟨o, hof⟩ := ofPuffinFile_built lib crc32 hsz hL
  have hlen : (dv.shrunk.serialize crc32).length < 2 ^ 63 := by
    have := @length_serialize roaring crc32 dv.shrunk
    have := hfit.shrunk
    omega
  obtain ⟨dv', hacc, helems⟩ := blobAccepted_serialize
    (m := cutMetadata (metadataAt sequenceNumber snapshotId o (writtenBlob crc32 dv))) crc32 hfit.shrunk
    (toSizeT_ofNat hlen) (find?_cardinality hfit)
  have htype : cString kBlobType = kBlobType := by decide
  refine ⟨_, _, dv', toPuffinBlob_eq crc32 hfit, hbuilt, ?_, helems.trans elems_shrunk⟩
  rw [hof, ofBlob_ok_iff]
  exact ⟨⟨htype, contains_referenced href, contains_codec_iff.mpr hkeys, rfl⟩, hacc⟩

end Stored

/-- What a blob that is accepted has: a length prefix, a magic and a checksum that match, and a
cardinality property that gives the number of positions decoded from it. -/
def BlobValid (roaring : RoaringLibrary) (crc32 : Bytes → UInt32) (m : Puffin.BlobMetadata) (blob : Bytes)
    (dv : DeletionVector roaring) : Prop :=
  ofReversedBytes (blob.take 4) + 8 = blob.length ∧ (blob.drop 4).take 4 = kMagicSequence ∧
    (crc32 ((blob.drop 4).take (blob.length - 8))).toNat = ofReversedBytes (blob.drop (blob.length - 4)) ∧
    roaring.readSafe ((blob.drop 8).take (blob.length - 12)) = .ok dv.bitmap ∧
    ∃ value, m.properties.find? kCardinality = some value ∧
      StringStream.stoull value = .ok (roaring.elems dv.bitmap).card

lemma BlobAccepted.valid {roaring : RoaringLibrary} {crc32 : Bytes → UInt32} {m : Puffin.BlobMetadata} {blob : Bytes}
    {dv : DeletionVector roaring} (h : BlobAccepted roaring crc32 m blob dv) : BlobValid roaring crc32 m blob dv := by
  have hpre := h.prefix_eq
  have h12 := h.twelve_le
  have hlen : ofReversedBytes (blob.take 4) = blob.length - 8 := by omega
  have hdecoded := h.decoded
  have hsum := h.checksum_eq
  rw [hlen, show blob.length - 8 - 4 = blob.length - 12 by omega] at hdecoded
  have htail : (blob.drop (blob.length - 4)).take 4 = blob.drop (blob.length - 4) := by
    apply List.take_of_length_le
    rw [List.length_drop]
    omega
  rw [hlen, htail] at hsum
  have hlt : ofReversedBytes (blob.take 4) < 2 ^ 32 := by
    have := ofLeBytes_lt (blob.take 4).reverse
    rw [List.length_reverse, List.length_take, min_eq_left (by omega)] at this
    exact this
  have hcard : (roaring.elems dv.bitmap).card < 2 ^ 64 := by
    have hle := roaring.card_le _ _ hdecoded
    rw [List.length_take, List.length_drop] at hle
    omega
  obtain ⟨value, hvalue, hstoull⟩ := h.cardinality_eq
  rw [cardinality_toNat hcard] at hstoull
  exact ⟨hpre, h.magic_eq, hsum, hdecoded, value, hvalue, hstoull⟩

/-- A vector survives a Puffin file exactly when no key of its properties is cut to
`compression-codec` and the footer fits, and the constructor accepts only valid blobs. -/
theorem storesSet_iff_and_valid (roaring : RoaringLibrary) (lib : JsonLibrary) (crc32 : Bytes → UInt32) :
    (∀ (dv : DeletionVector roaring) (before after : List Blob) (sequenceNumber snapshotId : Int64), VectorFits dv →
      dv.properties.contains kReferencedDataFile = true → dv.properties.contains kCompressionCodec = false →
      (StoresSet lib crc32 dv before after sequenceNumber snapshotId ↔
        Storable lib crc32 dv before after sequenceNumber snapshotId)) ∧
      ∀ (m : Puffin.BlobMetadata) (blob : Bytes) (dv : DeletionVector roaring),
        ofBlob roaring crc32 m blob = .ok dv → BlobValid roaring crc32 m blob dv := by
  refine ⟨?_, ?_⟩
  · intro dv before after sequenceNumber snapshotId hfit href _
    exact ⟨fun h => h.storable lib crc32 hfit, fun h => h.storesSet lib crc32 hfit href⟩
  · intro m blob dv h
    exact (ofBlob_ok_iff.mp h).2.valid

/-! ### A bitmap library -/

/-- Eight bytes for each position. -/
def writePositions (positions : List UInt64) : Bytes := positions.flatMap (fun x => leBytes 8 x.toNat)

def readPositions : Bytes → List UInt64
  | a :: b :: c :: d :: e :: f :: g :: h :: rest => UInt64.ofNat (ofLeBytes [a, b, c, d, e, f, g, h]) :: readPositions rest
  | _ => []

lemma readPositions_leBytes (x : UInt64) (rest : Bytes) :
    readPositions (leBytes 8 x.toNat ++ rest) = x :: readPositions rest := by
  have hx : ofLeBytes (leBytes 8 x.toNat) = x.toNat := by
    rw [ofLeBytes_leBytes]
    exact Nat.mod_eq_of_lt x.toNat_lt
  have hcons : readPositions (leBytes 8 x.toNat ++ rest) =
      UInt64.ofNat (ofLeBytes (leBytes 8 x.toNat)) :: readPositions rest := rfl
  rw [hcons, hx, UInt64.ofNat_toNat]

lemma readPositions_writePositions (positions : List UInt64) :
    readPositions (writePositions positions) = positions := by
  induction positions with
  | nil => rfl
  | cons x positions ih =>
    rw [writePositions, List.flatMap_cons, readPositions_leBytes]
    exact congrArg _ ih

lemma length_readPositions_le (data : Bytes) : (readPositions data).length ≤ data.length := by
  induction data using readPositions.induct with
  | case1 a b c d e f g h rest ih =>
    simp only [readPositions, List.length_cons]
    omega
  | case2 data hdata =>
    rw [readPositions]
    · simp
    · exact hdata

/-- The number of positions in eight bytes and then the positions. The empty bitmap is written as
in the portable format. -/
def listRoaring : RoaringLibrary where
  Bitmap := List UInt64
  elems positions := positions.toFinset
  write positions := leBytes 8 positions.length ++ writePositions positions
  readSafe data := if data.length < 8 then .error "ran out of bytes" else .ok (readPositions (data.drop 8))
  shrinkToFit positions := positions
  elems_shrinkToFit _ := rfl
  readSafe_write positions := by
    refine ⟨positions, ?_, rfl⟩
    rw [if_neg (by simp), List.drop_left' (length_leBytes 8 _), readPositions_writePositions]
  card_le data positions h := by
    split_ifs at h with hlt
    cases h
    have h1 := List.toFinset_card_le (readPositions (data.drop 8))
    have h2 := length_readPositions_le (data.drop 8)
    rw [List.length_drop] at h2
    omega

def crcBit (c : UInt32) : UInt32 := if c &&& 1 = 1 then (c >>> 1) ^^^ 0xEDB88320 else c >>> 1

/-- The checksum of `zlib`, bit by bit. -/
def zlibCrc32 (data : Bytes) : UInt32 :=
  data.foldl (fun c b => crcBit^[8] (c ^^^ UInt32.ofNat b.val)) 0xFFFFFFFF ^^^ 0xFFFFFFFF

example : zlibCrc32 (bytes "123456789") = 0xCBF43926 := by decide +kernel

/-- The empty vector of a data file. -/
def emptyVector : DeletionVector listRoaring :=
  { properties := (∅ : OrdMap Bytes Bytes).insert kReferencedDataFile (bytes "a.parquet")
    fields := []
    bitmap := [] }

lemma emptyVector_fits : VectorFits emptyVector := Or.inl (by decide)

lemma emptyVector_storable : Storable compactJson zlibCrc32 emptyVector [] [] 1 1 := by
  have hfooter : (footerText compactJson [writtenBlob zlibCrc32 emptyVector] 1 1).length < 300 := by
    decide +kernel
  have hdata : ([writtenBlob zlibCrc32 emptyVector].flatMap Blob.data).length = 20 := by
    decide +kernel
  refine ⟨by decide, ?_, ?_⟩
  · rw [List.nil_append]
    omega
  · rw [List.nil_append, hdata]
    omega

theorem emptyVector_stored :
    StoresSet compactJson zlibCrc32 emptyVector [] [] 1 1 ∧
      ∃ m blob dv, ofBlob listRoaring zlibCrc32 m blob = .ok dv ∧ BlobValid listRoaring zlibCrc32 m blob dv := by
  obtain ⟨hstored, hvalid⟩ := storesSet_iff_and_valid listRoaring compactJson zlibCrc32
  have h := (hstored emptyVector [] [] 1 1 emptyVector_fits (by decide) (by decide)).mpr emptyVector_storable
  refine ⟨h, ?_⟩
  obtain ⟨_, file, dv, -, -, hread, -⟩ := h
  unfold ofPuffinFile at hread
  obtain ⟨_, -, hread⟩ := bind_ok hread
  obtain ⟨m, -, hread⟩ := bind_ok hread
  obtain ⟨blob, -, hread⟩ := bind_ok hread
  exact ⟨m, blob, dv, hread, hvalid m blob dv hread⟩

/-- A vector with a property whose name goes on after a zero byte. -/
def zeroByteVector : DeletionVector listRoaring :=
  { emptyVector with properties := emptyVector.properties.insert (kCompressionCodec ++ [0, 120]) (bytes "zstd") }

/-- The constructor refuses a vector that `GetBlob` and `GetProperties` have written. -/
theorem zeroByteVector_lost :
    ¬∀ dv : DeletionVector listRoaring, VectorFits dv → dv.properties.contains kReferencedDataFile = true →
      dv.properties.contains kCompressionCodec = false → StoresSet compactJson zlibCrc32 dv [] [] 1 1 := by
  intro hall
  have hfit : VectorFits zeroByteVector := Or.inl (by decide)
  have h := (hall zeroByteVector hfit (by decide) (by decide)).storable compactJson zlibCrc32 hfit
  exact h.1 (kCompressionCodec ++ [0, 120]) (by decide) (by decide)

end IcebergCxx.Proofs

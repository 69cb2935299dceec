import IcebergCxx.Proofs.PuffinFooter
import IcebergCxx.Lib.JsonScan

/-!
# Building a Puffin file and reading it back

The footer document is read back as it was written, the loop of `Build` records where each blob
starts, and the trailer leads back to the document. What limits the round trip is the size field:
`build_roundTrips_iff` gives the exact bound. `build_not_conforms` is about the flags.
-/

namespace IcebergCxx.Proofs

open Lib Puffin

/-! ### The footer document -/

/-- What is left of a map in the document: keys and values end at their first zero byte, and of
keys that become equal the first one stays. -/
def cutProperties (props : OrdMap Bytes Bytes) : OrdMap Bytes Bytes :=
  props.entries.foldl (fun r p => r.emplace (cString p.1) (cString p.2)) ∅

lemma mem_cString {s : Bytes} {c : Byte} (h : c ∈ cString s) : c ≠ 0 := by
  simpa using List.mem_takeWhile_imp h

lemma cString_cString (s : Bytes) : cString (cString s) = cString s :=
  cString_of_notMem (fun h => mem_cString h rfl)

lemma deserializeProperties_serialize (props : OrdMap Bytes Bytes) :
    deserializeProperties (serializeProperties props) = .ok (cutProperties props) := by
  have hfold : ∀ (l : List (Bytes × Bytes)) (r : OrdMap Bytes Bytes),
      (l.map (fun p => (cString p.1, serializeString p.2))).foldl emplaceMember r =
        l.foldl (fun r p => r.emplace (cString p.1) (cString p.2)) r := by
    intro l
    induction l with
    | nil => intro r; rfl
    | cons p l ih =>
      intro r
      rw [List.map_cons, List.foldl_cons, List.foldl_cons]
      simp only [serializeString, emplaceMember, cString_cString]
      exact ih _
  rw [serializeProperties, deserializeProperties, hfold, cutProperties]

/-- The metadata of a blob as the document has it. -/
def cutMetadata (m : Puffin.BlobMetadata) : Puffin.BlobMetadata :=
  { m with
    type := cString m.type
    compressionCodec := m.compressionCodec.map cString
    properties := cutProperties m.properties }

lemma deserializeBlob_serialize (m : Puffin.BlobMetadata) :
    deserializeBlob (serializeBlob m) = .ok (cutMetadata m) := by
  have htype : extract deserializeString (blobMembers m) Field.kType = .ok (cString m.type) :=
    deserializeString_serialize m.type
  have hfields : extract (deserializeVector deserializeInt32) (blobMembers m) Field.kFields = .ok m.fields := by
    have h := @deserializeVector_map Int32 Int32 deserializeInt32 (fun f => .int f.toInt) id m.fields
      (fun f _ => deserializeInt32_toInt f)
    rwa [List.map_id] at h
  have hsnap : extract deserializeInt64 (blobMembers m) Field.kSnapshotId = .ok m.snapshotId :=
    deserializeInt64_toInt _
  have hseq : extract deserializeInt64 (blobMembers m) Field.kSequenceNumber = .ok m.sequenceNumber :=
    deserializeInt64_toInt _
  have hoffset : extract deserializeInt64 (blobMembers m) Field.kOffset = .ok m.offset :=
    deserializeInt64_toInt _
  have hlength : extract deserializeInt64 (blobMembers m) Field.kLength = .ok m.length :=
    deserializeInt64_toInt _
  have hcodec : extractOptional (blobMembers m) Field.kCompressionCodec = .ok (m.compressionCodec.map cString) :=
    @deserializeOptional_serialize Bytes deserializeString serializeString cString
      (fun s hs => by cases hs) deserializeString_serialize m.compressionCodec
  have hprops : extract deserializeProperties (blobMembers m) Field.kProperties = .ok (cutProperties m.properties) :=
    deserializeProperties_serialize m.properties
  simp only [serializeBlob, deserializeBlob, htype, hfields, hsnap, hseq, hoffset, hlength, hcodec, hprops, ok_bind]
  rfl

lemma deserializeFooter_serialize (footer : DeserializedFooter) :
    deserializeFooter (serializeFooter footer) =
      .ok { blobs := footer.blobs.map cutMetadata, properties := cutProperties footer.properties } := by
  have hblobs : extract (deserializeVector deserializeBlob) (footerMembers footer) Field.kBlobs =
      .ok (footer.blobs.map cutMetadata) :=
    @deserializeVector_map Puffin.BlobMetadata Puffin.BlobMetadata deserializeBlob serializeBlob cutMetadata
      footer.blobs (fun m _ => deserializeBlob_serialize m)
  have hprops : extract deserializeProperties (footerMembers footer) Field.kProperties =
      .ok (cutProperties footer.properties) :=
    deserializeProperties_serialize footer.properties
  simp only [serializeFooter, deserializeFooter, hblobs, hprops, ok_bind]
  rfl

/-! ### Texts without a zero byte -/

/-- No key and no value contains a zero byte. -/
def PropertiesClean (props : OrdMap Bytes Bytes) : Prop :=
  ∀ p ∈ props.entries, (0 : Byte) ∉ p.1 ∧ (0 : Byte) ∉ p.2

lemma cutProperties_of_clean {props : OrdMap Bytes Bytes} (h : PropertiesClean props) : cutProperties props = props := by
  have hfold : ∀ (l : List (Bytes × Bytes)) (r : OrdMap Bytes Bytes), (∀ p ∈ l, (0 : Byte) ∉ p.1 ∧ (0 : Byte) ∉ p.2) →
      l.foldl (fun r p => r.emplace (cString p.1) (cString p.2)) r = l.foldl (fun r p => r.emplace p.1 p.2) r := by
    intro l
    induction l with
    | nil => intro r _; rfl
    | cons p l ih =>
      intro r hl
      have hp := hl p List.mem_cons_self
      rw [List.foldl_cons, List.foldl_cons, cString_of_notMem hp.1, cString_of_notMem hp.2]
      exact ih _ (fun q hq => hl q (List.mem_cons_of_mem _ hq))
  rw [cutProperties, hfold _ _ h, OrdMap.foldl_emplace_entries]

/-- The texts of a blob's metadata contain no zero byte. -/
def MetadataClean (m : Puffin.BlobMetadata) : Prop :=
  (0 : Byte) ∉ m.type ∧ (∀ s ∈ m.compressionCodec, (0 : Byte) ∉ s) ∧ PropertiesClean m.properties

lemma cutMetadata_of_clean {m : Puffin.BlobMetadata} (h : MetadataClean m) : cutMetadata m = m := by
  obtain ⟨ht, hc, hp⟩ := h
  have hcodec : m.compressionCodec.map cString = m.compressionCodec := by
    rw [Option.map_congr (fun s hs => cString_of_notMem (hc s hs)), Option.map_id']
  rw [cutMetadata, cString_of_notMem ht, hcodec, cutProperties_of_clean hp]

/-! ### The loop over the blobs -/

/-- The metadata that `Build` records for a blob written at a position. -/
def metadataAt (sequenceNumber snapshotId : Int64) (position : Nat) (blob : Blob) : Puffin.BlobMetadata :=
  { type := blob.blobType
    fields := blob.fields
    snapshotId := snapshotId
    sequenceNumber := sequenceNumber
    offset := Int64.ofNat position
    length := Int64.ofNat blob.data.length
    compressionCodec := none
    properties := blob.properties }

def metadataFrom (sequenceNumber snapshotId : Int64) : Nat → List Blob → List Puffin.BlobMetadata
  | _, [] => []
  | position, blob :: blobs =>
    metadataAt sequenceNumber snapshotId position blob ::
      metadataFrom sequenceNumber snapshotId (position + blob.data.length) blobs

section Loop

variable (sequenceNumber snapshotId : Int64)

lemma foldl_buildStep (blobs : List Blob) (result : Bytes) (metas : List Puffin.BlobMetadata) :
    blobs.foldl (buildStep sequenceNumber snapshotId) (result, metas) =
      (result ++ blobs.flatMap Blob.data, metas ++ metadataFrom sequenceNumber snapshotId result.length blobs) := by
  induction blobs generalizing result metas with
  | nil => simp [metadataFrom]
  | cons blob blobs ih =>
    rw [List.foldl_cons, buildStep, ih]
    simp [metadataFrom, metadataAt]

lemma metadataFrom_forall₂ (position : Nat) (blobs : List Blob) :
    List.Forall₂ (fun m b => ∃ o, m = metadataAt sequenceNumber snapshotId o b)
      (metadataFrom sequenceNumber snapshotId position blobs) blobs := by
  induction blobs generalizing position with
  | nil => exact .nil
  | cons blob blobs ih => exact .cons ⟨position, rfl⟩ (ih _)

lemma exists_of_mem_metadataFrom {position : Nat} {blobs : List Blob} {m : Puffin.BlobMetadata}
    (h : m ∈ metadataFrom sequenceNumber snapshotId position blobs) :
    ∃ o, ∃ b ∈ blobs, m = metadataAt sequenceNumber snapshotId o b := by
  induction blobs generalizing position with
  | nil => cases h
  | cons blob blobs ih =>
    rcases List.mem_cons.mp h with rfl | h
    · exact ⟨position, blob, List.mem_cons_self, rfl⟩
    · obtain ⟨o, b, hb, he⟩ := ih h
      exact ⟨o, b, List.mem_cons_of_mem _ hb, he⟩

lemma toInt_ofNat_of_lt {n : Nat} (h : n < 2 ^ 63) : (Int64.ofNat n).toInt = n :=
  Int64.toInt_ofNat_of_lt h

/-- Every recorded range lies in the part of the file where the blobs were written. -/
lemma metadataFrom_range {position : Nat} {blobs : List Blob}
    (h : position + (blobs.flatMap Blob.data).length < 2 ^ 63) :
    ∀ m ∈ metadataFrom sequenceNumber snapshotId position blobs, (position : Int) ≤ m.offset.toInt ∧
      0 ≤ m.length.toInt ∧ m.offset.toInt + m.length.toInt ≤ position + (blobs.flatMap Blob.data).length := by
  induction blobs generalizing position with
  | nil => exact fun m hm => absurd hm List.not_mem_nil
  | cons blob blobs ih =>
    rw [List.flatMap_cons, List.length_append] at h ⊢
    intro m hm
    rcases List.mem_cons.mp hm with rfl | hm
    · simp only [metadataAt, toInt_ofNat_of_lt (show position < 2 ^ 63 by omega),
        toInt_ofNat_of_lt (show blob.data.length < 2 ^ 63 by omega)]
      omega
    · have := ih (by omega) m hm
      omega

/-- A later blob starts where an earlier one has ended, or after. -/
lemma metadataFrom_pairwise {position : Nat} {blobs : List Blob}
    (h : position + (blobs.flatMap Blob.data).length < 2 ^ 63) :
    (metadataFrom sequenceNumber snapshotId position blobs).Pairwise
      (fun a b => a.offset.toInt + a.length.toInt ≤ b.offset.toInt) := by
  induction blobs generalizing position with
  | nil => exact .nil
  | cons blob blobs ih =>
    rw [List.flatMap_cons, List.length_append] at h
    refine .cons ?_ (ih (by omega))
    intro m hm
    have := (@metadataFrom_range sequenceNumber snapshotId (position + blob.data.length) blobs (by omega) m hm).1
    simp only [metadataAt, toInt_ofNat_of_lt (show position < 2 ^ 63 by omega),
      toInt_ofNat_of_lt (show blob.data.length < 2 ^ 63 by omega)]
    omega

/-- The range recorded for a blob holds its bytes. -/
lemma metadataFrom_getElem? {before after : Bytes} {blobs : List Blob} {i : Nat} {blob : Blob}
    (hi : blobs[i]? = some blob) :
    ∃ o, (metadataFrom sequenceNumber snapshotId before.length blobs)[i]? =
        some (metadataAt sequenceNumber snapshotId o blob) ∧
      o + blob.data.length ≤ before.length + (blobs.flatMap Blob.data).length ∧
      ((before ++ blobs.flatMap Blob.data ++ after).drop o).take blob.data.length = blob.data := by
  induction blobs generalizing before i with
  | nil => cases hi
  | cons b blobs ih =>
    cases i with
    | zero =>
      cases hi
      refine ⟨before.length, rfl, by simp, ?_⟩
      simp
    | succ i =>
      obtain ⟨o, h1, h2, h3⟩ := @ih (before ++ b.data) i hi
      refine ⟨o, ?_, ?_, ?_⟩
      · rw [List.length_append] at h1
        exact h1
      · rw [List.length_append] at h2
        rw [List.flatMap_cons, List.length_append]
        omega
      · rw [List.flatMap_cons, ← List.append_assoc before]
        exact h3

end Loop

/-! ### The layout of the file -/

/-- The text of the footer that `Build` writes. -/
def footerText (lib : JsonLibrary) (blobs : List Blob) (sequenceNumber snapshotId : Int64) : Bytes :=
  createFooter lib (builtFooter (metadataFrom sequenceNumber snapshotId 4 blobs))

lemma createFooter_eq (lib : JsonLibrary) (footer : DeserializedFooter) :
    createFooter lib footer = lib.print (serializeFooter footer) :=
  cString_of_notMem (lib.zero_notMem_print _)

lemma wrapInt32_emod (x : Int) : wrapInt32 x % 2 ^ 32 = x % 2 ^ 32 := by
  have h : Int.bmod x (2 ^ 32) % ((2 ^ 32 : Nat) : Int) = x % ((2 ^ 32 : Nat) : Int) := Int.bmod_emod
  exact_mod_cast h

lemma wrapInt32_congr {x y : Int} (h : x % 2 ^ 32 = y % 2 ^ 32) : wrapInt32 x = wrapInt32 y := by
  have h' : x % ((2 ^ 32 : Nat) : Int) = y % ((2 ^ 32 : Nat) : Int) := by exact_mod_cast h
  unfold wrapInt32
  rw [Int.bmod_def, Int.bmod_def, h']

lemma buildBytes_eq (lib : JsonLibrary) (blobs : List Blob) (sequenceNumber snapshotId : Int64) :
    buildBytes lib blobs sequenceNumber snapshotId =
      kPuffinMagicBytes ++ blobs.flatMap Blob.data ++ kPuffinMagicBytes ++
        footerText lib blobs sequenceNumber snapshotId ++
        (leBytes 4 ((footerText lib blobs sequenceNumber snapshotId).length % 2 ^ 32) ++ bytes "0000" ++
          kPuffinMagicBytes) := by
  have hlen : kPuffinMagicBytes.length = 4 := rfl
  have hsize (n : Nat) : (wrapInt32 n % 2 ^ 32).toNat = n % 2 ^ 32 := by
    rw [wrapInt32_emod]
    omega
  simp only [buildBytes, foldl_buildStep, hlen, List.nil_append, hsize, footerText, List.append_assoc]

lemma drop_trailer {front trailer : Bytes} (h : trailer.length = 12) (k : Nat) (hk : k ≤ 12) :
    (front ++ trailer).drop ((front ++ trailer).length - k) = trailer.drop (12 - k) := by
  rw [List.length_append, h, show front.length + 12 - k = front.length + (12 - k) by omega, List.drop_append]
  simp

section Trailer

variable (front : Bytes) (v : Nat)

/-- A file that ends in a size field, the flags that `Build` writes and the magic. -/
lemma trailer_of_build :
    payloadSizeField (front ++ (leBytes 4 v ++ bytes "0000" ++ kPuffinMagicBytes)) = wrapInt32 v ∧
      flagBytes (front ++ (leBytes 4 v ++ bytes "0000" ++ kPuffinMagicBytes)) = bytes "0000" ∧
      (4 ≤ front.length → TrailerAccepted (front ++ (leBytes 4 v ++ bytes "0000" ++ kPuffinMagicBytes))) := by
  have h0 : (bytes "0000").length = 4 := by decide
  have hm : kPuffinMagicBytes.length = 4 := rfl
  have hlen : (leBytes 4 v ++ bytes "0000" ++ kPuffinMagicBytes).length = 12 := by
    simp [h0, hm]
  have hsize : payloadSizeField (front ++ (leBytes 4 v ++ bytes "0000" ++ kPuffinMagicBytes)) = wrapInt32 v := by
    rw [payloadSizeField, drop_trailer hlen 12 le_rfl]
    simp only [Nat.sub_self, List.drop_zero, List.append_assoc]
    rw [List.take_left' (length_leBytes 4 v), ofLeBytes_leBytes]
    apply wrapInt32_congr
    push_cast
    omega
  have hflags : flagBytes (front ++ (leBytes 4 v ++ bytes "0000" ++ kPuffinMagicBytes)) = bytes "0000" := by
    rw [flagBytes, drop_trailer hlen 8 (by omega), List.append_assoc, List.drop_left' (length_leBytes 4 v),
      List.take_left' h0]
  refine ⟨hsize, hflags, fun hf => ⟨?_, ?_, ?_⟩⟩
  · rw [List.length_append, hlen]
    omega
  · rw [drop_trailer hlen 4 (by omega), List.drop_left' (by simp [h0])]
  · rw [hflags]
    decide

end Trailer

/-! ### The round trip -/

/-- A builder with both numbers set and the blobs appended. -/
def puffinBuilderOf (blobs : List Blob) (sequenceNumber snapshotId : Int64) : PuffinFileBuilder :=
  blobs.foldl PuffinFileBuilder.appendBlob
    ((PuffinFileBuilder.new.setSequenceNumber sequenceNumber).setSnapshotId snapshotId)

/-- The bytes that a blob's metadata claims. -/
def blobRange (m : Puffin.BlobMetadata) : Set Int := Set.Ico m.offset.toInt (m.offset.toInt + m.length.toInt)

/-- `Build` returns a file whose bytes are accepted by `Make`, whose footer lists the blobs with
their metadata, whose blobs are returned by number, and whose ranges are disjoint and lie between
the leading magic and the footer. -/
def BuildRoundTrips (lib : JsonLibrary) (blobs : List Blob) (sequenceNumber snapshotId : Int64) : Prop :=
  ∃ file, build lib (puffinBuilderOf blobs sequenceNumber snapshotId) = .ok file ∧ make file.data = .ok file ∧
    (∃ footer, getDeserializedFooter lib file.footer = .ok footer ∧
      List.Forall₂ (fun (m : Puffin.BlobMetadata) (b : Blob) => m.type = b.blobType ∧ m.fields = b.fields ∧
        m.snapshotId = snapshotId ∧ m.sequenceNumber = sequenceNumber ∧ m.properties = b.properties)
        footer.blobs blobs ∧
      footer.blobs.Pairwise (fun a b => Disjoint (blobRange a) (blobRange b)) ∧
      ∀ m ∈ footer.blobs, 4 ≤ m.offset.toInt ∧ 0 ≤ m.length.toInt ∧
        m.offset.toInt + m.length.toInt ≤ file.data.bytes.length - 16 - file.footer.length) ∧
    ∀ i b, blobs[i]? = some b → getBlob lib file i = .ok b.data

/-- The texts of a blob contain no zero byte. -/
def BlobClean (b : Blob) : Prop := (0 : Byte) ∉ b.blobType ∧ PropertiesClean b.properties

lemma foldl_appendBlob (blobs : List Blob) (builder : PuffinFileBuilder) :
    blobs.foldl PuffinFileBuilder.appendBlob builder = { builder with blobs := builder.blobs ++ blobs } := by
  induction blobs generalizing builder with
  | nil => simp
  | cons b blobs ih =>
    rw [List.foldl_cons, ih]
    simp [PuffinFileBuilder.appendBlob]

section RoundTrip

variable (lib : JsonLibrary) {blobs : List Blob} {sequenceNumber snapshotId : Int64}

lemma build_eq (hne : blobs ≠ []) :
    build lib (puffinBuilderOf blobs sequenceNumber snapshotId) =
      if h : (buildBytes lib blobs sequenceNumber snapshotId).length < 2 ^ 63 then
        make ⟨buildBytes lib blobs sequenceNumber snapshotId, h⟩
      else .error "basic_string::append" := by
  have he : (!blobs.isEmpty) = true := by simpa using hne
  rw [puffinBuilderOf, foldl_appendBlob]
  simp only [build, PuffinFileBuilder.new, PuffinFileBuilder.setSequenceNumber, PuffinFileBuilder.setSnapshotId,
    List.nil_append, he, Option.isSome_some, ensure_true, ok_bind, Option.getD_some]
  rfl

lemma make_built (h : (buildBytes lib blobs sequenceNumber snapshotId).length < 2 ^ 63) {file : PuffinFile} :
    make ⟨buildBytes lib blobs sequenceNumber snapshotId, h⟩ = .ok file ↔
      file.data = ⟨buildBytes lib blobs sequenceNumber snapshotId, h⟩ ∧ makeFooter file.data = .ok file.footer := by
  have htake : (buildBytes lib blobs sequenceNumber snapshotId).take 4 = kPuffinMagicBytes := by
    rw [buildBytes_eq, List.append_assoc, List.append_assoc, List.append_assoc]
    exact List.take_left' rfl
  have hlen : ¬(buildBytes lib blobs sequenceNumber snapshotId).length < 4 := by
    have := congrArg List.length htake
    rw [List.length_take] at this
    have hm : kPuffinMagicBytes.length = 4 := rfl
    omega
  unfold make
  rw [if_neg hlen, if_neg (not_not.mpr htake)]
  constructor
  · intro hm
    obtain ⟨f, hf, he⟩ := bind_ok hm
    cases he
    exact ⟨rfl, hf⟩
  · rintro ⟨hd, hf⟩
    rw [← hd, hf]
    rfl

/-- The footer at the end of a built file, for a text that fits in the size field. -/
lemma makeFooter_built (h : (buildBytes lib blobs sequenceNumber snapshotId).length < 2 ^ 63)
    (hL : (footerText lib blobs sequenceNumber snapshotId).length < 2 ^ 31 - 16) :
    makeFooter ⟨buildBytes lib blobs sequenceNumber snapshotId, h⟩ =
      .ok (footerText lib blobs sequenceNumber snapshotId) := by
  set L := (footerText lib blobs sequenceNumber snapshotId).length with hLdef
  obtain ⟨hsize, -, hacc⟩ := trailer_of_build
    (kPuffinMagicBytes ++ blobs.flatMap Blob.data ++ kPuffinMagicBytes ++ footerText lib blobs sequenceNumber snapshotId)
    (L % 2 ^ 32)
  have hm : kPuffinMagicBytes.length = 4 := rfl
  have hn : wrapInt32 ((L % 2 ^ 32 : Nat) : Int) = L := by
    rw [wrapInt32_of_range] <;> omega
  rw [hn] at hsize
  rw [← buildBytes_eq] at hsize hacc
  have h0 : (bytes "0000").length = 4 := by decide
  have hend : FooterAtEnd (buildBytes lib blobs sequenceNumber snapshotId)
      (footerText lib blobs sequenceNumber snapshotId) := by
    refine ⟨kPuffinMagicBytes ++ blobs.flatMap Blob.data, _, buildBytes_eq .., ?_, ?_⟩
    · simp [hm, h0]
    · rw [hsize]
  exact (@makeFooter_ok_of_nonneg ⟨_, h⟩ (hacc (by simp [hm])) L hsize (by omega) (by omega) _).mpr hend

/-- A text that does not fit is not found again: nothing is, or only a proper suffix of it. -/
lemma makeFooter_built_overflow (h : (buildBytes lib blobs sequenceNumber snapshotId).length < 2 ^ 63)
    (hL : 2 ^ 31 - 16 ≤ (footerText lib blobs sequenceNumber snapshotId).length) {p : Bytes}
    (hp : makeFooter ⟨buildBytes lib blobs sequenceNumber snapshotId, h⟩ = .ok p) :
    ∃ t, t ≠ [] ∧ footerText lib blobs sequenceNumber snapshotId = t ++ p := by
  set L := (footerText lib blobs sequenceNumber snapshotId).length with hLdef
  obtain ⟨hsize, hflags, hacc⟩ := trailer_of_build
    (kPuffinMagicBytes ++ blobs.flatMap Blob.data ++ kPuffinMagicBytes ++ footerText lib blobs sequenceNumber snapshotId)
    (L % 2 ^ 32)
  have hm : kPuffinMagicBytes.length = 4 := rfl
  rw [← buildBytes_eq] at hsize hacc hflags
  have hacc' : TrailerAccepted (StdString.mk _ h).bytes := hacc (by simp [hm])
  rcases lt_or_ge (payloadSizeField (buildBytes lib blobs sequenceNumber snapshotId)) 0 with hneg | h0
  · rcases (makeFooter_ok_of_negative hacc' rfl hneg).mp hp with ⟨-, rfl⟩ | ⟨-, hf, -⟩
    · refine ⟨_, ?_, (List.append_nil _).symm⟩
      intro he
      rw [he] at hLdef
      simp only [List.length_nil] at hLdef
      omega
    · rw [hflags] at hf
      exact absurd hf (by decide)
  · rcases lt_or_ge (payloadSizeField (buildBytes lib blobs sequenceNumber snapshotId)) (2 ^ 31 - 16) with hlt | hge
    · obtain ⟨front, trailer, hd, ht, hlen⟩ := (makeFooter_ok_of_nonneg hacc' rfl h0 hlt).mp hp
      replace hlen : (p.length : Int) = payloadSizeField (buildBytes lib blobs sequenceNumber snapshotId) := hlen
      have hd' := buildBytes_eq lib blobs sequenceNumber snapshotId
      have h4 : (bytes "0000").length = 4 := by decide
      have heq := (List.append_inj' (hd'.symm.trans hd) (by simp [hm, h4, ht])).1
      have hs1 : p <:+ front ++ kPuffinMagicBytes ++ p := List.suffix_append _ _
      have hs2 : footerText lib blobs sequenceNumber snapshotId <:+ front ++ kPuffinMagicBytes ++ p := by
        rw [← heq]
        exact List.suffix_append _ _
      obtain ⟨t, ht⟩ := List.suffix_of_suffix_length_le hs1 hs2 (by omega)
      refine ⟨t, ?_, ht.symm⟩
      rintro rfl
      rw [List.nil_append] at ht
      rw [ht] at hlen
      omega
    · obtain ⟨e, he⟩ := makeFooter_error_of_large hacc' rfl hge
      rw [he] at hp
      cases hp

lemma length_buildBytes : (buildBytes lib blobs sequenceNumber snapshotId).length =
    (blobs.flatMap Blob.data).length + (footerText lib blobs sequenceNumber snapshotId).length + 20 := by
  have hm : kPuffinMagicBytes.length = 4 := rfl
  have h0 : (bytes "0000").length = 4 := by decide
  rw [buildBytes_eq]
  simp only [List.length_append, hm, h0, length_leBytes]
  omega

lemma cutProperties_builtFooter (metas : List Puffin.BlobMetadata) :
    cutProperties (builtFooter metas).properties = (builtFooter metas).properties := by
  apply cutProperties_of_clean
  have hcreated : PropertiesClean ((∅ : OrdMap Bytes Bytes).insert (bytes "created-by") (bytes "iceberg-cpp")) := by
    unfold PropertiesClean
    decide
  exact hcreated

/-- The footer text is read back into the footer it was made from, up to zero bytes. -/
lemma getDeserializedFooter_built :
    getDeserializedFooter lib (footerText lib blobs sequenceNumber snapshotId) =
      .ok (builtFooter ((metadataFrom sequenceNumber snapshotId 4 blobs).map cutMetadata)) := by
  rw [getDeserializedFooter, footerText, createFooter_eq, lib.parse_print, Option.getD_some,
    deserializeFooter_serialize, cutProperties_builtFooter]
  rfl

lemma map_cutMetadata_of_clean (hclean : ∀ b ∈ blobs, BlobClean b) :
    (metadataFrom sequenceNumber snapshotId 4 blobs).map cutMetadata =
      metadataFrom sequenceNumber snapshotId 4 blobs := by
  conv_rhs => rw [← List.map_id (metadataFrom sequenceNumber snapshotId 4 blobs)]
  apply List.map_congr_left
  intro m hm
  obtain ⟨o, b, hb, rfl⟩ := exists_of_mem_metadataFrom _ _ hm
  exact cutMetadata_of_clean ⟨(hclean b hb).1, fun s hs => (by cases hs), (hclean b hb).2⟩

/-- A blob of a built file, by its number, and its metadata. -/
lemma getBlob_built (h : (buildBytes lib blobs sequenceNumber snapshotId).length < 2 ^ 63) {i : Nat} {b : Blob}
    (hi : blobs[i]? = some b) :
    getBlob lib ⟨⟨buildBytes lib blobs sequenceNumber snapshotId, h⟩, footerText lib blobs sequenceNumber snapshotId⟩ i =
        .ok b.data ∧
      ∃ o, getBlobMetadata lib (footerText lib blobs sequenceNumber snapshotId) i =
        .ok (cutMetadata (metadataAt sequenceNumber snapshotId o b)) := by
  have hlen := @length_buildBytes lib blobs sequenceNumber snapshotId
  have heq := buildBytes_eq lib blobs sequenceNumber snapshotId
  rw [List.append_assoc, List.append_assoc (kPuffinMagicBytes ++ _)] at heq
  obtain ⟨o, hmeta, hfit, hslice⟩ := @metadataFrom_getElem? sequenceNumber snapshotId kPuffinMagicBytes
    (kPuffinMagicBytes ++ (footerText lib blobs sequenceNumber snapshotId ++
      (leBytes 4 ((footerText lib blobs sequenceNumber snapshotId).length % 2 ^ 32) ++ bytes "0000" ++
        kPuffinMagicBytes))) blobs i b hi
  rw [← heq] at hslice
  have hm : kPuffinMagicBytes.length = 4 := rfl
  rw [hm] at hmeta hfit
  have ho := toInt_ofNat_of_lt (show o < 2 ^ 63 by omega)
  have hl := toInt_ofNat_of_lt (show b.data.length < 2 ^ 63 by omega)
  have hsum : toSizeT (wrapInt64 (o + b.data.length)) = o + b.data.length := by
    rw [wrapInt64_of_inInt64 (by unfold InInt64 int64Min int64Max; omega), toSizeT]
    omega
  have hnat : ∀ n : Nat, n < 2 ^ 63 → toSizeT n = n := by
    intro n hn
    unfold toSizeT
    omega
  have hget : getBlobMetadata lib (footerText lib blobs sequenceNumber snapshotId) i =
      .ok (cutMetadata (metadataAt sequenceNumber snapshotId o b)) := by
    simp only [getBlobMetadata, getDeserializedFooter_built lib, ok_bind, builtFooter, List.getElem?_map, hmeta,
      Option.map_some]
  refine ⟨?_, o, hget⟩
  simp only [getBlob, hget, ok_bind, cutMetadata, metadataAt, ho, hl, hsum]
  rw [if_pos ⟨by omega, by omega, by omega⟩, hnat o (by omega), hnat _ (by omega), substr, if_neg (by omega), hslice]

/-- The built file when the footer text fits. -/
lemma build_ok (hne : blobs ≠ []) (hsz : (buildBytes lib blobs sequenceNumber snapshotId).length < 2 ^ 63)
    (hL : (footerText lib blobs sequenceNumber snapshotId).length < 2 ^ 31 - 16) :
    make ⟨buildBytes lib blobs sequenceNumber snapshotId, hsz⟩ =
        .ok ⟨⟨buildBytes lib blobs sequenceNumber snapshotId, hsz⟩, footerText lib blobs sequenceNumber snapshotId⟩ ∧
      build lib (puffinBuilderOf blobs sequenceNumber snapshotId) =
        .ok ⟨⟨buildBytes lib blobs sequenceNumber snapshotId, hsz⟩, footerText lib blobs sequenceNumber snapshotId⟩ := by
  have hmake := (@make_built lib blobs sequenceNumber snapshotId hsz
    ⟨⟨_, hsz⟩, footerText lib blobs sequenceNumber snapshotId⟩).mpr ⟨rfl, makeFooter_built lib hsz hL⟩
  refine ⟨hmake, ?_⟩
  rw [build_eq lib hne, dif_pos hsz]
  exact hmake

/-- A footer text that does not fit is not read again. -/
lemma length_lt_of_build {file : PuffinFile} {footer : DeserializedFooter} (hne : blobs ≠ [])
    (hb : build lib (puffinBuilderOf blobs sequenceNumber snapshotId) = .ok file)
    (hf : getDeserializedFooter lib file.footer = .ok footer) :
    (footerText lib blobs sequenceNumber snapshotId).length < 2 ^ 31 - 16 ∧
      (buildBytes lib blobs sequenceNumber snapshotId).length < 2 ^ 63 := by
  rw [build_eq lib hne] at hb
  split_ifs at hb with hsz
  refine ⟨?_, hsz⟩
  by_contra hL
  obtain ⟨hd, hmake⟩ := (make_built lib hsz).mp hb
  rw [hd] at hmake
  obtain ⟨t, ht, hsuf⟩ := makeFooter_built_overflow lib hsz (by omega) hmake
  rw [footerText, createFooter_eq] at hsuf
  rw [getDeserializedFooter, lib.parse_suffix _ _ _ hsuf ht] at hf
  cases hf

lemma BuildRoundTrips.length_lt (hne : blobs ≠ []) (h : BuildRoundTrips lib blobs sequenceNumber snapshotId) :
    (footerText lib blobs sequenceNumber snapshotId).length < 2 ^ 31 - 16 ∧
      (buildBytes lib blobs sequenceNumber snapshotId).length < 2 ^ 63 := by
  obtain ⟨file, hb, -, ⟨footer, hf, -⟩, -⟩ := h
  exact length_lt_of_build lib hne hb hf

/-- A built file is read back exactly when the footer text fits in the signed 32-bit size field
next to the sixteen other bytes, and the file in a `std::string`. -/
theorem build_roundTrips_iff (hne : blobs ≠ []) (hclean : ∀ b ∈ blobs, BlobClean b) :
    BuildRoundTrips lib blobs sequenceNumber snapshotId ↔
      (footerText lib blobs sequenceNumber snapshotId).length < 2 ^ 31 - 16 ∧
        (blobs.flatMap Blob.data).length + (footerText lib blobs sequenceNumber snapshotId).length + 20 < 2 ^ 63 := by
  have hlen := @length_buildBytes lib blobs sequenceNumber snapshotId
  rw [← hlen]
  constructor
  · exact fun h => h.length_lt lib hne
  · rintro ⟨hL, hsz⟩
    obtain ⟨hmake, hbuild⟩ := build_ok lib hne hsz hL
    have hfooter := @getDeserializedFooter_built lib blobs sequenceNumber snapshotId
    rw [map_cutMetadata_of_clean hclean] at hfooter
    refine ⟨_, hbuild, hmake, ⟨_, hfooter, ?_, ?_, ?_⟩, fun i b hi => (getBlob_built lib hsz hi).1⟩
    · refine (metadataFrom_forall₂ sequenceNumber snapshotId 4 blobs).imp ?_
      rintro m b ⟨o, rfl⟩
      exact ⟨rfl, rfl, rfl, rfl, rfl⟩
    · refine (metadataFrom_pairwise sequenceNumber snapshotId (by omega)).imp ?_
      intro a b hab
      rw [Set.disjoint_left]
      intro x hx hy
      have h1 := hx.2
      have h2 := hy.1
      omega
    · intro m hm
      obtain ⟨h1, h2, h3⟩ := metadataFrom_range sequenceNumber snapshotId (by omega) m hm
      refine ⟨h1, h2, ?_⟩
      simp only
      omega

end RoundTrip

/-- A small blob. -/
def oneBlob : Blob :=
  { data := bytes "blob-data"
    properties := ∅
    fields := [1]
    blobType := bytes "t" }

lemma oneBlob_clean : ∀ b ∈ [oneBlob], BlobClean b := by
  unfold BlobClean PropertiesClean
  decide

lemma oneBlob_footerText : (footerText compactJson [oneBlob] 2 1).length = 178 := by
  decide +kernel

theorem oneBlob_roundTrips : BuildRoundTrips compactJson [oneBlob] 2 1 :=
  (build_roundTrips_iff compactJson (by decide) oneBlob_clean).mpr
    ⟨by rw [oneBlob_footerText]; norm_num, by rw [oneBlob_footerText]; decide⟩

/-- A blob with a property of a given length. -/
def longPropertyBlob (n : Nat) : Blob :=
  { data := []
    properties := (∅ : OrdMap Bytes Bytes).insert (bytes "k") (List.replicate n 97)
    fields := []
    blobType := bytes "t" }

lemma length_le_escape (s : Bytes) : s.length ≤ (Json.escape s).length := by
  induction s with
  | nil => exact le_rfl
  | cons c s ih =>
    have hc : 1 ≤ (Json.escapeByte c).length := by
      unfold Json.escapeByte
      split
      · simp
      · split_ifs <;> simp
    rw [Json.escape, List.length_append, List.length_cons]
    omega

lemma longPropertyBlob_clean (n : Nat) : ∀ b ∈ [longPropertyBlob n], BlobClean b := by
  intro b hb
  rw [List.mem_singleton.mp hb]
  refine ⟨by simp [longPropertyBlob]; decide, ?_⟩
  intro p hp
  have he : (longPropertyBlob n).properties.entries = [(bytes "k", List.replicate n 97)] := rfl
  rw [he, List.mem_singleton] at hp
  rw [hp]
  have hk : (0 : Byte) ∉ bytes "k" := by decide
  refine ⟨hk, ?_⟩
  intro h
  exact absurd (List.eq_of_mem_replicate h) (by decide)

lemma le_longPropertyBlob_footerText (n : Nat) : n ≤ (footerText compactJson [longPropertyBlob n] 2 1).length := by
  have hz : (0 : Byte) ∉ List.replicate n (97 : Byte) := by
    intro h
    exact absurd (List.eq_of_mem_replicate h) (by decide)
  have hp : serializeProperties (longPropertyBlob n).properties =
      .object [(cString (bytes "k"), .string (List.replicate n 97))] := by
    have he : (longPropertyBlob n).properties.entries = [(bytes "k", List.replicate n 97)] := rfl
    rw [serializeProperties, he, List.map_cons, List.map_nil, serializeString, cString_of_notMem hz]
  have hs := length_le_escape (List.replicate n 97)
  rw [List.length_replicate] at hs
  rw [footerText, createFooter_eq]
  simp only [compactJson, serializeFooter, footerMembers, builtFooter, metadataFrom, metadataAt, List.map_cons,
    List.map_nil, serializeBlob, blobMembers, hp, Json.print, Json.printMembers, Json.printElements, Json.printString,
    List.length_append, List.length_cons]
  omega

/-- The round trip fails for a property of two gibibytes: the size field cannot hold the length
of the footer. -/
theorem longPropertyBlob_not_roundTrips :
    ¬∀ blobs : List Blob, blobs ≠ [] → (∀ b ∈ blobs, BlobClean b) → BuildRoundTrips compactJson blobs 2 1 := by
  intro hall
  have h := hall [longPropertyBlob (2 ^ 31)] (by simp) (longPropertyBlob_clean _)
  have hlt := (h.length_lt compactJson (by simp)).1
  have hge := le_longPropertyBlob_footerText (2 ^ 31)
  omega

/-! ### The file format -/

/-- The Puffin grammar `Magic Blob* Magic FooterPayload FooterPayloadSize Flags Magic`: the size is
a little-endian `int32`, bit zero of the first flag byte says whether the payload is compressed,
and all other bits of the flags are zero. -/
def PuffinGrammar (data : Bytes) (compressed : Bool) : Prop :=
  ∃ (blobs : List Bytes) (payload : Bytes),
    data = kPuffinMagicBytes ++ blobs.flatten ++ kPuffinMagicBytes ++ payload ++
      (leBytes 4 payload.length ++ [if compressed then 1 else 0, 0, 0, 0] ++ kPuffinMagicBytes) ∧
    payload.length < 2 ^ 31

/-- What `Build` returns ends in the flags `0000` as text. -/
lemma build_flagBytes {lib : JsonLibrary} {builder : PuffinFileBuilder} {file : PuffinFile}
    (h : build lib builder = .ok file) : flagBytes file.data.bytes = bytes "0000" := by
  unfold build at h
  obtain ⟨-, -, h⟩ := bind_ok h
  obtain ⟨-, -, h⟩ := bind_ok h
  obtain ⟨-, -, h⟩ := bind_ok h
  replace h : (if h : (buildBytes lib builder.blobs (builder.sequenceNumber.getD 0)
      (builder.snapshotId.getD 0)).length < 2 ^ 63 then make ⟨_, h⟩ else .error "basic_string::append") = .ok file := h
  split_ifs at h with hsz
  rw [((make_built lib hsz).mp h).1]
  simp only
  rw [buildBytes_eq]
  exact (trailer_of_build _ _).2.1

lemma not_grammar_of_flagBytes {data : Bytes} (h : flagBytes data = bytes "0000") : ¬PuffinGrammar data false := by
  rintro ⟨blobs, payload, hd, -⟩
  have hm : kPuffinMagicBytes.length = 4 := rfl
  rw [hd, flagBytes, drop_trailer (by simp [hm]) 8 (by omega), List.append_assoc,
    List.drop_left' (length_leBytes 4 payload.length)] at h
  exact absurd h (by decide)

/-- No file that `Build` returns conforms to the grammar: reserved bits of its flags are set. -/
theorem build_not_conforms {lib : JsonLibrary} {builder : PuffinFileBuilder} {file : PuffinFile}
    (h : build lib builder = .ok file) : ¬PuffinGrammar file.data.bytes false :=
  not_grammar_of_flagBytes (build_flagBytes h)

lemma oneBlob_build : ∃ file, build compactJson (puffinBuilderOf [oneBlob] 2 1) = .ok file := by
  have hsz : (buildBytes compactJson [oneBlob] 2 1).length < 2 ^ 63 := by
    rw [length_buildBytes, oneBlob_footerText]
    decide
  exact ⟨_, (build_ok compactJson (by simp) hsz (by rw [oneBlob_footerText]; norm_num)).2⟩

theorem oneBlob_file_not_conforms :
    ∃ file, build compactJson (puffinBuilderOf [oneBlob] 2 1) = .ok file ∧ ¬PuffinGrammar file.data.bytes false := by
  obtain ⟨file, h⟩ := oneBlob_build
  exact ⟨file, h, build_not_conforms h⟩

/-- A file that `Build` returns and the grammar refuses. -/
theorem oneBlob_flags_refused :
    ¬∀ file, build compactJson (puffinBuilderOf [oneBlob] 2 1) = .ok file → PuffinGrammar file.data.bytes false := by
  intro hall
  obtain ⟨file, h⟩ := oneBlob_build
  exact not_grammar_of_flagBytes (build_flagBytes h) (hall file h)

end IcebergCxx.Proofs

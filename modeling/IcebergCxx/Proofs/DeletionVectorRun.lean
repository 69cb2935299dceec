import IcebergCxx.Proofs.DeletionVectorApplier

/-!
# A deletion vector is a set of positions

Whatever is called on a vector, it answers as the set of its positions does, and it still does after
it was stored in a Puffin file and opened again by the place of its blob.
-/

namespace IcebergCxx.Proofs

open Lib Puffin DeletionVector

/-! ### The set -/

/-- The positions after a call. -/
def positionsAfter (s : Set UInt64) : Operation → Set UInt64
  | .add x => insert x s
  | .remove x => s \ {x}
  | .addMany vals => s ∪ {y | y ∈ vals}
  | .addRange l r => s ∪ {y | l ≤ y ∧ y ≤ r}
  | .removeRange l r => s \ {y | l ≤ y ∧ y ≤ r}
  | .clear => ∅
  | _ => s

/-- `value` is an end of the set, nothing when the set is empty. -/
def IsEnd (isEnd : Set UInt64 → UInt64 → Prop) (s : Set UInt64) : Option UInt64 → Prop
  | none => s = ∅
  | some x => isEnd s x

/-- What a call on a set may return. A blob, if there is one, holds the positions. -/
def AnswersAsSet (roaring : RoaringLibrary) (s : Set UInt64) : Operation → Answer → Prop
  | .add x, .flag value => value = true ↔ x ∉ s
  | .remove x, .flag value => value = true ↔ x ∈ s
  | .contains x, .flag value => value = true ↔ x ∈ s
  | .empty, .flag value => value = true ↔ s = ∅
  | .max, .position value => IsEnd IsGreatest s value
  | .min, .position value => IsEnd IsLeast s value
  | .addMany _, .done => True
  | .addRange _ _, .done => True
  | .removeRange _ _, .done => True
  | .clear, .done => True
  | .getBlob, .blob value => ∀ data, value = .ok data →
      ∃ b, roaring.readSafe ((data.drop kDataOffset).take (data.length - 12)) = .ok b ∧ ↑(roaring.elems b) = s
  | .getProperties, .properties value =>
      s.ncard < 2 ^ 64 → value.find? kCardinality = some (toDecimal s.ncard)
  | _, _ => False

def setAfter (s : Set UInt64) (operations : List Operation) : Set UInt64 := operations.foldl positionsAfter s

/-- Every call returns what the set at that moment may return. -/
def AnswersAllAsSet (roaring : RoaringLibrary) (s : Set UInt64) : List Operation → List Answer → Prop
  | [], [] => True
  | operation :: operations, answer :: answers =>
    AnswersAsSet roaring s operation answer ∧ AnswersAllAsSet roaring (positionsAfter s operation) operations answers
  | _, _ => False

section

variable {roaring : RoaringLibrary} {s : Set UInt64} {first second : List Operation} {answers answers' : List Answer}

lemma setAfter_append : setAfter s (first ++ second) = setAfter (setAfter s first) second :=
  List.foldl_append

lemma AnswersAllAsSet.append (h : AnswersAllAsSet roaring s first answers)
    (h' : AnswersAllAsSet roaring (setAfter s first) second answers') :
    AnswersAllAsSet roaring s (first ++ second) (answers ++ answers') := by
  induction first generalizing s answers with
  | nil =>
    cases answers with
    | nil => exact h'
    | cons answer answers => exact h.elim
  | cons operation first ih =>
    cases answers with
    | nil => exact h.elim
    | cons answer answers => exact ⟨h.1, ih h.2 h'⟩

end

/-! ### Calls and runs -/

section

variable {roaring : RoaringLibrary} {operations : RoaringOperations roaring} {crc32 : Bytes → UInt32}
  {dv : DeletionVector roaring}

/-- The positions that a vector stands for. -/
def positionSet (dv : DeletionVector roaring) : Set UInt64 := ↑(roaring.elems dv.bitmap)

lemma mem_positionSet {x : UInt64} : x ∈ positionSet dv ↔ x ∈ roaring.elems dv.bitmap := Iff.rfl

lemma positionSet_eq_empty_iff : positionSet dv = ∅ ↔ roaring.elems dv.bitmap = ∅ := Finset.coe_eq_empty

lemma positionSet_shrunk : positionSet dv.shrunk = positionSet dv := by
  rw [positionSet, elems_shrunk]
  rfl

/-- The payload of a blob lies between its eight leading bytes and its checksum. -/
lemma payload_serialize : ((dv.serialize crc32).drop kDataOffset).take ((dv.serialize crc32).length - 12) =
    roaring.write dv.bitmap := by
  have hm : kMagicSequence.length = 4 := rfl
  have hsize : (dv.serialize crc32).length - 12 = (roaring.write dv.bitmap).length := by
    rw [length_serialize, RoaringLibrary.getSizeInBytes]
    omega
  rw [hsize, serialize_eq, kDataOffset, ← List.append_assoc, List.drop_left']
  · exact List.take_left
  · rw [List.length_append, length_uiToLittleEndianBytes, hm]

lemma getBlob_answered : AnswersAsSet roaring (positionSet dv) .getBlob (.blob ((dv.getBlob crc32).map Prod.fst)) := by
  intro data hdata
  rw [DeletionVector.getBlob] at hdata
  cases hfits : decide (4 + roaring.getSizeInBytes dv.shrunk.bitmap ≤ 2 ^ 32 - 1) with
  | false =>
    rw [hfits] at hdata
    cases hdata
  | true =>
    rw [hfits] at hdata
    cases hdata
    obtain ⟨b, hread, helems⟩ := roaring.readSafe_write dv.shrunk.bitmap
    refine ⟨b, ?_, ?_⟩
    · rw [payload_serialize]
      exact hread
    · rw [helems]
      exact positionSet_shrunk

lemma getProperties_answered : AnswersAsSet roaring (positionSet dv) .getProperties (.properties dv.getProperties) := by
  intro hcard
  rw [positionSet, Set.ncard_coe_finset] at hcard ⊢
  rw [getProperties, OrdMap.find?_insert, if_pos rfl, cardinality_toNat hcard]

lemma end_answered {isEnd : Set UInt64 → UInt64 → Prop} {x : UInt64}
    (h : (roaring.elems dv.bitmap).Nonempty → isEnd (positionSet dv) x) :
    IsEnd isEnd (positionSet dv) (if dv.empty operations then none else some x) := by
  have hempty := operations.isEmpty_iff dv.bitmap
  split_ifs with he
  · exact positionSet_eq_empty_iff.mpr (hempty.mp he)
  · exact h (Finset.nonempty_iff_ne_empty.mpr (fun hnone => he (hempty.mpr hnone)))

lemma positionSet_call (operation : Operation) :
    positionSet (dv.call operations crc32 operation).1 = positionsAfter (positionSet dv) operation := by
  cases operation with
  | add x =>
    simp only [DeletionVector.call, DeletionVector.add, positionSet, operations.elems_addChecked, positionsAfter,
      Finset.coe_insert]
  | remove x =>
    simp only [DeletionVector.call, DeletionVector.remove, positionSet, operations.elems_removeChecked,
      positionsAfter, Finset.coe_erase]
  | addMany vals =>
    ext y
    exact operations.mem_addMany dv.bitmap vals y
  | addRange l r =>
    ext y
    exact operations.mem_addRangeClosed dv.bitmap l r y
  | removeRange l r =>
    ext y
    exact operations.mem_removeRangeClosed dv.bitmap l r y
  | clear =>
    simp only [DeletionVector.call, DeletionVector.clear, positionSet, operations.elems_clear, positionsAfter,
      Finset.coe_empty]
  | getBlob => exact positionSet_shrunk
  | contains x => rfl
  | empty => rfl
  | max => rfl
  | min => rfl
  | getProperties => rfl

lemma call_answered (operation : Operation) :
    AnswersAsSet roaring (positionSet dv) operation (dv.call operations crc32 operation).2 := by
  cases operation with
  | add x => exact operations.addChecked_new dv.bitmap x
  | remove x => exact operations.removeChecked_found dv.bitmap x
  | contains x => exact decide_eq_true_iff
  | addMany vals => trivial
  | addRange l r => trivial
  | removeRange l r => trivial
  | clear => trivial
  | empty => exact (operations.isEmpty_iff dv.bitmap).trans positionSet_eq_empty_iff.symm
  | max => exact end_answered (operations.maximum_greatest dv.bitmap)
  | min => exact end_answered (operations.minimum_least dv.bitmap)
  | getBlob => exact getBlob_answered
  | getProperties => exact getProperties_answered

/-- A run on a vector is a run on its set. -/
lemma run_refinesSet (calls : List Operation) :
    positionSet (dv.run operations crc32 calls).1 = setAfter (positionSet dv) calls ∧
      AnswersAllAsSet roaring (positionSet dv) calls (dv.run operations crc32 calls).2 := by
  induction calls generalizing dv with
  | nil => exact ⟨rfl, trivial⟩
  | cons operation calls ih =>
    obtain ⟨hset, hanswers⟩ := @ih (dv.call operations crc32 operation).1
    rw [positionSet_call] at hset hanswers
    exact ⟨hset, call_answered operation, hanswers⟩

/-- No call takes a property away, and only the number of positions is written. -/
lemma find?_properties_call (operation : Operation) {k : Bytes} (hk : k ≠ kCardinality) :
    (dv.call operations crc32 operation).1.properties.find? k = dv.properties.find? k := by
  cases operation with
  | getProperties =>
    change dv.getProperties.find? k = _
    rw [getProperties, OrdMap.find?_insert, if_neg hk]
  | getBlob => exact congrArg (OrdMap.find? · k) properties_shrunk
  | _ => rfl

lemma find?_properties_run (calls : List Operation) {k : Bytes} (hk : k ≠ kCardinality) :
    (dv.run operations crc32 calls).1.properties.find? k = dv.properties.find? k := by
  induction calls generalizing dv with
  | nil => rfl
  | cons operation calls ih => exact ih.trans (find?_properties_call operation hk)

end

/-! ### Through a Puffin file -/

section

variable {roaring : RoaringLibrary} (lib : JsonLibrary) (crc32 : Bytes → UInt32) {blobs : List Blob}
  {sequenceNumber snapshotId : Int64}

/-- Both readers find the footer of a built file. -/
lemma readFooter_built (h : (buildBytes lib blobs sequenceNumber snapshotId).length < 2 ^ 63)
    (hL : (footerText lib blobs sequenceNumber snapshotId).length < 2 ^ 31 - 16)
    (reader : RandomAccessFile ⟨buildBytes lib blobs sequenceNumber snapshotId, h⟩) :
    readFooter reader = .ok (footerText lib blobs sequenceNumber snapshotId) := by
  have hmake := makeFooter_built lib h hL
  have hm : kPuffinMagicBytes.length = 4 := rfl
  have hsize : payloadSizeField (buildBytes lib blobs sequenceNumber snapshotId) =
      (footerText lib blobs sequenceNumber snapshotId).length := by
    rw [buildBytes_eq, (trailer_of_build _ _).1, wrapInt32_of_range] <;> omega
  have hread : ¬SizeFieldMisread (buildBytes lib blobs sequenceNumber snapshotId) := by
    rintro ⟨-, hminus | ⟨hminus, -⟩ | ⟨hlarge, -⟩⟩
    · omega
    · omega
    · omega
  rw [readFooter_ok_iff]
  exact (makeFooter_ok_iff_of_not_misread hread).mp hmake

/-- A blob is found by its place: an earlier one that starts there is empty. -/
lemma find?_metadata {i : Nat} {b : Blob} (hne : b.data ≠ [])
    (h : 4 + (blobs.flatMap Blob.data).length < 2 ^ 63) (hlen : b.data.length < 2 ^ 63) {o : Nat}
    (ho : (metadataFrom sequenceNumber snapshotId 4 blobs)[i]? = some (metadataAt sequenceNumber snapshotId o b)) :
    (metadataFrom sequenceNumber snapshotId 4 blobs).find?
        (fun m => m.offset = Int64.ofNat o ∧ m.length = Int64.ofNat b.data.length) =
      some (metadataAt sequenceNumber snapshotId o b) := by
  have hpair := @metadataFrom_pairwise sequenceNumber snapshotId 4 blobs h
  obtain ⟨hlt, hget⟩ := List.getElem?_eq_some_iff.mp ho
  rw [List.find?_eq_some_iff_getElem]
  refine ⟨by simp [metadataAt], i, hlt, hget, fun j hj => ?_⟩
  have hbefore := List.pairwise_iff_getElem.mp hpair j i (hj.trans hlt) hlt hj
  rw [hget] at hbefore
  rw [Bool.not_eq_true', decide_eq_false_iff_not]
  rintro ⟨hoffset, hsame⟩
  rw [hoffset, hsame, toInt_ofNat_of_lt hlen] at hbefore
  have hpos : 0 < b.data.length := List.length_pos_iff.mpr hne
  simp only [metadataAt] at hbefore
  omega

variable {dv : DeletionVector roaring} {before after : List Blob}

/-- A vector that was stored is opened by the place of its blob, whatever is stored next to it. -/
lemma openDeletionVector_built (hfit : VectorFits dv) (href : dv.properties.contains kReferencedDataFile = true)
    (h : Storable lib crc32 dv before after sequenceNumber snapshotId) :
    ∃ file m, build lib (puffinBuilderOf (before ++ writtenBlob crc32 dv :: after) sequenceNumber snapshotId) = .ok file ∧
      getBlobMetadata lib file.footer before.length = .ok m ∧
      ∀ (opener : Bytes → Except String (Σ contents : StdString, RandomAccessFile contents)) (path : Bytes)
        (reader : RandomAccessFile file.data), opener path = .ok ⟨file.data, reader⟩ →
        ∃ opened, FileReaderProvider.openDeletionVector roaring crc32 lib opener path m.offset m.length = .ok opened ∧
          positionSet opened = positionSet dv := by
  obtain ⟨hkeys, hL, hsz⟩ := h
  rw [← length_buildBytes] at hsz
  obtain ⟨-, hbuilt⟩ := build_ok lib (by simp) hsz hL
  have hlength := @length_buildBytes lib (before ++ writtenBlob crc32 dv :: after) sequenceNumber snapshotId
  have heq := buildBytes_eq lib (before ++ writtenBlob crc32 dv :: after) sequenceNumber snapshotId
  rw [List.append_assoc, List.append_assoc (kPuffinMagicBytes ++ _)] at heq
  obtain ⟨o, hmeta, hin, hslice⟩ := @metadataFrom_getElem? sequenceNumber snapshotId kPuffinMagicBytes
    _ (before ++ writtenBlob crc32 dv :: after) before.length (writtenBlob crc32 dv) (getElem?_middle _)
  rw [← heq] at hslice
  have hm : kPuffinMagicBytes.length = 4 := rfl
  rw [hm] at hmeta hin
  have hdata : (writtenBlob crc32 dv).data = dv.shrunk.serialize crc32 := rfl
  have hserialized := @length_serialize roaring crc32 dv.shrunk
  rw [← hdata] at hserialized
  have hne : (writtenBlob crc32 dv).data ≠ [] := List.ne_nil_of_length_pos (by omega)
  obtain ⟨m, hcut⟩ : ∃ m, cutMetadata (metadataAt sequenceNumber snapshotId o (writtenBlob crc32 dv)) = m := ⟨_, rfl⟩
  refine ⟨_, m, hbuilt, ?_, ?_⟩
  · simp only [getBlobMetadata, getDeserializedFooter_built lib, ok_bind, builtFooter, List.getElem?_map, hmeta,
      Option.map_some, hcut]
  intro opener path reader hopen
  have hlen : (writtenBlob crc32 dv).data.length < 2 ^ 63 := by omega
  have hfind := find?_metadata hne (by omega) hlen hmeta
  have hfound : (builtFooter ((metadataFrom sequenceNumber snapshotId 4 (before ++ writtenBlob crc32 dv :: after)).map
      cutMetadata)).blobs.find? (fun blob => blob.offset = m.offset ∧ blob.length = m.length) = some m := by
    rw [builtFooter, List.find?_map, ← hcut]
    exact congrArg (Option.map cutMetadata) hfind
  have hread : reader.readAt m.offset.toInt m.length.toInt = .ok (dv.shrunk.serialize crc32) := by
    rw [← hcut, cutMetadata, metadataAt, toInt_ofNat_of_lt (by omega), toInt_ofNat_of_lt hlen, reader.readAt_ok, hslice,
      hdata]
    change _ ≤ (buildBytes lib (before ++ writtenBlob crc32 dv :: after) sequenceNumber snapshotId).length
    omega
  obtain ⟨opened, hacc, helems⟩ := blobAccepted_serialize
    (m := cutMetadata (metadataAt sequenceNumber snapshotId o (writtenBlob crc32 dv))) crc32 hfit.shrunk
    (toSizeT_ofNat hlen) (find?_cardinality hfit)
  have htype : cString kBlobType = kBlobType := by decide
  have hof := ofBlob_ok_iff.mpr ⟨⟨htype, contains_referenced href, contains_codec_iff.mpr hkeys, rfl⟩, hacc⟩
  refine ⟨opened, ?_, ?_⟩
  · rw [FileReaderProvider.openDeletionVector, hopen, ok_bind, readFooter_built lib hsz hL, ok_bind,
      getDeserializedFooter_built, ok_bind, hfound]
    dsimp only
    rw [hread, ok_bind, ← hcut]
    exact hof
  · rw [positionSet, helems]
    exact positionSet_shrunk

end

end IcebergCxx.Proofs

import IcebergCxx.ManifestList

/-!
# Manifest lists are read back as they were written

The conversions to and from the generated record are inverse to each other, and the declared schema
is that of the generated codec, so the codec's round trip through a file carries over to the list.
-/

namespace IcebergCxx.Proofs

open Lib

lemma schemaOfJson_kManifestListSchemaJson :
    schemaOfJson kManifestListSchemaJson.depth kManifestListSchemaJson = some Generated.manifestFileCodec.schema := by
  rfl

lemma manifestListSchema_eq (avro : AvroLibrary) :
    manifestListSchema avro = .ok Generated.manifestFileCodec.schema :=
  avro.compile_ok _ _ schemaOfJson_kManifestListSchemaJson

lemma boundOf_getD (bound : Bytes) : (boundOf bound).getD [] = bound := by
  unfold boundOf
  by_cases h : bound.length = 0
  · rw [if_neg (by simpa using h), List.length_eq_zero_iff.mp h]
    rfl
  · rw [if_pos h]
    rfl

/-- An absent list of summaries and an empty one are the same to the reader. -/
lemma readPartitions_writePartitions (partitions : List PartitionFieldSummary) :
    readPartitions (writePartitions partitions) = partitions := by
  unfold writePartitions
  by_cases h : partitions = []
  · rw [if_pos h, h]
    rfl
  · rw [if_neg h]
    simp only [readPartitions, List.map_map]
    apply List.map_id''
    intro p
    simp only [Function.comp_apply, boundOf_getD]

lemma readManifestFile_writeManifestFile (manifest : ManifestFile) :
    readManifestFile (writeManifestFile manifest) = manifest := by
  have hcontent : (if (if manifest.content = .data then (0 : Int32) else 1) = 0 then ManifestContent.data else .deletes) =
      manifest.content := by
    cases manifest.content <;> rfl
  unfold readManifestFile writeManifestFile
  dsimp only
  rw [hcontent, readPartitions_writePartitions, ite_self, ite_self, ite_self]

/-- What `WriteManifestList` writes, `ReadManifestList` reads. -/
theorem readManifestList_writeManifestList (avro : AvroLibrary) (manifestList : List ManifestFile) :
    (writeManifestList avro manifestList >>= readManifestList avro) = .ok manifestList := by
  have hfile := Generated.manifestFileCodec.fileRoundTrip avro ∅ (manifestList.map writeManifestFile)
  obtain ⟨data, hdata, hdecode⟩ := bind_ok hfile
  rw [List.map_map] at hdata
  have hread : (manifestList.map writeManifestFile).map readManifestFile = manifestList := by
    rw [List.map_map]
    exact List.map_id'' readManifestFile_writeManifestFile _
  simp only [writeManifestList, manifestListSchema_eq, ok_bind]
  calc readManifestList avro _
      = (avro.readFile (avro.writeFile _ ∅ (manifestList.map
          (Generated.manifestFileCodec.encode ∘ writeManifestFile))) _ >>= fun data =>
          data.mapM Generated.manifestFileCodec.decode >>= fun files => .ok (files.map readManifestFile)) := by
        simp only [readManifestList, manifestListSchema_eq, ok_bind]
        rfl
    _ = .ok manifestList := by
        rw [hdata, ok_bind, hdecode, ok_bind, hread]

end IcebergCxx.Proofs

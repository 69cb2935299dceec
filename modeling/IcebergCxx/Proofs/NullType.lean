import IcebergCxx.NullType

/-!
# Reading manifests of accepted partition specs

A void field is accepted by `GetFieldsFromPartitionSpec` and by `MatchesSpecification`, and `MakeSchemaPartition`
dereferences its absent type, unless a column of a list type stops it before.
-/

namespace IcebergCxx.Proofs

open Lib

variable {α β : Type} {fields : List PartitionKeyField} {field : PartitionKeyField}

/-! ### The same computations -/

/-- The outcome when an access to the absent type is taken for an exception. -/
def asThrown : Except Failure α → Except String α
  | .ok a => .ok a
  | .error (.thrown message) => .error message
  | .error .undefined => .error "MakeSchemaPartition: null pointer"

lemma asThrown_throwing (x : Except String α) : asThrown (throwing x) = x := by
  cases x <;> rfl

lemma asThrown_bind (x : Except Failure α) (f : α → Except Failure β) :
    asThrown (x >>= f) = asThrown x >>= fun a => asThrown (f a) := by
  cases x with
  | ok a => rfl
  | error e => cases e <;> rfl

lemma asThrown_mapM (f : α → Except Failure β) (l : List α) :
    asThrown (l.mapM f) = l.mapM (fun a => asThrown (f a)) := by
  induction l with
  | nil => rfl
  | cons a l ih =>
    rw [List.mapM_cons, List.mapM_cons, asThrown_bind]
    congr 1
    funext b
    rw [asThrown_bind, ih]
    rfl

lemma asThrown_makeSchemaPartition (fields : List PartitionKeyField) :
    asThrown (NullType.makeSchemaPartition fields) = makeSchemaPartition fields := by
  have hfield (field : PartitionKeyField) :
      asThrown (NullType.partitionFieldNode field) = partitionFieldNode field := by
    unfold NullType.partitionFieldNode partitionFieldNode
    cases field.type with
    | none => rfl
    | some type =>
      simp only [asThrown_bind, asThrown_throwing]
      rfl
  rw [NullType.makeSchemaPartition, asThrown_bind, asThrown_mapM]
  simp only [hfield]
  rfl

lemma asThrown_makeSchemaManifestEntry (fields : List PartitionKeyField) (cfg : ManifestEntryDeserializerConfig) :
    asThrown (NullType.makeSchemaManifestEntry fields cfg) = makeSchemaManifestEntry fields cfg := by
  rw [NullType.makeSchemaManifestEntry, asThrown_bind, asThrown_makeSchemaPartition]
  simp only [asThrown_throwing]
  cases hpartition : makeSchemaPartition fields with
  | ok node => rfl
  | error e =>
    rw [makeSchemaManifestEntry, makeSchemaDataFile, hpartition]
    rfl

lemma asThrown_manifestReaderSchema (avro : AvroLibrary) (input : avro.File) (fields : List PartitionKeyField)
    (config : ManifestEntryDeserializerConfig) (useReaderSchema : Bool) :
    asThrown (NullType.manifestReaderSchema avro input fields config useReaderSchema) =
      manifestReaderSchema avro input fields config useReaderSchema := by
  unfold NullType.manifestReaderSchema manifestReaderSchema
  split
  · rw [asThrown_bind, asThrown_makeSchemaManifestEntry]
    simp only [asThrown_throwing]
  · rfl

/-- Reading, streaming and writing are those of the other modules. -/
lemma asThrown_readManifestEntries (avro : AvroLibrary) (json : JsonLibrary)
    (getInt : Option Json → Except String Int) (input : avro.File) (fields : List PartitionKeyField)
    (config : ManifestEntryDeserializerConfig) (useReaderSchema : Bool) :
    asThrown (NullType.readManifestEntries avro json getInt input fields config useReaderSchema) =
      readManifestEntries avro json getInt input fields config useReaderSchema := by
  rw [NullType.readManifestEntries, asThrown_bind, asThrown_manifestReaderSchema]
  simp only [asThrown_throwing]
  rfl

lemma asThrown_manifestEntryStream (request : ScanRequest) (input : request.avro.File)
    (fields : List PartitionKeyField) (config : ManifestEntryDeserializerConfig) (useReaderSchema : Bool) :
    asThrown (NullType.manifestEntryStream request input fields config useReaderSchema) =
      request.manifestEntryStream input fields config useReaderSchema := by
  rw [NullType.manifestEntryStream, asThrown_bind, asThrown_manifestReaderSchema]
  simp only [asThrown_throwing]
  rfl

lemma asThrown_writeManifestEntries (avro : AvroLibrary) (manifest : Manifest) (fields : List PartitionKeyField) :
    asThrown (NullType.writeManifestEntries avro manifest fields) = writeManifestEntries avro manifest fields := by
  rw [NullType.writeManifestEntries, asThrown_bind, asThrown_makeSchemaManifestEntry]
  simp only [asThrown_throwing]
  rfl

/-! ### Where the absent type is dereferenced -/

/-- A field of a list type stands before the first field without a type. -/
def ListBeforeNull (fields : List PartitionKeyField) : Prop :=
  ∀ before field after, fields = before ++ field :: after → (∀ f ∈ before, f.type ≠ none) → field.type = none →
    ∃ f ∈ before, ∃ elementId required element, f.type = some (.list elementId required element)

lemma partitionFieldNode_eq_undefined_iff :
    NullType.partitionFieldNode field = .error .undefined ↔ field.type = none := by
  unfold NullType.partitionFieldNode
  cases field.type with
  | none => simp
  | some type =>
    rw [bind_eq_undefined_iff]
    simp [throwing_ne_undefined, pure, Except.pure]

lemma partitionFieldNode_ok_iff : (∃ node, NullType.partitionFieldNode field = .ok node) ↔
    field.type ≠ none ∧ ¬∃ elementId required element, field.type = some (.list elementId required element) := by
  unfold NullType.partitionFieldNode
  cases field.type with
  | none => simp
  | some type => cases type <;> simp [partitionNode, pure, Except.pure]

lemma makeSchemaPartition_undefined_iff :
    NullType.makeSchemaPartition fields = .error .undefined ↔ ¬ListBeforeNull fields := by
  rw [NullType.makeSchemaPartition, bind_eq_undefined_iff, mapM_eq_undefined_iff]
  constructor
  · rintro (⟨before, field, after, rfl, hbefore, hfield⟩ | ⟨_, _, h⟩)
    · intro hguarded
      have hok (f : PartitionKeyField) (hf : f ∈ before) := partitionFieldNode_ok_iff.mp (hbefore f hf)
      obtain ⟨f, hf, hlist⟩ := hguarded before field after rfl (fun f hf => (hok f hf).1)
        (partitionFieldNode_eq_undefined_iff.mp hfield)
      exact (hok f hf).2 hlist
    · cases h
  · intro hguarded
    simp only [ListBeforeNull, not_forall] at hguarded
    obtain ⟨before, field, after, hfields, hbefore, hfield, hlist⟩ := hguarded
    refine .inl ⟨before, field, after, hfields, fun f hf => ?_, partitionFieldNode_eq_undefined_iff.mpr hfield⟩
    exact partitionFieldNode_ok_iff.mpr ⟨hbefore f hf, fun h => hlist ⟨f, hf, h⟩⟩

lemma makeSchemaManifestEntry_undefined_iff (cfg : ManifestEntryDeserializerConfig) :
    NullType.makeSchemaManifestEntry fields cfg = .error .undefined ↔ ¬ListBeforeNull fields := by
  rw [NullType.makeSchemaManifestEntry, bind_eq_undefined_iff, makeSchemaPartition_undefined_iff]
  simp [throwing_ne_undefined]

lemma manifestReaderSchema_defined (h : ListBeforeNull fields) (avro : AvroLibrary) (input : avro.File)
    (config : ManifestEntryDeserializerConfig) (useReaderSchema : Bool) :
    NullType.manifestReaderSchema avro input fields config useReaderSchema ≠ .error .undefined := by
  unfold NullType.manifestReaderSchema
  split
  · rw [Ne, bind_eq_undefined_iff, makeSchemaManifestEntry_undefined_iff]
    simp [h, throwing_ne_undefined]
  · nofun

/-! ### Entries of the spec -/

/-- A value of a partition field: the name fits, a type it has is the expected one, and that of a void field is null. -/
structure ConformingKey (field : PartitionKeyField) (key : PartitionKey) : Prop where
  name : key.name = field.name
  type : ∀ actual expected, key.type = some actual → field.type = some expected → actual.toText = expected.toText
  null : field.type = none → key.value = .null

/-- The tuple has a value for every field, in any order, under different names. -/
structure ConformingTuple (fields : List PartitionKeyField) (tuple : PartitionTuple) : Prop where
  nodup : (tuple.fields.map PartitionKey.name).Nodup
  keys : ∃ keys, keys.Perm tuple.fields ∧ List.Forall₂ ConformingKey fields keys

lemma fieldMatches_of_conforming {key : PartitionKey} (h : ConformingKey field key) :
    fieldMatches field key = true := by
  have hnull := h.null
  have htype := h.type
  unfold fieldMatches
  cases hexpected : field.type with
  | none => cases hactual : key.type <;> simp [hnull hexpected]
  | some expected =>
    cases hactual : key.type with
    | none => simp
    | some actual => simpa using htype actual expected hactual hexpected

/-- Different names single out one element. -/
lemma filter_name_eq_singleton {key : PartitionKey} {keys : List PartitionKey}
    (hnodup : (keys.map PartitionKey.name).Nodup) (hmem : key ∈ keys) :
    keys.filter (fun actual => actual.name = key.name) = [key] := by
  induction keys with
  | nil => cases hmem
  | cons first keys ih =>
    obtain ⟨hfirst, hnodup⟩ := List.nodup_cons.mp hnodup
    obtain rfl | hmem := List.mem_cons.mp hmem
    · have hrest : keys.filter (fun actual => actual.name = key.name) = [] := by
        refine List.filter_eq_nil_iff.mpr (fun actual hactual => ?_)
        simpa using fun heq => hfirst (List.mem_map.mpr ⟨actual, hactual, heq⟩)
      rw [List.filter_cons_of_pos (by simp), hrest]
    · have hne : first.name ≠ key.name := fun heq => hfirst (List.mem_map.mpr ⟨key, hmem, heq.symm⟩)
      rw [List.filter_cons_of_neg (by simpa using hne), ih hnodup hmem]

lemma matchesSpecification_of_conforming {spec : PartitionSpec} {schema : Schema} {tuple : PartitionTuple}
    (hfields : getFieldsFromPartitionSpec spec schema = some fields) (h : ConformingTuple fields tuple) :
    matchesSpecification spec schema tuple = true := by
  obtain ⟨keys, hperm, hkeys⟩ := h.keys
  have hlength : fields.length = tuple.fields.length := hkeys.length_eq.trans hperm.length_eq
  simp only [matchesSpecification, hfields, hlength, decide_true, Bool.true_and, List.all_eq_true]
  intro field hfield
  obtain ⟨key, hkey, hconforms⟩ : ∃ key ∈ keys, ConformingKey field key := by
    obtain ⟨i, hi, rfl⟩ := List.getElem_of_mem hfield
    exact ⟨keys.get ⟨i, hkeys.length_eq ▸ hi⟩, List.get_mem _ _, hkeys.get hi _⟩
  rw [← hconforms.name, filter_name_eq_singleton h.nodup (hperm.mem_iff.mp hkey)]
  exact fieldMatches_of_conforming hconforms

/-! ### Accepted specs -/

/-- Manifests of the spec can be read, streamed and written without an access to an absent type, and entries that
conform to it are accepted. -/
structure ReadableSpec (spec : PartitionSpec) (schema : Schema) (fields : List PartitionKeyField) : Prop where
  readerSchema : ∀ cfg, NullType.makeSchemaManifestEntry fields cfg ≠ .error .undefined
  read : ∀ avro json getInt input config useReaderSchema,
    NullType.readManifestEntries avro json getInt input fields config useReaderSchema ≠ .error .undefined
  streamed : ∀ request input config useReaderSchema,
    NullType.manifestEntryStream request input fields config useReaderSchema ≠ .error .undefined
  written : ∀ avro manifest, NullType.writeManifestEntries avro manifest fields ≠ .error .undefined
  accepted : ∀ tuple, ConformingTuple fields tuple → matchesSpecification spec schema tuple = true

/-- Manifests of an accepted spec can be read exactly when its first void field, if any, comes after a field of a list
type. -/
theorem acceptedSpec_readable_iff {spec : PartitionSpec} {schema : Schema}
    (hfields : getFieldsFromPartitionSpec spec schema = some fields) :
    ReadableSpec spec schema fields ↔ ListBeforeNull fields := by
  constructor
  · intro h
    exact not_not.mp (fun hnot => h.readerSchema {} ((makeSchemaManifestEntry_undefined_iff {}).mpr hnot))
  · intro h
    refine ⟨fun cfg => ?_, ?_, ?_, fun avro manifest => ?_, fun tuple => matchesSpecification_of_conforming hfields⟩
    · rw [Ne, makeSchemaManifestEntry_undefined_iff]
      exact not_not.mpr h
    · intro avro json getInt input config useReaderSchema
      rw [NullType.readManifestEntries, Ne, bind_eq_undefined_iff]
      simp [manifestReaderSchema_defined h, throwing_ne_undefined]
    · intro request input config useReaderSchema
      rw [NullType.manifestEntryStream, Ne, bind_eq_undefined_iff]
      simp [manifestReaderSchema_defined h, throwing_ne_undefined]
    · rw [NullType.writeManifestEntries, Ne, bind_eq_undefined_iff, makeSchemaManifestEntry_undefined_iff]
      simp [h, throwing_ne_undefined]

/-- A schema with a column, and a spec with one field of it. -/
def schemaOfColumn : Schema := ⟨0, [⟨bytes "a", 1, true, .int⟩]⟩

def specOfTransform (transform : String) : PartitionSpec := ⟨0, [⟨1, 1000, bytes "p", bytes transform⟩]⟩

theorem identitySpec_readable : ReadableSpec (specOfTransform "identity") schemaOfColumn [⟨bytes "p", some .int⟩] := by
  refine (acceptedSpec_readable_iff (by decide)).mpr ?_
  intro before field after hfields _ hnull
  have hfield : field ∈ [(⟨bytes "p", some .int⟩ : PartitionKeyField)] := by
    rw [hfields]
    exact List.mem_append_right _ List.mem_cons_self
  rw [List.mem_singleton.mp hfield] at hnull
  cases hnull

/-- A single void field is accepted, and every manifest of it that is written or read with a reader schema runs into the
absent type. -/
theorem voidSpec_undefined :
    getFieldsFromPartitionSpec (specOfTransform "void") schemaOfColumn = some [⟨bytes "p", none⟩] ∧
      (∀ cfg, NullType.makeSchemaManifestEntry [⟨bytes "p", none⟩] cfg = .error .undefined) ∧
      ¬ReadableSpec (specOfTransform "void") schemaOfColumn [⟨bytes "p", none⟩] :=
  ⟨by decide, fun _ => rfl, fun h => h.readerSchema {} rfl⟩

end IcebergCxx.Proofs

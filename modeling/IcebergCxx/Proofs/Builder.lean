import IcebergCxx.Proofs.Optimizer

/-!
# The contents of the builder

`AddEntry` validates an entry without looking at the builder's state and then places one
slot. The contents of the maps are the slots placed so far, each at its partition key and
level; a deletion vector is the last one placed for its key, level and path.
-/

namespace IcebergCxx.Proofs

open Lib

/-! ### Slots -/

/-- What an accepted live entry puts into the builder. -/
inductive Slot
  | data (key : Bytes) (level : Int) (entry : DataEntry)
  | positional (key : Bytes) (level : Int) (del : PositionalDeleteWithExtraInfo)
  | equality (key : Bytes) (level : Int) (del : EqualityDeleteInfo)
  | global (level : Int) (del : EqualityDeleteInfo)
  | vector (key : Bytes) (level : Int) (path : Bytes) (dv : DeletionVectorInfo)
  deriving DecidableEq

/-- The serialized partition key of an entry. -/
def keyOf (e : ManifestEntry) : Bytes := serializePartitionTuple e.dataFile.partitionTuple

def seqOf (e : ManifestEntry) : Int := e.sequenceNumber.getD 0

def dataEntryOf (e : ManifestEntry) : DataEntry := ⟨e.dataFile.filePath, segmentsOfFile e.dataFile, none⟩

def positionalOf (e : ManifestEntry) : PositionalDeleteWithExtraInfo :=
  ⟨⟨e.dataFile.filePath⟩, minMaxReferencedPath e.dataFile⟩

def equalityOf (e : ManifestEntry) : EqualityDeleteInfo := ⟨e.dataFile.filePath, e.dataFile.equalityIds⟩

def referencedOf (e : ManifestEntry) : Bytes := e.dataFile.referencedDataFile.getD []

def vectorOf (e : ManifestEntry) : DeletionVectorInfo :=
  ⟨e.dataFile.filePath, e.dataFile.contentOffset.getD 0, e.dataFile.contentSizeInBytes.getD 0, referencedOf e⟩

/-- The slot of an entry, if it is live. -/
def slotOf (e : ManifestEntry) : Option Slot :=
  if e.status = .deleted then none
  else match e.dataFile.content with
    | .data => some (.data (keyOf e) (seqOf e) (dataEntryOf e))
    | .positionDeletes =>
      if e.dataFile.fileFormat = deletionVectorFormat then
        some (.vector (keyOf e) (seqOf e) (referencedOf e) (vectorOf e))
      else some (.positional (keyOf e) (seqOf e) (positionalOf e))
    | .equalityDeletes =>
      if (keyOf e).isEmpty then some (.global (wrapInt64 (seqOf e - 1)) (equalityOf e))
      else some (.equality (keyOf e) (wrapInt64 (seqOf e - 1)) (equalityOf e))

def place (b : ScanMetadataBuilder) : Slot → ScanMetadataBuilder
  | .data key level entry => b.modifyLayer key level (fun layer =>
      { layer with dataEntries := layer.dataEntries ++ [entry] })
  | .positional key level del => b.modifyLayer key level (fun layer =>
      { layer with positionalDeleteEntries := layer.positionalDeleteEntries ++ [del] })
  | .equality key level del => b.modifyLayer key level (fun layer =>
      { layer with equalityDeleteEntries := layer.equalityDeleteEntries ++ [del] })
  | .global level del => { b with
      globalEqualityDeletes := b.globalEqualityDeletes.alter level (fun deletes => deletes.getD [] ++ [del]) }
  | .vector key level path dv => b.modifyLayer key level (fun layer =>
      { layer with dvEntries := layer.dvEntries.insert path dv })

/-- The part of `AddEntry` that can fail; it reads the table metadata only. -/
def validateEntry (tableMetadata : TableMetadata) (e : ManifestEntry) : Except String Unit :=
  if e.status = .deleted then .ok ()
  else do
    checkPartitionTupleIsCorrect tableMetadata e
    match e.sequenceNumber with
    | none => .error "bad optional access"
    | some _ =>
      if e.dataFile.content = .positionDeletes ∧ e.dataFile.fileFormat = deletionVectorFormat then
        match e.dataFile.referencedDataFile, e.dataFile.contentOffset, e.dataFile.contentSizeInBytes with
        | none, _, _ => .error "Deletion Vector must have referenced_data_file set"
        | some _, none, _ => .error "Deletion Vector must have content_offset set"
        | some _, some _, none => .error "Deletion Vector must have content_size_in_bytes set"
        | some _, some _, some _ => .ok ()
      else .ok ()

/-- `AddEntry` is a check of the entry followed by the placement of its slot. -/
lemma addEntry_eq (b : ScanMetadataBuilder) (e : ManifestEntry) :
    b.addEntry e = (validateEntry b.tableMetadata e).map (fun _ => (slotOf e).elim b (place b)) := by
  unfold ScanMetadataBuilder.addEntry validateEntry slotOf
  by_cases hd : e.status = .deleted
  · rw [if_pos hd, if_pos hd, if_pos hd]
    rfl
  · rw [if_neg hd, if_neg hd, if_neg hd]
    cases checkPartitionTupleIsCorrect b.tableMetadata e with
    | error m => rfl
    | ok u =>
      rw [ok_bind, ok_bind]
      unfold ScanMetadataBuilder.storeEntry
      cases hs : e.sequenceNumber with
      | none => rfl
      | some s =>
        simp only
        cases hc : e.dataFile.content with
        | data => simp [Except.map, place, ScanMetadataBuilder.addDataFile, keyOf, seqOf, hs, dataEntryOf]
        | equalityDeletes =>
          by_cases hk : serializePartitionTuple e.dataFile.partitionTuple = []
          · simp [Except.map, place, ScanMetadataBuilder.addGlobalEqualityDeletes, keyOf, seqOf, hs, hk, equalityOf]
          · simp [Except.map, place, ScanMetadataBuilder.addEqualityDeletes, keyOf, seqOf, hs, hk, equalityOf]
        | positionDeletes =>
          by_cases hf : e.dataFile.fileFormat = deletionVectorFormat
          · simp only [hf, if_true, true_and]
            cases hr : e.dataFile.referencedDataFile with
            | none => rfl
            | some ref =>
              cases ho : e.dataFile.contentOffset with
              | none => rfl
              | some offset =>
                cases hl : e.dataFile.contentSizeInBytes with
                | none => rfl
                | some length =>
                  simp [Except.map, place, ScanMetadataBuilder.addDeletionVector, keyOf, seqOf, hs, vectorOf,
                    referencedOf, hr, ho, hl]
          · simp [hf, Except.map, place, ScanMetadataBuilder.addPositionDeletes, keyOf, seqOf, hs, positionalOf]

@[simp] lemma tableMetadata_place (b : ScanMetadataBuilder) (slot : Slot) :
    (place b slot).tableMetadata = b.tableMetadata := by
  cases slot <;> rfl

lemma tableMetadata_foldl_place (slots : List Slot) (b : ScanMetadataBuilder) :
    (slots.foldl place b).tableMetadata = b.tableMetadata := by
  induction slots generalizing b with
  | nil => rfl
  | cons slot slots ih => rw [List.foldl_cons, ih, tableMetadata_place]

/-- A run of `AddEntry` succeeds when every entry passes its check, and then has placed their slots in order. -/
lemma addEntries_ok_iff {b b' : ScanMetadataBuilder} {es : List ManifestEntry} :
    b.addEntries es = .ok b' ↔
      (∀ e ∈ es, validateEntry b.tableMetadata e = .ok ()) ∧ b' = (es.filterMap slotOf).foldl place b := by
  induction es generalizing b with
  | nil =>
    simp only [ScanMetadataBuilder.addEntries, List.foldlM_nil, List.filterMap_nil, List.foldl_nil, List.not_mem_nil,
      false_imp_iff, implies_true, true_and]
    exact ⟨fun h => by cases h; rfl, fun h => by rw [h]; rfl⟩
  | cons e es ih =>
    have hstep : b.addEntries (e :: es) = (b.addEntry e >>= fun b₁ => b₁.addEntries es) := List.foldlM_cons
    have hslots : ∀ b₁, b₁ = (slotOf e).elim b (place b) →
        ((e :: es).filterMap slotOf).foldl place b = (es.filterMap slotOf).foldl place b₁ := by
      rintro b₁ rfl
      cases hs : slotOf e with
      | none => rw [List.filterMap_cons_none hs]; rfl
      | some slot => rw [List.filterMap_cons_some hs]; rfl
    have hmeta : ((slotOf e).elim b (place b)).tableMetadata = b.tableMetadata := by
      cases slotOf e with
      | none => rfl
      | some slot => exact tableMetadata_place b slot
    rw [hstep, addEntry_eq]
    cases hv : validateEntry b.tableMetadata e with
    | error m =>
      constructor
      · intro h; cases h
      · rintro ⟨hall, -⟩
        rw [hall e List.mem_cons_self] at hv
        cases hv
    | ok u =>
      rw [Except.map, ok_bind, ih, hmeta, hslots _ rfl]
      constructor
      · rintro ⟨hall, rfl⟩
        refine ⟨fun x hx => ?_, rfl⟩
        rcases List.mem_cons.mp hx with rfl | hx
        · exact hv
        · exact hall x hx
      · rintro ⟨hall, rfl⟩
        exact ⟨fun x hx => hall x (List.mem_cons_of_mem _ hx), rfl⟩

/-! ### Contents -/

/-- Everything of one kind in the builder, with its partition key and level. -/
def contents {X : Type} (f : LayerWithExtraInfo → Multiset X) (b : ScanMetadataBuilder) :
    Multiset (Bytes × Int × X) :=
  locate (fun layers => locate f layers.entries) b.partitions.entries

lemma contents_modifyLayer {X : Type} {f : LayerWithExtraInfo → Multiset X} (hf : f {} = 0)
    (b : ScanMetadataBuilder) (key : Bytes) (level : Int) {g : LayerWithExtraInfo → LayerWithExtraInfo}
    {x : Multiset X} (hg : ∀ layer, f (g layer) = f layer + x) :
    contents f (b.modifyLayer key level g) = contents f b + x.map (fun y => (key, level, y)) := by
  have hinner : ∀ layers : Option (OrdMap Int LayerWithExtraInfo),
      locate f ((layers.getD ∅).alter level (fun layer => g (layer.getD {}))).entries =
        layers.elim 0 (fun layers => locate f layers.entries) + x.map (Prod.mk level) := by
    intro layers
    rw [locate_alter f _ level _ x]
    · cases layers <;> rfl
    · rw [hg]
      cases (layers.getD ∅).find? level with
      | none => simp [hf]
      | some layer => rfl
  rw [contents, ScanMetadataBuilder.modifyLayer, locate_alter _ _ key _ (x.map (Prod.mk level)) (hinner _),
    Multiset.map_map]
  rfl

def dataContents (b : ScanMetadataBuilder) : Multiset (Bytes × Int × DataEntry) :=
  contents (fun layer => layer.dataEntries) b

def positionalContents (b : ScanMetadataBuilder) : Multiset (Bytes × Int × PositionalDeleteWithExtraInfo) :=
  contents (fun layer => layer.positionalDeleteEntries) b

def equalityContents (b : ScanMetadataBuilder) : Multiset (Bytes × Int × EqualityDeleteInfo) :=
  contents (fun layer => layer.equalityDeleteEntries) b

def globalContents (b : ScanMetadataBuilder) : Multiset (Int × EqualityDeleteInfo) :=
  locate (fun deletes : List EqualityDeleteInfo => (deletes : Multiset EqualityDeleteInfo)) b.globalEqualityDeletes.entries

def Slot.asData : Slot → Option (Bytes × Int × DataEntry)
  | .data key level entry => some (key, level, entry)
  | _ => none

def Slot.asPositional : Slot → Option (Bytes × Int × PositionalDeleteWithExtraInfo)
  | .positional key level del => some (key, level, del)
  | _ => none

def Slot.asEquality : Slot → Option (Bytes × Int × EqualityDeleteInfo)
  | .equality key level del => some (key, level, del)
  | _ => none

def Slot.asGlobal : Slot → Option (Int × EqualityDeleteInfo)
  | .global level del => some (level, del)
  | _ => none

/-- One slot adds itself to the contents of its kind and nothing to the others. -/
lemma contents_place (b : ScanMetadataBuilder) (slot : Slot) :
    dataContents (place b slot) = dataContents b + (slot.asData.toList : Multiset _) ∧
    positionalContents (place b slot) = positionalContents b + (slot.asPositional.toList : Multiset _) ∧
    equalityContents (place b slot) = equalityContents b + (slot.asEquality.toList : Multiset _) ∧
    globalContents (place b slot) = globalContents b + (slot.asGlobal.toList : Multiset _) := by
  have hsame : ∀ {X : Type} {f : LayerWithExtraInfo → Multiset X}, f {} = 0 → ∀ (key : Bytes) (level : Int)
      {g : LayerWithExtraInfo → LayerWithExtraInfo}, (∀ layer, f (g layer) = f layer) →
      contents f (b.modifyLayer key level g) = contents f b + 0 := by
    intro X f hf key level g hg
    rw [contents_modifyLayer hf b key level (x := 0) (by simpa using hg), Multiset.map_zero]
  cases slot with
  | data key level entry =>
    refine ⟨?_, ?_, ?_, ?_⟩
    · exact contents_modifyLayer rfl b key level (x := {entry}) (fun layer => (Multiset.coe_add _ _).symm)
    · exact hsame (by rfl) key level (fun _ => by rfl)
    · exact hsame (by rfl) key level (fun _ => by rfl)
    · exact (add_zero _).symm
  | positional key level del =>
    refine ⟨?_, ?_, ?_, ?_⟩
    · exact hsame (by rfl) key level (fun _ => by rfl)
    · exact contents_modifyLayer rfl b key level (x := {del}) (fun layer => (Multiset.coe_add _ _).symm)
    · exact hsame (by rfl) key level (fun _ => by rfl)
    · exact (add_zero _).symm
  | equality key level del =>
    refine ⟨?_, ?_, ?_, ?_⟩
    · exact hsame (by rfl) key level (fun _ => by rfl)
    · exact hsame (by rfl) key level (fun _ => by rfl)
    · exact contents_modifyLayer rfl b key level (x := {del}) (fun layer => (Multiset.coe_add _ _).symm)
    · exact (add_zero _).symm
  | global level del =>
    refine ⟨(add_zero _).symm, (add_zero _).symm, (add_zero _).symm, ?_⟩
    refine locate_alter (fun deletes : List EqualityDeleteInfo => (deletes : Multiset EqualityDeleteInfo))
      b.globalEqualityDeletes level _ {del} ?_
    cases b.globalEqualityDeletes.find? level with
    | none => rfl
    | some deletes => exact (Multiset.coe_add _ _).symm
  | vector key level path dv =>
    refine ⟨?_, ?_, ?_, ?_⟩
    · exact hsame (by rfl) key level (fun _ => by rfl)
    · exact hsame (by rfl) key level (fun _ => by rfl)
    · exact hsame (by rfl) key level (fun _ => by rfl)
    · exact (add_zero _).symm

lemma contents_foldl_place (slots : List Slot) (b : ScanMetadataBuilder) :
    dataContents (slots.foldl place b) = dataContents b + (slots.filterMap Slot.asData : Multiset _) ∧
    positionalContents (slots.foldl place b) =
      positionalContents b + (slots.filterMap Slot.asPositional : Multiset _) ∧
    equalityContents (slots.foldl place b) = equalityContents b + (slots.filterMap Slot.asEquality : Multiset _) ∧
    globalContents (slots.foldl place b) = globalContents b + (slots.filterMap Slot.asGlobal : Multiset _) := by
  have hcons : ∀ {X : Type} (f : Slot → Option X) (slot : Slot) (slots : List Slot) (m : Multiset X),
      m + (f slot).toList + (slots.filterMap f : Multiset X) = m + ((slot :: slots).filterMap f : Multiset X) := by
    intro X f slot slots m
    cases hs : f slot with
    | none => simp [hs]
    | some x =>
      rw [List.filterMap_cons_some hs, add_assoc]
      rfl
  induction slots generalizing b with
  | nil => exact ⟨(add_zero _).symm, (add_zero _).symm, (add_zero _).symm, (add_zero _).symm⟩
  | cons slot slots ih =>
    obtain ⟨h1, h2, h3, h4⟩ := ih (place b slot)
    obtain ⟨p1, p2, p3, p4⟩ := contents_place b slot
    rw [List.foldl_cons, h1, h2, h3, h4, p1, p2, p3, p4]
    exact ⟨hcons _ _ _ _, hcons _ _ _ _, hcons _ _ _ _, hcons _ _ _ _⟩

/-! ### Deletion vectors -/

/-- The layer of a partition at a level, empty when there is none. -/
def layerAt (b : ScanMetadataBuilder) (key : Bytes) (level : Int) : LayerWithExtraInfo :=
  (((b.partitions.find? key).getD ∅).find? level).getD {}

lemma layerAt_modifyLayer (b : ScanMetadataBuilder) (key : Bytes) (level : Int)
    (g : LayerWithExtraInfo → LayerWithExtraInfo) (k : Bytes) (l : Int) :
    layerAt (b.modifyLayer key level g) k l =
      if k = key ∧ l = level then g (layerAt b key level) else layerAt b k l := by
  unfold layerAt ScanMetadataBuilder.modifyLayer
  simp only [OrdMap.find?_alter]
  by_cases hk : k = key
  · subst hk
    simp only [if_true, Option.getD_some, OrdMap.find?_alter, true_and]
    split_ifs <;> rfl
  · simp [hk]

/-- The deletion vector a partition has at a level for a path. -/
def dvIn (b : ScanMetadataBuilder) (key : Bytes) (level : Int) (path : Bytes) : Option DeletionVectorInfo :=
  (layerAt b key level).dvEntries.find? path

def Slot.asVector (key : Bytes) (level : Int) (path : Bytes) : Slot → Option DeletionVectorInfo
  | .vector key' level' path' dv => if key' = key ∧ level' = level ∧ path' = path then some dv else none
  | _ => none

lemma dvIn_place (b : ScanMetadataBuilder) (slot : Slot) (key : Bytes) (level : Int) (path : Bytes) :
    dvIn (place b slot) key level path = (slot.asVector key level path).or (dvIn b key level path) := by
  have hsame : ∀ (key' : Bytes) (level' : Int) {g : LayerWithExtraInfo → LayerWithExtraInfo},
      (∀ layer, (g layer).dvEntries = layer.dvEntries) →
      dvIn (b.modifyLayer key' level' g) key level path = dvIn b key level path := by
    intro key' level' g hg
    unfold dvIn
    rw [layerAt_modifyLayer]
    split_ifs with h
    · rw [hg, h.1, h.2]
    · rfl
  cases slot with
  | data key' level' entry => exact hsame key' level' (fun _ => rfl)
  | positional key' level' del => exact hsame key' level' (fun _ => rfl)
  | equality key' level' del => exact hsame key' level' (fun _ => rfl)
  | global level' del => rfl
  | vector key' level' path' dv =>
    unfold dvIn
    rw [place, layerAt_modifyLayer, Slot.asVector]
    by_cases hk : key = key' ∧ level = level'
    · obtain ⟨rfl, rfl⟩ := hk
      by_cases hp : path = path'
      · simp [OrdMap.find?_insert, hp]
      · simp [OrdMap.find?_insert, hp, Ne.symm hp]
    · rw [if_neg hk, if_neg (fun h => hk ⟨h.1.symm, h.2.1.symm⟩), Option.none_or]

/-- The last vector placed for a key, level and path stays. -/
lemma dvIn_foldl_place (slots : List Slot) (b : ScanMetadataBuilder) (key : Bytes) (level : Int) (path : Bytes) :
    dvIn (slots.foldl place b) key level path =
      ((slots.filterMap (Slot.asVector key level path)).getLast?).or (dvIn b key level path) := by
  induction slots generalizing b with
  | nil => rfl
  | cons slot slots ih =>
    rw [List.foldl_cons, ih, dvIn_place]
    cases hs : slot.asVector key level path with
    | none => rw [List.filterMap_cons_none hs, Option.none_or]
    | some dv =>
      rw [List.filterMap_cons_some hs, List.getLast?_cons]
      cases (slots.filterMap (Slot.asVector key level path)).getLast? <;> rfl

end IcebergCxx.Proofs

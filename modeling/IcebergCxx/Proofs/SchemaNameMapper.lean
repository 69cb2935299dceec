import IcebergCxx.Proofs.IcebergProjection
import IcebergCxx.SchemaNameMapper

/-!
# Data files without field ids

A name mapping is read exactly when its elements are well formed and no name is mapped twice. A scan with such a
mapping is the scan without one of the same files, whose root columns have the mapped ids.
-/

namespace IcebergCxx.Proofs

open Lib SchemaNameMapper

/-! ### What a mapping maps -/

/-- The names of one element with their field id. -/
inductive GivesNames : Json → List (Bytes × Int) → Prop
  | unmapped {members : List (Bytes × Json)} {names : List Json}
      (hnames : Json.findMember kNames members = some (.array names))
      (hid : Json.findMember kFieldId members = none) : GivesNames (.object members) []
  | mapped {members : List (Bytes × Json)} {texts : List Bytes} {value : Json} {fieldId : Int32}
      (hnames : Json.findMember kNames members = some (.array (texts.map Json.string)))
      (hid : Json.findMember kFieldId members = some value) (hvalue : deserializeInt32 value = .ok fieldId) :
      GivesNames (.object members) (texts.map (fun text => (cString text, fieldId.toInt)))

/-- The names that a mapping gives to field ids, no name twice. -/
def MapsNames (doc : Json) (names : List (Bytes × Int)) : Prop :=
  ∃ elements lists, doc = .array elements ∧ List.Forall₂ GivesNames elements lists ∧ names = lists.flatten ∧
    (names.map Prod.fst).Nodup

/-- The id that names give to a name. -/
def nameId (names : List (Bytes × Int)) (name : Bytes) : Option Int :=
  (names.find? (fun entry => entry.1 = name)).map Prod.snd

/-- The insertion of `addName`. -/
def addEntry (mp : OrdMap Bytes Int) (entry : Bytes × Int) : Except String (OrdMap Bytes Int) := do
  ensure (!mp.contains entry.1) "Mapper: names at the same level are not unique"
  return mp.insert entry.1 entry.2

lemma addEntry_ok_iff {mp mp' : OrdMap Bytes Int} {entry : Bytes × Int} :
    addEntry mp entry = .ok mp' ↔ mp.find? entry.1 = none ∧ mp' = mp.insert entry.1 entry.2 := by
  have hcontains : mp.contains entry.1 = (mp.find? entry.1).isSome := rfl
  cases hfind : mp.find? entry.1 with
  | none => simp [addEntry, hcontains, hfind, ensure, eq_comm]
  | some id => simp [addEntry, hcontains, hfind, ensure, Bind.bind, Except.bind]

lemma nameId_eq_none_iff {l : List (Bytes × Int)} {name : Bytes} : nameId l name = none ↔ name ∉ l.map Prod.fst := by
  simp only [nameId, Option.map_eq_none_iff, List.find?_eq_none, decide_eq_true_eq, List.mem_map, not_exists, not_and]

/-- A name that is not among the later ones is found in the table after its insertion. -/
lemma nameId_cons_or {entry : Bytes × Int} {l : List (Bytes × Int)} (h : entry.1 ∉ l.map Prod.fst)
    (mp : OrdMap Bytes Int) (name : Bytes) :
    (nameId (entry :: l) name).or (mp.find? name) =
      (nameId l name).or ((mp.insert entry.1 entry.2).find? name) := by
  rw [OrdMap.find?_insert]
  by_cases hname : name = entry.1
  · subst hname
    rw [nameId_eq_none_iff.mpr h, if_pos rfl, Option.none_or]
    simp [nameId]
  · rw [if_neg hname]
    simp [nameId, Ne.symm hname]

/-- Entries are added exactly if their names are new, and then the table has them and what it had. -/
lemma addEntriesByName_ok_iff {l : List (Bytes × Int)} {mp mp' : OrdMap Bytes Int} :
    l.foldlM addEntry mp = .ok mp' ↔ (l.map Prod.fst).Nodup ∧ (∀ name ∈ l.map Prod.fst, mp.find? name = none) ∧
      ∀ name, mp'.find? name = (nameId l name).or (mp.find? name) := by
  induction l generalizing mp with
  | nil =>
    simp only [List.foldlM_nil, nameId, List.find?_nil, Option.map_none, Option.none_or, List.map_nil, List.nodup_nil,
      List.not_mem_nil, false_imp_iff, implies_true, true_and]
    constructor
    · intro h name
      rw [Except.ok.inj h]
    · intro h
      rw [OrdMap.ext_find h]
      rfl
  | cons entry l ih =>
    rw [List.foldlM_cons, List.map_cons, List.nodup_cons, List.forall_mem_cons]
    constructor
    · intro h
      obtain ⟨mp₁, hentry, hrest⟩ := bind_ok h
      obtain ⟨hnew, rfl⟩ := addEntry_ok_iff.mp hentry
      obtain ⟨hnodup, hrest, hfind⟩ := ih.mp hrest
      have hnotMem : entry.1 ∉ l.map Prod.fst := by
        intro hmem
        have hnone := hrest entry.1 hmem
        rw [OrdMap.find?_insert, if_pos rfl] at hnone
        cases hnone
      refine ⟨⟨hnotMem, hnodup⟩, ⟨hnew, fun name hname => ?_⟩, fun name => ?_⟩
      · have hnone := hrest name hname
        rwa [OrdMap.find?_insert, if_neg (ne_of_mem_of_not_mem hname hnotMem)] at hnone
      · rw [hfind, nameId_cons_or hnotMem]
    · rintro ⟨⟨hnotMem, hnodup⟩, ⟨hnew, hrest⟩, hfind⟩
      rw [addEntry_ok_iff.mpr ⟨hnew, rfl⟩, ok_bind, ih]
      refine ⟨hnodup, fun name hname => ?_, fun name => ?_⟩
      · rw [OrdMap.find?_insert, if_neg (ne_of_mem_of_not_mem hname hnotMem), hrest name hname]
      · rw [hfind, nameId_cons_or hnotMem]

/-- The names of an element are added in order, and only if all of them are strings. -/
lemma addNames_ok_iff {fieldId : Int} {names : List Json} {mp mp' : OrdMap Bytes Int} :
    names.foldlM (addName fieldId) mp = .ok mp' ↔ ∃ texts : List Bytes, names = texts.map Json.string ∧
      (texts.map (fun text => (cString text, fieldId))).foldlM addEntry mp = .ok mp' := by
  induction names generalizing mp with
  | nil => simp
  | cons name names ih =>
    rw [List.foldlM_cons]
    constructor
    · intro h
      obtain ⟨mp₁, hname, hnames⟩ := bind_ok h
      obtain ⟨texts, rfl, htexts⟩ := ih.mp hnames
      cases name with
      | string text =>
        change addEntry mp (cString text, fieldId) = .ok mp₁ at hname
        exact ⟨text :: texts, rfl, by rw [List.map_cons, List.foldlM_cons, hname, ok_bind, htexts]⟩
      | _ => cases hname
    · rintro ⟨texts, htexts, h⟩
      cases texts with
      | nil => simp at htexts
      | cons text texts =>
        obtain ⟨rfl, rfl⟩ := List.cons.inj htexts
        rw [List.map_cons, List.foldlM_cons] at h
        obtain ⟨mp₁, hname, hnames⟩ := bind_ok h
        change addName fieldId mp (.string text) = .ok mp₁ at hname
        rw [hname, ok_bind]
        exact ih.mpr ⟨texts, rfl, hnames⟩

lemma addElement_ok_iff {element : Json} {mp mp' : OrdMap Bytes Int} :
    addElement mp element = .ok mp' ↔ ∃ names, GivesNames element names ∧ names.foldlM addEntry mp = .ok mp' := by
  constructor
  · intro h
    unfold addElement at h
    split at h
    · rename_i members
      split at h
      · cases h
      · rename_i names hnames
        split at h
        · rename_i hid
          exact ⟨[], .unmapped hnames hid, h⟩
        · rename_i value hid
          split at h
          · cases h
          · rename_i fieldId hvalue
            obtain ⟨texts, rfl, htexts⟩ := addNames_ok_iff.mp h
            exact ⟨_, .mapped hnames hid hvalue, htexts⟩
      · cases h
    · cases h
  · rintro ⟨names, hgives, h⟩
    cases hgives with
    | unmapped hnames hid =>
      simp only [addElement, hnames, hid]
      exact h
    | mapped hnames hid hvalue =>
      simp only [addElement, hnames, hid, hvalue]
      exact addNames_ok_iff.mpr ⟨_, rfl, h⟩

lemma addElements_ok_iff {elements : List Json} {mp mp' : OrdMap Bytes Int} :
    elements.foldlM addElement mp = .ok mp' ↔
      ∃ lists, List.Forall₂ GivesNames elements lists ∧ lists.flatten.foldlM addEntry mp = .ok mp' := by
  induction elements generalizing mp with
  | nil => simp [List.forall₂_nil_left_iff]
  | cons element elements ih =>
    rw [List.foldlM_cons]
    constructor
    · intro h
      obtain ⟨mp₁, helement, hrest⟩ := bind_ok h
      obtain ⟨names, hgives, hnames⟩ := addElement_ok_iff.mp helement
      obtain ⟨lists, hlists, hadded⟩ := ih.mp hrest
      exact ⟨names :: lists, .cons hgives hlists, by rw [List.flatten_cons, List.foldlM_append, hnames, ok_bind, hadded]⟩
    · rintro ⟨lists, hlists, h⟩
      cases hlists with
      | cons hgives hlists =>
        rw [List.flatten_cons, List.foldlM_append] at h
        obtain ⟨mp₁, hnames, hadded⟩ := bind_ok h
        rw [addElement_ok_iff.mpr ⟨_, hgives, hnames⟩, ok_bind]
        exact ih.mpr ⟨_, hlists, hadded⟩

/-- A mapping is read exactly if it maps names, and the table answers by them. -/
lemma mapper_ok_iff {doc : Json} {mp : OrdMap Bytes Int} :
    mapper doc = .ok mp ↔ ∃ names, MapsNames doc names ∧ ∀ name, mp.find? name = nameId names name := by
  have hadded : ∀ names : List (Bytes × Int), names.foldlM addEntry ∅ = .ok mp ↔
      (names.map Prod.fst).Nodup ∧ ∀ name, mp.find? name = nameId names name := by
    intro names
    rw [addEntriesByName_ok_iff]
    simp [OrdMap.find?_empty]
  constructor
  · intro h
    unfold mapper at h
    split at h
    · rename_i elements
      obtain ⟨lists, hlists, h⟩ := addElements_ok_iff.mp h
      obtain ⟨hnodup, hfind⟩ := (hadded _).mp h
      exact ⟨_, ⟨elements, lists, rfl, hlists, rfl, hnodup⟩, hfind⟩
    · cases h
  · rintro ⟨names, ⟨elements, lists, rfl, hlists, rfl, hnodup⟩, hfind⟩
    exact addElements_ok_iff.mpr ⟨lists, hlists, (hadded _).mpr ⟨hnodup, hfind⟩⟩

/-- Names have a table. -/
lemma exists_table (names : List (Bytes × Int)) :
    ∃ mp : OrdMap Bytes Int, ∀ name, mp.find? name = nameId names name := by
  induction names with
  | nil => exact ⟨∅, fun name => rfl⟩
  | cons entry names ih =>
    obtain ⟨mp, hfind⟩ := ih
    use mp.insert entry.1 entry.2
    intro name
    rw [OrdMap.find?_insert, hfind]
    by_cases hname : name = entry.1
    · simp [nameId, hname]
    · simp [nameId, hname, Ne.symm hname]

/-! ### The ids of a file -/

/-- A field with another field id. -/
def withFieldId (fieldId : Int) : ParquetNode → ParquetNode
  | .primitive name _ => .primitive name fieldId
  | .group name _ fields => .group name fieldId fields

@[simp] lemma fieldId_withFieldId (id : Int) (field : ParquetNode) : (withFieldId id field).fieldId = id := by
  cases field <;> rfl

@[simp] lemma name_withFieldId (id : Int) (field : ParquetNode) : (withFieldId id field).name = field.name := by
  cases field <;> rfl

/-- A root field with the id that the mapping has for its name, if it has no id of its own. -/
def annotateField (names : List (Bytes × Int)) (field : ParquetNode) : ParquetNode :=
  if 0 ≤ field.fieldId then field else (nameId names field.name).elim field (fun id => withFieldId id field)

/-- The reader without a mapping, of files whose root columns have the mapped ids. -/
def annotated {roaring : RoaringLibrary} (names : List (Bytes × Int)) (builder : ScanFileReaderBuilder roaring) :
    ScanFileReaderBuilder roaring :=
  { builder with
    schemaNameMapper := none
    openParquet := fun path => (builder.openParquet path).map (fun file =>
      { file with fields := file.fields.map (annotateField names) }) }

section
variable {names : List (Bytes × Int)} {mp : OrdMap Bytes Int}

lemma name_annotateField (field : ParquetNode) : (annotateField names field).name = field.name := by
  unfold annotateField
  split
  · rfl
  · cases nameId names field.name <;> simp

lemma nameId_mem {name : Bytes} {id : Int} (h : nameId names name = some id) : (name, id) ∈ names := by
  obtain ⟨entry, hentry, rfl⟩ := Option.map_eq_some_iff.mp h
  have hname := List.find?_some hentry
  simp only [decide_eq_true_eq] at hname
  rw [← hname]
  exact List.mem_of_find?_eq_some hentry

/-- The mapped id of a field is the field's own id after it is set. -/
lemma rootFieldId_annotateField (hfind : ∀ name, mp.find? name = nameId names name)
    (hnonneg : ∀ entry ∈ names, 0 ≤ entry.2) (field : ParquetNode) :
    rootFieldId none (annotateField names field) = rootFieldId (some (getFieldIdByName mp)) field := by
  by_cases hown : 0 ≤ field.fieldId
  · simp [rootFieldId, annotateField, hown]
  · have hlookup : getFieldIdByName mp field.name = nameId names field.name := hfind field.name
    cases hid : nameId names field.name with
    | none => simp [rootFieldId, annotateField, hown, hlookup, hid]
    | some id =>
      have hpos : 0 ≤ id := hnonneg _ (nameId_mem hid)
      simp [rootFieldId, annotateField, hown, hlookup, hid, hpos]

lemma makeFieldIdToIndexMap_annotated (hfind : ∀ name, mp.find? name = nameId names name)
    (hnonneg : ∀ entry ∈ names, 0 ≤ entry.2) (fields : List ParquetNode) :
    makeFieldIdToIndexMap none (fields.map (annotateField names)) =
      makeFieldIdToIndexMap (some (getFieldIdByName mp)) fields := by
  unfold makeFieldIdToIndexMap
  rw [List.zipIdx_map, List.foldlM_map]
  congr
  funext fieldIdToIndex field
  simp [addFieldIndex, rootFieldId_annotateField hfind hnonneg]

variable {roaring : RoaringLibrary} {builder : ScanFileReaderBuilder roaring}

lemma getParquetColumnInfos_annotated (hfind : ∀ name, mp.find? name = nameId names name)
    (hnonneg : ∀ entry ∈ names, 0 ≤ entry.2) (fields : List ParquetNode) (ids : List Int) :
    (annotated names builder).getParquetColumnInfos (fields.map (annotateField names)) ids =
      { builder with schemaNameMapper := some (getFieldIdByName mp) }.getParquetColumnInfos fields ids := by
  have hname : ∀ i : Nat, ((fields.map (annotateField names))[i]?).elim [] ParquetNode.name =
      (fields[i]?).elim [] ParquetNode.name := by
    intro i
    rw [List.getElem?_map]
    cases fields[i]? with
    | none => rfl
    | some field => exact name_annotateField field
  have hmap := makeFieldIdToIndexMap_annotated hfind hnonneg fields
  simp only [ScanFileReaderBuilder.getParquetColumnInfos, annotated] at hmap ⊢
  rw [hmap]
  congr
  funext fieldIdToIndex
  congr 2
  funext fieldId
  congr 1
  cases fieldIdToIndex.find? fieldId with
  | none => rfl
  | some i => exact hname i

lemma makeFilteringStream_annotated (hfind : ∀ name, mp.find? name = nameId names name)
    (hnonneg : ∀ entry ∈ names, 0 ≤ entry.2) (path : AnnotatedDataPath) :
    (annotated names builder).makeFilteringStream path =
      { builder with schemaNameMapper := some (getFieldIdByName mp) }.makeFilteringStream path := by
  have hopen : (annotated names builder).openParquet path.path = (builder.openParquet path.path).map (fun file =>
      { file with fields := file.fields.map (annotateField names) }) := rfl
  unfold ScanFileReaderBuilder.makeFilteringStream
  rw [hopen]
  cases hfile : builder.openParquet path.path with
  | error message => rfl
  | ok file =>
    have hfinal : ∀ rowGroups ids, (annotated names builder).makeFinalStream
        { file with fields := file.fields.map (annotateField names) } rowGroups ids =
        { builder with schemaNameMapper := some (getFieldIdByName mp) }.makeFinalStream file rowGroups ids := by
      intro rowGroups ids
      unfold ScanFileReaderBuilder.makeFinalStream
      rw [getParquetColumnInfos_annotated hfind hnonneg]
      rfl
    simp only [Except.map, ok_bind, hfinal]
    rfl

end

/-! ### The scan -/

section
variable {roaring : RoaringLibrary} {builder builder' : ScanFileReaderBuilder roaring}

/-- What a scan returns depends on the streams of the files, and on what its readers are given. -/
lemma dataScanner_congr (hstreams : ∀ path, builder.makeFilteringStream path = builder'.makeFilteringStream path)
    (hvector : builder.openDeletionVector = builder'.openDeletionVector) (scanner : DataScanner roaring) :
    scanner.readNext builder = scanner.readNext builder' := by
  have hbuild : ∀ cache path, builder.build cache path = builder'.build cache path := by
    intro cache path
    unfold ScanFileReaderBuilder.build
    rw [hstreams, hvector]
  have hmeta : ∀ cache paths, DataScanner.readMeta builder cache paths = DataScanner.readMeta builder' cache paths := by
    intro cache paths
    induction paths generalizing cache with
    | nil => rfl
    | cons path paths ih => simp only [DataScanner.readMeta, hbuild, ih]
  simp only [DataScanner.readNext, hmeta]

variable (Q : MinQueue PositionalDeleteStream.Reader.getPosition) (ctx : EqualityDeleteContext)
  (deletes : PositionalDeletes) (cb : Bytes → DeleteFile)

lemma projectedScan_congr (hstreams : ∀ path, builder.makeFilteringStream path = builder'.makeFilteringStream path)
    (hreader : builder.toFileReaderBuilder = builder'.toFileReaderBuilder)
    (hvector : builder.openDeletionVector = builder'.openDeletionVector) (faults : Nat → Option LoadFault)
    (scan : ProjectedScan roaring) :
    scan.readNext Q ctx builder deletes cb faults = scan.readNext Q ctx builder' deletes cb faults := by
  have hscanner := fun scanner : DataScanner roaring => dataScanner_congr hstreams hvector scanner
  have hequality : ∀ applier batch, ProjectedScan.applyEqualityDeletes ctx builder faults applier batch =
      ProjectedScan.applyEqualityDeletes ctx builder' faults applier batch := by
    intro applier batch
    unfold ProjectedScan.applyEqualityDeletes
    rw [hreader]
  simp only [ProjectedScan.readNext, ProjectedScan.readInput, hscanner, hequality, hreader]

/-- A mapping is accepted exactly if its text is a JSON array of well formed elements that map no name twice. Every call
of a scan with it returns what the scan without a mapping returns of the same files with the mapped ids. -/
theorem withNameMapping_reads (json : JsonLibrary) (text : Bytes) (builder : ScanFileReaderBuilder roaring) :
    ((∃ mapped, builder.withNameMapping json (some text) = .ok mapped) ↔
      ∃ doc names, json.parse text = some doc ∧ MapsNames doc names) ∧
    ∀ mapped doc names, builder.withNameMapping json (some text) = .ok mapped → json.parse text = some doc →
      MapsNames doc names → (∀ entry ∈ names, 0 ≤ entry.2) →
      ∀ (faults : Nat → Nat → Option LoadFault) (scan : ProjectedScan roaring) (calls : Nat),
        scan.after Q ctx mapped deletes cb faults calls = scan.after Q ctx (annotated names builder) deletes cb faults calls ∧
        ((scan.after Q ctx mapped deletes cb faults calls).readNext Q ctx mapped deletes cb (faults calls)).1 =
          ((scan.after Q ctx (annotated names builder) deletes cb faults calls).readNext Q ctx (annotated names builder)
            deletes cb (faults calls)).1 := by
  have htable : ∀ doc names, json.parse text = some doc → MapsNames doc names →
      ∃ mp, (∀ name, mp.find? name = nameId names name) ∧ builder.withNameMapping json (some text) =
        .ok { builder with schemaNameMapper := some (getFieldIdByName mp) } := by
    intro doc names hdoc hnames
    obtain ⟨mp, hfind⟩ := exists_table names
    use mp, hfind
    have hmapper : mapper doc = .ok mp := mapper_ok_iff.mpr ⟨names, hnames, hfind⟩
    simp only [ScanFileReaderBuilder.withNameMapping, make, hdoc, hmapper, ok_bind]
    rfl
  constructor
  · constructor
    · rintro ⟨mapped, h⟩
      obtain ⟨mp, hmake, -⟩ := bind_ok h
      unfold make at hmake
      cases hdoc : json.parse text with
      | none =>
        rw [hdoc] at hmake
        cases hmake
      | some doc =>
        rw [hdoc] at hmake
        obtain ⟨names, hnames, -⟩ := mapper_ok_iff.mp hmake
        exact ⟨doc, names, rfl, hnames⟩
    · rintro ⟨doc, names, hdoc, hnames⟩
      obtain ⟨mp, -, h⟩ := htable doc names hdoc hnames
      exact ⟨_, h⟩
  · intro mapped doc names h hdoc hnames hnonneg faults scan calls
    obtain ⟨mp, hfind, htable⟩ := htable doc names hdoc hnames
    obtain rfl := Except.ok.inj (htable.symm.trans h)
    have hread : ∀ faults (scan : ProjectedScan roaring), scan.readNext Q ctx
        { builder with schemaNameMapper := some (getFieldIdByName mp) } deletes cb faults =
        scan.readNext Q ctx (annotated names builder) deletes cb faults :=
      projectedScan_congr Q ctx deletes cb (fun path => (makeFilteringStream_annotated hfind hnonneg path).symm) rfl rfl
    have hafter : scan.after Q ctx { builder with schemaNameMapper := some (getFieldIdByName mp) } deletes cb faults calls =
        scan.after Q ctx (annotated names builder) deletes cb faults calls := by
      induction calls with
      | zero => rfl
      | succ calls ih => rw [ProjectedScan.after, ProjectedScan.after, ih, hread]
    exact ⟨hafter, by rw [hafter, hread]⟩

end

/-- `[{"names": ["a"], "field-id": 1}]`. -/
def mappingOfA : Json :=
  .array [.object [(kNames, .array [.string (bytes "a")]), (kFieldId, .int (1 : Int32).toInt)]]

lemma mappingOfA_names : MapsNames mappingOfA [(bytes "a", 1)] := by
  have hgives := @GivesNames.mapped [(kNames, .array [.string (bytes "a")]), (kFieldId, .int (1 : Int32).toInt)]
    [bytes "a"] (.int (1 : Int32).toInt) 1 rfl rfl (deserializeInt32_toInt 1)
  exact ⟨_, _, rfl, .cons hgives .nil, rfl, List.nodup_singleton _⟩

/-- The files of `twoColumnsBuilder`, whose columns lost their ids. -/
def withoutIds : ScanFileReaderBuilder listRoaring :=
  { twoColumnsBuilder [1] with
    openParquet := fun _ => .ok { twoColumnsFile with fields := twoColumnsFile.fields.map (withFieldId (-1)) } }

theorem mappingOfA_reads : ∃ mapped, withoutIds.withNameMapping compactJson (some (compactJson.print mappingOfA)) = .ok mapped ∧
    ((ProjectedScan.mk { metaStream := twoColumnsPaths } {} {}).readNext
      (firstMin PositionalDeleteStream.Reader.getPosition) deleteOnSecondContext mapped ⟨∅⟩
      (fun _ => threeDeletes) (fun _ => none)).1 =
    ((ProjectedScan.mk { metaStream := twoColumnsPaths } {} {}).readNext
      (firstMin PositionalDeleteStream.Reader.getPosition) deleteOnSecondContext
      (annotated [(bytes "a", 1)] withoutIds) ⟨∅⟩ (fun _ => threeDeletes) (fun _ => none)).1 := by
  have hparse := compactJson.parse_print mappingOfA
  obtain ⟨haccepts, hreads⟩ := withNameMapping_reads (firstMin PositionalDeleteStream.Reader.getPosition)
    deleteOnSecondContext ⟨∅⟩ (fun _ => threeDeletes) compactJson (compactJson.print mappingOfA) withoutIds
  obtain ⟨mapped, hmapped⟩ := haccepts.mpr ⟨mappingOfA, _, hparse, mappingOfA_names⟩
  have hcall := hreads mapped mappingOfA [(bytes "a", 1)] hmapped hparse mappingOfA_names (by simp)
    (fun _ _ => none) (ProjectedScan.mk { metaStream := twoColumnsPaths } {} {}) 0
  simp only [ProjectedScan.after] at hcall
  exact ⟨mapped, hmapped, hcall.2⟩

end IcebergCxx.Proofs

import IcebergCxx.Lib.Avro

/-!
# Reading some of the fields of a file

A reader may ask for some of the fields of the records of a file, in any order: fields are found by their names, and the
values of the others are left out. `Selects` says that a schema asks for nothing else, `resolve` is what becomes of a
datum, and `Resolves` says that a library reads so.
-/

namespace IcebergCxx.Lib

/-- The schema of a field of a record. -/
def findSchema (name : Bytes) (fields : List (Bytes × AvroSchema)) : Option AvroSchema :=
  (fields.find? (fun field => field.1 = name)).map Prod.snd

mutual

/-- A schema asks for some fields of the records of another one, and leaves all other types as they are. -/
def Selects : AvroSchema → AvroSchema → Prop
  | written, .record name read => ∃ fields, written = .record name fields ∧ SelectsFields fields read
  | written, read => written = read

def SelectsFields : List (Bytes × AvroSchema) → List (Bytes × AvroSchema) → Prop
  | _, [] => True
  | fields, (name, read) :: rest =>
    (∃ s, findSchema name fields = some s ∧ Selects s read) ∧ SelectsFields fields rest

end

mutual

/-- A datum as it is read with a schema that selects from its own. -/
def resolve : AvroSchema → AvroDatum → AvroDatum
  | .record _ read, .record values => .record (resolveFields read values)
  | _, datum => datum

def resolveFields : List (Bytes × AvroSchema) → List (Bytes × AvroDatum) → List (Bytes × AvroDatum)
  | [], _ => []
  | (name, read) :: rest, values =>
    ((findDatum name values).map (fun datum => (name, resolve read datum))).toList ++ resolveFields rest values

end

mutual

/-- No two fields of a record share their name, in the records that can be selected from. -/
def distinctNames : AvroSchema → Bool
  | .record _ fields => decide (fields.map Prod.fst).Nodup && distinctNamesFields fields
  | _ => true

def distinctNamesFields : List (Bytes × AvroSchema) → Bool
  | [] => true
  | (_, s) :: fields => distinctNames s && distinctNamesFields fields

end

/-! ### Fields that are found -/

lemma findSchema_cons (name key : Bytes) (s : AvroSchema) (fields : List (Bytes × AvroSchema)) :
    findSchema name ((key, s) :: fields) = if key = name then some s else findSchema name fields := by
  by_cases h : key = name
  · simp [findSchema, h]
  · simp [findSchema, h]

lemma findSchema_of_mem {name : Bytes} {s : AvroSchema} {fields : List (Bytes × AvroSchema)}
    (hnodup : (fields.map Prod.fst).Nodup) (h : (name, s) ∈ fields) : findSchema name fields = some s := by
  induction fields with
  | nil => cases h
  | cons field fields ih =>
    obtain ⟨key, first⟩ := field
    rw [List.map_cons, List.nodup_cons] at hnodup
    rw [findSchema_cons]
    rcases List.mem_cons.mp h with heq | h
    · cases heq
      rw [if_pos rfl]
    · have hne : name ≠ key := ne_of_mem_of_not_mem (List.mem_map_of_mem h) hnodup.1
      rw [if_neg hne.symm, ih hnodup.2 h]

/-- The value of a field is resolved as the field is asked for. -/
lemma findDatum_resolveFields (name : Bytes) (read : List (Bytes × AvroSchema)) (values : List (Bytes × AvroDatum)) :
    findDatum name (resolveFields read values) =
      (findSchema name read).bind (fun s => (findDatum name values).map (resolve s)) := by
  induction read with
  | nil => rfl
  | cons field read ih =>
    obtain ⟨key, s⟩ := field
    rw [findSchema_cons, resolveFields]
    by_cases hkey : key = name
    · subst hkey
      rw [if_pos rfl, Option.bind_some]
      cases hfind : findDatum key values with
      | some datum => simp [findDatum]
      | none =>
        rw [hfind] at ih
        simp only [Option.map_none, Option.toList_none, List.nil_append, ih]
        cases findSchema key read <;> rfl
    · rw [if_neg hkey]
      cases hfind : findDatum key values with
      | some datum =>
        rw [← ih]
        simp [findDatum, hkey]
      | none => simpa using ih

/-- A field that is asked for, of a type that nothing is left out of. -/
lemma findDatum_resolveFields_of_plain {name : Bytes} {s : AvroSchema} {read : List (Bytes × AvroSchema)}
    (hread : findSchema name read = some s) (hs : ∀ d, resolve s d = d) (values : List (Bytes × AvroDatum)) :
    findDatum name (resolveFields read values) = findDatum name values := by
  rw [findDatum_resolveFields, hread, Option.bind_some, funext hs, Option.map_id']

lemma findDatum_append (name : Bytes) (l l' : List (Bytes × AvroDatum)) :
    findDatum name (l ++ l') = (findDatum name l).or (findDatum name l') := by
  induction l with
  | nil => rfl
  | cons field l ih =>
    obtain ⟨key, d⟩ := field
    by_cases hkey : key = name
    · simp [findDatum, hkey]
    · simpa [findDatum, hkey] using ih

lemma findDatum_eq_none_iff {name : Bytes} {l : List (Bytes × AvroDatum)} :
    findDatum name l = none ↔ name ∉ l.map Prod.fst := by
  induction l with
  | nil => simp [findDatum]
  | cons field l ih =>
    obtain ⟨key, d⟩ := field
    by_cases hkey : key = name
    · simp [findDatum, hkey]
    · simp [findDatum, hkey, ih, Ne.symm hkey]

lemma distinctNames_of_find {name : Bytes} {s : AvroSchema} {fields : List (Bytes × AvroSchema)}
    (hdistinct : distinctNamesFields fields = true) (h : findSchema name fields = some s) : distinctNames s = true := by
  induction fields with
  | nil => cases h
  | cons field fields ih =>
    obtain ⟨key, first⟩ := field
    rw [distinctNamesFields, Bool.and_eq_true] at hdistinct
    rw [findSchema_cons] at h
    split_ifs at h with hkey
    · cases h
      exact hdistinct.1
    · exact ih hdistinct.2 h

lemma distinctNamesFields_of_forall {fields : List (Bytes × AvroSchema)} (h : ∀ field ∈ fields, distinctNames field.2 = true) :
    distinctNamesFields fields = true := by
  induction fields with
  | nil => rfl
  | cons field fields ih =>
    rw [List.forall_mem_cons] at h
    rw [distinctNamesFields, h.1, ih h.2]
    rfl

lemma selectsFields_find {fields read : List (Bytes × AvroSchema)} (h : SelectsFields fields read) {name : Bytes}
    {s : AvroSchema} (hread : findSchema name read = some s) :
    ∃ written, findSchema name fields = some written ∧ Selects written s := by
  induction read with
  | nil => cases hread
  | cons field read ih =>
    obtain ⟨key, first⟩ := field
    obtain ⟨⟨written, hfind, hselects⟩, hrest⟩ := h
    rw [findSchema_cons] at hread
    split_ifs at hread with hkey
    · cases hread
      rw [← hkey]
      exact ⟨written, hfind, hselects⟩
    · exact ih hrest hread

/-- Some of the fields of a record. -/
lemma selectsFields_of_plain {fields read : List (Bytes × AvroSchema)} (hnodup : (fields.map Prod.fst).Nodup)
    (hsubset : read ⊆ fields) (hselects : ∀ field ∈ read, Selects field.2 field.2) : SelectsFields fields read := by
  induction read with
  | nil => trivial
  | cons field read ih =>
    obtain ⟨name, s⟩ := field
    rw [List.cons_subset] at hsubset
    rw [List.forall_mem_cons] at hselects
    exact ⟨⟨s, findSchema_of_mem hnodup hsubset.1, hselects.1⟩, ih hsubset.2 hselects.2⟩

/-! ### Data that conform -/

lemma ConformsFields.names {fields : List (Bytes × AvroSchema)} {values : List (Bytes × AvroDatum)}
    (h : ConformsFields fields values) : values.map Prod.fst = fields.map Prod.fst := by
  induction fields generalizing values with
  | nil =>
    cases h
    rfl
  | cons field fields ih =>
    cases h with
    | cons name hd h => rw [List.map_cons, List.map_cons, ih h]

lemma ConformsFields.exists_findDatum {fields : List (Bytes × AvroSchema)} {values : List (Bytes × AvroDatum)}
    (h : ConformsFields fields values) {name : Bytes} {s : AvroSchema} (hfind : findSchema name fields = some s) :
    ∃ d, findDatum name values = some d ∧ Conforms s d := by
  induction fields generalizing values with
  | nil => cases hfind
  | cons field fields ih =>
    cases h with
    | @cons key first d _ values hd h =>
      rw [findSchema_cons] at hfind
      rw [findDatum]
      split_ifs at hfind ⊢ with hkey
      · cases hfind
        exact ⟨d, rfl, hd⟩
      · exact ih h hfind

mutual

/-- A datum that is read with its own schema is not changed. -/
lemma resolve_self : ∀ {s : AvroSchema} {d : AvroDatum}, distinctNames s = true → Conforms s d → resolve s d = d
  | .record _ fields, _, hdistinct, .record _ h => by
    rw [distinctNames, Bool.and_eq_true, decide_eq_true_eq] at hdistinct
    have hfields := @resolveFields_self fields [] _ hdistinct.2 h (by rw [List.nil_append, h.names]; exact hdistinct.1)
    rw [List.nil_append] at hfields
    rw [resolve, hfields]
  | .null, _, _, _ => rfl
  | .boolean, _, _, _ => rfl
  | .int _, _, _, _ => rfl
  | .long _, _, _, _ => rfl
  | .float, _, _, _ => rfl
  | .double, _, _, _ => rfl
  | .bytes, _, _, _ => rfl
  | .string, _, _, _ => rfl
  | .fixed _ _ _, _, _, _ => rfl
  | .array _, _, _, _ => rfl
  | .union _, _, _, _ => rfl

lemma resolveFields_self : ∀ {fields : List (Bytes × AvroSchema)} {before values : List (Bytes × AvroDatum)},
    distinctNamesFields fields = true → ConformsFields fields values → ((before ++ values).map Prod.fst).Nodup →
    resolveFields fields (before ++ values) = values
  | [], _, _, _, .nil, _ => rfl
  | (name, s) :: fields, before, _, hdistinct, @ConformsFields.cons _ _ d _ values hd h, hnodup => by
    rw [distinctNamesFields, Bool.and_eq_true] at hdistinct
    have hnotMem : name ∉ before.map Prod.fst := by
      rw [List.map_append, List.nodup_append] at hnodup
      intro hmem
      exact hnodup.2.2 name hmem name (by simp) rfl
    have hfind : findDatum name (before ++ (name, d) :: values) = some d := by
      rw [findDatum_append, findDatum_eq_none_iff.mpr hnotMem]
      simp [findDatum]
    have hrest : resolveFields fields (before ++ (name, d) :: values) = values := by
      have hsplit : before ++ (name, d) :: values = (before ++ [(name, d)]) ++ values := by simp
      rw [hsplit] at hnodup ⊢
      exact resolveFields_self hdistinct.2 h hnodup
    rw [resolveFields, hfind, hrest, Option.map_some, resolve_self hdistinct.1 hd]
    rfl

end

/-- Fields of types that nothing is left out of, all of which the datum has. -/
lemma resolveFields_of_plain {fields read : List (Bytes × AvroSchema)} {values : List (Bytes × AvroDatum)}
    (hselects : SelectsFields fields read) (hplain : ∀ field ∈ read, ∀ d, resolve field.2 d = d)
    (h : ConformsFields fields values) :
    (resolveFields read values).map Prod.fst = read.map Prod.fst ∧
      ∀ field ∈ resolveFields read values, findDatum field.1 values = some field.2 := by
  induction read with
  | nil => simp [resolveFields]
  | cons field read ih =>
    obtain ⟨name, s⟩ := field
    obtain ⟨⟨written, hfind, -⟩, hrest⟩ := hselects
    obtain ⟨hnames, hvalues⟩ := ih hrest (fun field hfield => hplain field (List.mem_cons_of_mem _ hfield))
    obtain ⟨d, hd, -⟩ := h.exists_findDatum hfind
    have hs : resolve s d = d := hplain (name, s) List.mem_cons_self d
    rw [resolveFields, hd, Option.map_some, Option.toList_some, hs, List.singleton_append, List.map_cons, List.map_cons,
      hnames, List.forall_mem_cons]
    exact ⟨rfl, hd, hvalues⟩

lemma mem_of_findDatum {name : Bytes} {d : AvroDatum} {values : List (Bytes × AvroDatum)}
    (h : findDatum name values = some d) : (name, d) ∈ values := by
  induction values with
  | nil => cases h
  | cons field values ih =>
    obtain ⟨key, first⟩ := field
    rw [findDatum] at h
    split_ifs at h with hkey
    · cases h
      rw [hkey]
      exact List.mem_cons_self
    · exact List.mem_cons_of_mem _ (ih h)

/-- A record of such fields is read as a permutation of its values, if all of them are asked for. -/
lemma resolveFields_perm {fields read : List (Bytes × AvroSchema)} {values : List (Bytes × AvroDatum)}
    (hselects : SelectsFields fields read) (hplain : ∀ field ∈ read, ∀ d, resolve field.2 d = d)
    (hnodup : (read.map Prod.fst).Nodup) (hlen : fields.length ≤ read.length) (h : ConformsFields fields values) :
    (resolveFields read values).Perm values := by
  obtain ⟨hnames, hvalues⟩ := resolveFields_of_plain hselects hplain h
  have hsubset : resolveFields read values ⊆ values := fun field hfield => mem_of_findDatum (hvalues field hfield)
  have hread : (resolveFields read values).Nodup := by
    rw [← hnames] at hnodup
    exact hnodup.of_map _
  have hshort : values.length ≤ (resolveFields read values).length := by
    have hl := congrArg List.length h.names
    have hl' := congrArg List.length hnames
    rw [List.length_map, List.length_map] at hl hl'
    omega
  exact (List.subperm_of_subset hread hsubset).perm_of_length_le hshort

/-! ### The library -/

mutual

/-- What a selection reads of a datum that was read with the schema of the file. -/
lemma resolve_resolve : ∀ {written read : AvroSchema}, Selects written read → ∀ d : AvroDatum,
    resolve read (resolve written d) = resolve read d
  | written, .record name read, h, d => by
    obtain ⟨fields, rfl, hfields⟩ := h
    cases d with
    | record values =>
      rw [resolve, resolve, resolve, resolveFields_resolveFields hfields]
    | _ => rfl
  | _, .null, rfl, _ => rfl
  | _, .boolean, rfl, _ => rfl
  | _, .int _, rfl, _ => rfl
  | _, .long _, rfl, _ => rfl
  | _, .float, rfl, _ => rfl
  | _, .double, rfl, _ => rfl
  | _, .bytes, rfl, _ => rfl
  | _, .string, rfl, _ => rfl
  | _, .fixed _ _ _, rfl, _ => rfl
  | _, .array _, rfl, _ => rfl
  | _, .union _, rfl, _ => rfl

lemma resolveFields_resolveFields : ∀ {fields read : List (Bytes × AvroSchema)}, SelectsFields fields read →
    ∀ values : List (Bytes × AvroDatum), resolveFields read (resolveFields fields values) = resolveFields read values
  | _, [], _, _ => rfl
  | fields, (name, s) :: read, ⟨⟨written, hfind, hselects⟩, hrest⟩, values => by
    rw [resolveFields, resolveFields, findDatum_resolveFields, hfind, Option.bind_some,
      resolveFields_resolveFields hrest]
    cases findDatum name values with
    | none => rfl
    | some d => rw [Option.map_some, Option.map_some, Option.map_some, resolve_resolve hselects]

end

/-- The library reads a file with a schema that selects from that of the file. -/
def Resolves (avro : AvroLibrary) : Prop :=
  ∀ file read l, distinctNames (avro.dataSchema file) = true → Selects (avro.dataSchema file) read →
    avro.readFile file (avro.dataSchema file) = .ok l → avro.readFile file read = .ok (l.map (resolve read))

/-- A library that keeps its files in memory and reads them with such schemas. -/
def memoryResolvingAvro : AvroLibrary :=
  { memoryAvro with
    readFile := fun file read => .ok (if distinctNames file.1 then file.2.2.map (resolve read) else file.2.2)
    read_write := by
      intro s m l hconforms
      change Except.ok (if distinctNames s = true then l.map (resolve s) else l) = Except.ok l
      split_ifs with hdistinct
      · rw [List.map_congr_left (fun d hd => resolve_self hdistinct (hconforms d hd)), List.map_id']
      · rfl }

lemma memoryResolvingAvro_resolves : Resolves memoryResolvingAvro := by
  rintro ⟨s, m, data⟩ read l hdistinct hselects hread
  change Except.ok (if distinctNames s = true then data.map (resolve s) else data) = Except.ok l at hread
  change Except.ok (if distinctNames s = true then data.map (resolve read) else data) = _
  change distinctNames s = true at hdistinct
  rw [if_pos hdistinct] at hread ⊢
  cases hread
  rw [List.map_map]
  exact congrArg Except.ok (List.map_congr_left (fun d _ => (resolve_resolve hselects d).symm))

end IcebergCxx.Lib

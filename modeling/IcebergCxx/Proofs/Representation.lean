import IcebergCxx.Proofs.Segments

/-!
# When the comparison of plans decides their equivalence

The deletes that `MakeRepresentation` gives to a data file are those of later layers of its
partition: in the flat list the data entries of a layer come before its deletes. The entries of a
file are united from the second one on, with the deletion vector of the first one.
-/

namespace IcebergCxx.Proofs

open Lib

/-! ### Deletes of the files -/

section
variable {α : Type} [DecidableEq α]

/-- What the loop over a flat list sees of one kind of deletes. -/
inductive FileEvent (α : Type)
  | delete (d : α)
  | data (path : Bytes)
  | other

/-- One round of the loop, on the deletes met so far and the deletes of the files. -/
def collect (state : Finset α × OrdMap Bytes (Finset α)) : FileEvent α → Finset α × OrdMap Bytes (Finset α)
  | .delete d => (insert d state.1, state.2)
  | .data path => (state.1, insertDeletes state.2 path state.1)
  | .other => state

def deletesAt (files : OrdMap Bytes (Finset α)) (path : Bytes) : Finset α := (files.find? path).getD ∅

lemma mem_deletesAt_insertDeletes {files : OrdMap Bytes (Finset α)} {path path' : Bytes} {s : Finset α} {d : α} :
    d ∈ deletesAt (insertDeletes files path' s) path ↔ d ∈ deletesAt files path ∨ (d ∈ s ∧ path = path') := by
  unfold deletesAt insertDeletes
  split_ifs with hs
  · simp [hs]
  · rw [OrdMap.find?_alter]
    split_ifs with hp
    · subst hp
      simp
    · simp [hp]

/-- A file has the deletes met before one of its entries. -/
lemma mem_collect {events : List (FileEvent α)} {state : Finset α × OrdMap Bytes (Finset α)} {path : Bytes} {d : α} :
    d ∈ deletesAt (events.foldl collect state).2 path ↔
      d ∈ deletesAt state.2 path ∨ (d ∈ state.1 ∧ .data path ∈ events) ∨
        [.delete d, .data path].Sublist events := by
  induction events generalizing state with
  | nil => simp
  | cons event events ih =>
    rw [List.foldl_cons, ih, List.cons_sublist_cons']
    cases event with
    | delete d' =>
      have hd : FileEvent.delete d = FileEvent.delete d' ↔ d = d' := by simp
      simp only [collect, Finset.mem_insert, List.singleton_sublist, List.mem_cons, reduceCtorEq, false_or, hd]
      tauto
    | data path' =>
      have hp : FileEvent.data (α := α) path = FileEvent.data path' ↔ path = path' := by simp
      simp only [collect, mem_deletesAt_insertDeletes, List.mem_cons, reduceCtorEq, false_and, or_false, hp]
      tauto
    | other =>
      simp only [collect, List.mem_cons, reduceCtorEq, false_and, or_false, false_or]

/-- No file has an empty set of deletes. -/
def NoEmptySet (files : OrdMap Bytes (Finset α)) : Prop := ∀ path, files.find? path ≠ some ∅

lemma noEmptySet_collect {events : List (FileEvent α)} {state : Finset α × OrdMap Bytes (Finset α)}
    (h : NoEmptySet state.2) : NoEmptySet (events.foldl collect state).2 := by
  induction events generalizing state with
  | nil => exact h
  | cons event events ih =>
    apply ih
    cases event with
    | delete d => exact h
    | other => exact h
    | data path' =>
      intro path
      change (insertDeletes state.2 path' state.1).find? path ≠ some ∅
      unfold insertDeletes
      split_ifs with hs
      · exact h path
      · rw [OrdMap.find?_alter]
        split_ifs with hp
        · simp [Finset.union_eq_empty, hs]
        · exact h path

omit [DecidableEq α] in
/-- Without empty sets the deletes of the files determine the map. -/
lemma NoEmptySet.ext {files files' : OrdMap Bytes (Finset α)} (h : NoEmptySet files) (h' : NoEmptySet files') :
    files = files' ↔ ∀ path d, d ∈ deletesAt files path ↔ d ∈ deletesAt files' path := by
  refine ⟨fun heq path d => by rw [heq], fun hd => OrdMap.ext_find (fun path => ?_)⟩
  have hset : deletesAt files path = deletesAt files' path := by
    ext d
    exact hd path d
  have h1 := h path
  have h2 := h' path
  unfold deletesAt at hset
  cases hf : files.find? path <;> cases hf' : files'.find? path <;> simp_all [eq_comm]

end

/-- The deletes of a layer in the flat list. -/
def layerDeletes (layer : Layer) : List IcebergFile :=
  layer.positionalDeleteEntries.map .positionalDelete ++ layer.equalityDeleteEntries.map .equalityDelete

/-- A kind of deletes: its entries in a layer, what it sees of a file and its part of the loop's state. -/
structure DeleteKind (α : Type) [DecidableEq α] where
  entries : Layer → List α
  event : IcebergFile → FileEvent α
  project : DeletesState → Finset α × OrdMap Bytes (Finset α)
  event_data : ∀ entry, event (.dataEntry entry) = .data entry.path
  mem_deletes : ∀ layer d, .delete d ∈ (layerDeletes layer).map event ↔ d ∈ entries layer
  data_notMem_deletes : ∀ layer path, .data path ∉ (layerDeletes layer).map event
  project_addFile : ∀ state file, project (addFile state file) = collect (project state) (event file)
  project_reset : ∀ state, project { state with currentPositionalDeletes := ∅, currentEqualityDeletes := ∅ } =
    (∅, (project state).2)

def positionalEvent : IcebergFile → FileEvent PositionalDeleteInfo
  | .positionalDelete info => .delete info
  | .dataEntry entry => .data entry.path
  | .equalityDelete _ => .other

def equalityEvent : IcebergFile → FileEvent EqualityDeleteInfo
  | .positionalDelete _ => .other
  | .dataEntry entry => .data entry.path
  | .equalityDelete info => .delete info

def positionalKind : DeleteKind PositionalDeleteInfo where
  entries := Layer.positionalDeleteEntries
  event := positionalEvent
  project state := (state.currentPositionalDeletes, state.dataFileToPositionalDeletes)
  event_data _ := rfl
  mem_deletes layer d := by simp [layerDeletes, positionalEvent]
  data_notMem_deletes layer path := by simp [layerDeletes, positionalEvent]
  project_addFile state file := by cases file <;> rfl
  project_reset _ := rfl

def equalityKind : DeleteKind EqualityDeleteInfo where
  entries := Layer.equalityDeleteEntries
  event := equalityEvent
  project state := (state.currentEqualityDeletes, state.dataFileToEqualityDeletes)
  event_data _ := rfl
  mem_deletes layer d := by simp [layerDeletes, equalityEvent]
  data_notMem_deletes layer path := by simp [layerDeletes, equalityEvent]
  project_addFile state file := by cases file <;> rfl
  project_reset _ := rfl

/-- The layer has an entry of the data file. -/
def HasFile (layer : Layer) (path : Bytes) : Prop := ∃ entry ∈ layer.dataEntries, entry.path = path

section
variable {α : Type} [DecidableEq α] (kind : DeleteKind α)

/-- A delete of a later layer than a layer of the data file. -/
def LaterIn (entries : Layer → List α) (partition : Partition) (path : Bytes) (d : α) : Prop :=
  ∃ (i k : Nat) (layer layer' : Layer), i < k ∧ partition[i]? = some layer ∧ partition[k]? = some layer' ∧
    HasFile layer path ∧ d ∈ entries layer'

omit [DecidableEq α] in
lemma laterIn_cons {entries : Layer → List α} {first : Layer} {partition : Partition} {path : Bytes} {d : α} :
    LaterIn entries (first :: partition) path d ↔
      LaterIn entries partition path d ∨ (HasFile first path ∧ ∃ layer' ∈ partition, d ∈ entries layer') := by
  constructor
  · rintro ⟨i, k, layer, layer', hik, hi, hk, hfile, hd⟩
    obtain ⟨k, rfl⟩ : ∃ k', k = k' + 1 := ⟨k - 1, by omega⟩
    rw [List.getElem?_cons_succ] at hk
    cases i with
    | zero =>
      rw [List.getElem?_cons_zero, Option.some_inj] at hi
      subst hi
      exact .inr ⟨hfile, layer', List.mem_of_getElem? hk, hd⟩
    | succ i =>
      rw [List.getElem?_cons_succ] at hi
      exact .inl ⟨i, k, layer, layer', by omega, hi, hk, hfile, hd⟩
  · rintro (⟨i, k, layer, layer', hik, hi, hk, hfile, hd⟩ | ⟨hfile, layer', hlayer', hd⟩)
    · exact ⟨i + 1, k + 1, layer, layer', by omega, hi, hk, hfile, hd⟩
    · obtain ⟨k, hk⟩ := List.mem_iff_getElem?.mp hlayer'
      exact ⟨0, k + 1, first, layer', by omega, rfl, hk, hfile, hd⟩

lemma pair_sublist_append {β : Type} {x y : β} {l l' : List β} :
    [x, y].Sublist (l ++ l') ↔ [x, y].Sublist l ∨ (x ∈ l ∧ y ∈ l') ∨ [x, y].Sublist l' := by
  induction l with
  | nil => simp
  | cons z l ih =>
    rw [List.cons_append, List.cons_sublist_cons', List.cons_sublist_cons', ih, List.singleton_sublist,
      List.singleton_sublist, List.mem_append, List.mem_cons]
    tauto

/-- The files of one layer in the flat list. -/
def layerFiles (layer : Layer) : List IcebergFile := layer.dataEntries.map .dataEntry ++ layerDeletes layer

lemma makeFlatFilesList_cons (layer : Layer) (partition : Partition) :
    makeFlatFilesList (layer :: partition) = makeFlatFilesList partition ++ layerFiles layer := by
  simp [makeFlatFilesList, layerFiles, layerDeletes, List.append_assoc]

lemma data_mem_layerFiles {layer : Layer} {path : Bytes} :
    .data path ∈ (layerFiles layer).map kind.event ↔ HasFile layer path := by
  rw [layerFiles, List.map_append, List.mem_append, or_iff_left (kind.data_notMem_deletes layer path), List.map_map]
  simp [HasFile, kind.event_data]

lemma delete_mem_layerFiles {layer : Layer} {d : α} :
    .delete d ∈ (layerFiles layer).map kind.event ↔ d ∈ kind.entries layer := by
  rw [layerFiles, List.map_append, List.mem_append, kind.mem_deletes layer d, List.map_map]
  simp [kind.event_data]

lemma delete_mem_flat {partition : Partition} {d : α} :
    .delete d ∈ (makeFlatFilesList partition).map kind.event ↔ ∃ layer ∈ partition, d ∈ kind.entries layer := by
  induction partition with
  | nil => simp [makeFlatFilesList]
  | cons layer partition ih =>
    rw [makeFlatFilesList_cons, List.map_append, List.mem_append, ih, delete_mem_layerFiles]
    simp [or_comm]

/-- In one layer no delete comes before a data entry. -/
lemma not_sublist_layerFiles {layer : Layer} {path : Bytes} {d : α} :
    ¬[.delete d, .data path].Sublist ((layerFiles layer).map kind.event) := by
  rw [layerFiles, List.map_append, pair_sublist_append]
  rintro (h | ⟨-, h⟩ | h)
  · have := h.subset List.mem_cons_self
    simp [kind.event_data] at this
  · exact kind.data_notMem_deletes layer path h
  · exact kind.data_notMem_deletes layer path (h.subset (by simp))

lemma sublist_flat {partition : Partition} {path : Bytes} {d : α} :
    [.delete d, .data path].Sublist ((makeFlatFilesList partition).map kind.event) ↔
      LaterIn kind.entries partition path d := by
  induction partition with
  | nil => simp [makeFlatFilesList, LaterIn]
  | cons layer partition ih =>
    rw [makeFlatFilesList_cons, List.map_append, pair_sublist_append, ih, laterIn_cons,
      or_iff_left (not_sublist_layerFiles kind), delete_mem_flat, data_mem_layerFiles, and_comm (a := HasFile layer path)]

lemma project_foldl_addFile (files : List IcebergFile) (state : DeletesState) :
    kind.project (files.foldl addFile state) = (files.map kind.event).foldl collect (kind.project state) := by
  induction files generalizing state with
  | nil => rfl
  | cons file files ih => rw [List.foldl_cons, ih, kind.project_addFile, List.map_cons, List.foldl_cons]

lemma project_addPartitionDeletes (state : DeletesState) (partition : Partition) :
    kind.project (addPartitionDeletes state partition) =
      ((makeFlatFilesList partition).map kind.event).foldl collect (∅, (kind.project state).2) := by
  rw [addPartitionDeletes, project_foldl_addFile, kind.project_reset]

/-- A delete of a later layer of the file's partition. -/
def Later (entries : Layer → List α) (plan : ScanMetadata) (path : Bytes) (d : α) : Prop :=
  ∃ partition ∈ plan.partitions, LaterIn entries partition path d

lemma mem_deletesAt_foldl {partitions : List Partition} {state : DeletesState} {path : Bytes} {d : α} :
    d ∈ deletesAt (kind.project (partitions.foldl addPartitionDeletes state)).2 path ↔
      d ∈ deletesAt (kind.project state).2 path ∨
        ∃ partition ∈ partitions, LaterIn kind.entries partition path d := by
  induction partitions generalizing state with
  | nil => simp
  | cons partition partitions ih =>
    rw [List.foldl_cons, ih, project_addPartitionDeletes, mem_collect, sublist_flat]
    simp [or_assoc]

lemma noEmptySet_foldl {partitions : List Partition} {state : DeletesState}
    (h : NoEmptySet (kind.project state).2) :
    NoEmptySet (kind.project (partitions.foldl addPartitionDeletes state)).2 := by
  induction partitions generalizing state with
  | nil => exact h
  | cons partition partitions ih =>
    apply ih
    rw [project_addPartitionDeletes]
    exact noEmptySet_collect h

end

/-! ### Data entries of the files -/

/-- The left entry with the segments of both. -/
def uniteEntries (sort : SegmentSort) (lhs other : DataEntry) : DataEntry :=
  { lhs with parts := united (sort.sort (lhs.parts ++ other.parts)) }

lemma addAssign_eq (sort : SegmentSort) {lhs other : DataEntry} (h : lhs.path = other.path) :
    lhs.addAssign sort other = .ok (uniteEntries sort lhs other) := by
  unfold DataEntry.addAssign
  rw [decide_eq_true h, ensure_true, ok_bind, uniteSegments_of_sorted (sort.sorted _), ok_bind]
  rfl

/-- The entries of a file, united. -/
def unitedEntry (sort : SegmentSort) : List DataEntry → Option DataEntry
  | [] => none
  | entry :: entries => some (entries.foldl (uniteEntries sort) entry)

/-- The entries of a data file in the plan. -/
def fileEntries (plan : ScanMetadata) (path : Bytes) : List DataEntry :=
  plan.dataEntries.filter (fun entry => entry.path = path)

/-- The files found so far, with the rest of the entries of a file. -/
def unitedWith (sort : SegmentSort) (found : Option DataEntry) (entries : List DataEntry) : Option DataEntry :=
  unitedEntry sort (found.toList ++ entries)

lemma foldlM_addDataEntry (sort : SegmentSort) {entries : List DataEntry} {files : OrdMap Bytes DataEntry}
    (h : ∀ path entry, files.find? path = some entry → entry.path = path) :
    ∃ files', entries.foldlM (addDataEntry sort) files = .ok files' ∧
      ∀ path, files'.find? path =
        unitedWith sort (files.find? path) (entries.filter (fun entry => entry.path = path)) := by
  induction entries generalizing files with
  | nil =>
    refine ⟨files, rfl, fun path => ?_⟩
    cases files.find? path <;> rfl
  | cons entry entries ih =>
    rw [List.foldlM_cons]
    unfold addDataEntry
    cases hfound : files.find? entry.path with
    | none =>
      have hpaths : ∀ path entry', (files.emplace entry.path entry).find? path = some entry' → entry'.path = path := by
        intro path entry' hentry'
        rw [OrdMap.find?_emplace] at hentry'
        split_ifs at hentry' with hp
        · rw [hfound, Option.getD_none, Option.some_inj] at hentry'
          rw [← hentry', hp]
        · exact h path entry' hentry'
      obtain ⟨files', hfiles', hfind⟩ := ih hpaths
      refine ⟨files', hfiles', fun path => ?_⟩
      rw [hfind, OrdMap.find?_emplace]
      by_cases hp : path = entry.path
      · rw [if_pos hp, hp, hfound]
        simp [unitedWith]
      · rw [if_neg hp, List.filter_cons_of_neg (by simpa using Ne.symm hp)]
    | some found =>
      dsimp only
      rw [addAssign_eq sort (h _ _ hfound), ok_bind]
      have hpaths : ∀ path entry',
          (files.insert entry.path (uniteEntries sort found entry)).find? path = some entry' → entry'.path = path := by
        intro path entry' hentry'
        rw [OrdMap.find?_insert] at hentry'
        split_ifs at hentry' with hp
        · rw [Option.some_inj] at hentry'
          rw [← hentry', hp]
          exact h _ found hfound
        · exact h path entry' hentry'
      obtain ⟨files', hfiles', hfind⟩ := ih hpaths
      refine ⟨files', hfiles', fun path => ?_⟩
      rw [hfind, OrdMap.find?_insert]
      by_cases hp : path = entry.path
      · rw [if_pos hp, hp, hfound]
        simp [unitedWith, unitedEntry]
      · rw [if_neg hp, List.filter_cons_of_neg (by simpa using Ne.symm hp)]

lemma cover_perm {l l' : List Segment} (h : l.Perm l') : cover l = cover l' := by
  ext x
  simp only [cover, Set.mem_ofPred_eq, h.mem_iff]

lemma united_sort_spec (sort : SegmentSort) {l : List Segment} (hl : Proper l) :
    Canonical (united (sort.sort l)) ∧ cover (united (sort.sort l)) = cover l := by
  have hproper : Proper (sort.sort l) := fun s hs => hl s ((sort.perm l).mem_iff.mp hs)
  obtain ⟨h1, h2⟩ := united_spec hproper (sort.sorted l)
  exact ⟨h1, h2.trans (cover_perm (sort.perm l))⟩

lemma mem_cover_append {l l' : List Segment} {x : Int} : x ∈ cover (l ++ l') ↔ x ∈ cover l ∨ x ∈ cover l' := by
  induction l with
  | nil => simp [cover]
  | cons s l ih => rw [List.cons_append, mem_cover_cons, ih, mem_cover_cons, or_assoc]

lemma uniteEntries_spec (sort : SegmentSort) {lhs other : DataEntry} (h : Proper lhs.parts) (h' : Proper other.parts) :
    Canonical (uniteEntries sort lhs other).parts ∧
      ∀ x, x ∈ cover (uniteEntries sort lhs other).parts ↔ x ∈ cover lhs.parts ∨ x ∈ cover other.parts := by
  have hproper : Proper (lhs.parts ++ other.parts) := by
    intro s hs
    rcases List.mem_append.mp hs with hs | hs
    · exact h s hs
    · exact h' s hs
  obtain ⟨h1, h2⟩ := united_sort_spec sort hproper
  refine ⟨h1, fun x => ?_⟩
  rw [← mem_cover_append]
  exact Set.ext_iff.mp h2 x

/-- Uniting keeps the first entry's path and vector and covers the bytes of all entries. -/
lemma foldl_uniteEntries_spec (sort : SegmentSort) {entry : DataEntry} {entries : List DataEntry}
    (h : Proper entry.parts) (hl : ∀ other ∈ entries, Proper other.parts) :
    (entries.foldl (uniteEntries sort) entry).path = entry.path ∧
      (entries.foldl (uniteEntries sort) entry).dv = entry.dv ∧
      (entries ≠ [] ∨ Canonical entry.parts → Canonical (entries.foldl (uniteEntries sort) entry).parts) ∧
      ∀ x, x ∈ cover (entries.foldl (uniteEntries sort) entry).parts ↔
        ∃ other ∈ entry :: entries, x ∈ cover other.parts := by
  induction entries generalizing entry with
  | nil => simp
  | cons other entries ih =>
    obtain ⟨hcan, hcover⟩ := uniteEntries_spec sort h (hl other List.mem_cons_self)
    obtain ⟨h1, h2, h3, h4⟩ := ih hcan.proper (fun e he => hl e (List.mem_cons_of_mem _ he))
    rw [List.foldl_cons]
    refine ⟨h1, h2, fun _ => h3 (.inr hcan), fun x => ?_⟩
    rw [h4]
    simp only [List.mem_cons, exists_eq_or_imp, hcover, or_assoc]

end IcebergCxx.Proofs

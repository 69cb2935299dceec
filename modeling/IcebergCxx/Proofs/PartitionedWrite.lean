import IcebergCxx.PartitionedWrite

/-!
# Partitioned writing loses the rows

`FilterTable` collects the rows of a group and returns another, empty vector, so that the files of a
partitioned table have no rows.
-/

namespace IcebergCxx.Proofs

open Lib ParquetWrite

/-- The key of a row, none without a partition specification. -/
def rowKey (env : Environment) (partitionSpec : Option PartitionSpec) (table : Table) (row : Nat) :
    Except String (Option PartitionValues) :=
  match partitionSpec with
  | none => .ok none
  | some spec => (partitionKey env spec table row).map some

/-- Every row is written once, to a file of its key, and other keys have other files. -/
structure LosesNothing (env : Environment) (partitionSpec : Option PartitionSpec) (table : Table)
    (files : List WrittenFile) : Prop where
  once : ∀ row < table.numRows, (files.flatMap WrittenFile.rows).count row = 1
  keys : ∀ file ∈ files, ∀ row ∈ file.rows, rowKey env partitionSpec table row = .ok file.partitionKey
  apart : ∀ file ∈ files, ∀ file' ∈ files, ∀ row ∈ file.rows, ∀ row' ∈ file'.rows,
    rowKey env partitionSpec table row ≠ rowKey env partitionSpec table row' → file.filePath ≠ file'.filePath

/-! ### The files of the groups -/

lemma filterTable_ok {table : Table} {rowIndices : List Int} {batches : List (List Nat)}
    (h : filterTable table rowIndices = .ok batches) : batches = [] := by
  obtain ⟨_, -, h⟩ := bind_ok h
  exact (Except.ok.inj h).symm

lemma partitionTasks_ok {table : Table} {groups : List (PartitionValues × List Int)} {counter : Int}
    {tasks : List WriteTask} (h : partitionTasks table counter groups = .ok tasks) :
    ∀ task ∈ tasks, task.recordBatches = [] := by
  induction groups generalizing counter tasks with
  | nil =>
    obtain rfl := Except.ok.inj h
    simp
  | cons group groups ih =>
    obtain ⟨batches, h1, h⟩ := bind_ok h
    obtain ⟨rest, h2, h⟩ := bind_ok h
    obtain rfl := Except.ok.inj h
    intro task htask
    rcases List.mem_cons.mp htask with rfl | htask
    · exact filterTable_ok h1
    · exact ih h2 task htask

/-- A file has the rows of its task. -/
lemma writeToFiles_ok {env : Environment} {location writeUuid : Bytes} {tasks : List WriteTask}
    {files : List WrittenFile} (h : writeToFiles env location writeUuid tasks = .ok files) :
    List.Forall₂ (fun task file => file.partitionKey = task.partitionKey ∧ file.rows = task.recordBatches.flatten)
      tasks files := by
  refine (mapM_ok_iff.mp h).imp ?_
  intro task file htask
  obtain ⟨path, -, htask⟩ := bind_ok htask
  obtain ⟨-, -, htask⟩ := bind_ok htask
  obtain rfl := Except.ok.inj htask
  exact ⟨rfl, rfl⟩

lemma rows_of_emptyTasks {tasks : List WriteTask} {files : List WrittenFile}
    (hbatches : ∀ task ∈ tasks, task.recordBatches = [])
    (h : List.Forall₂ (fun task file => file.partitionKey = task.partitionKey ∧
      file.rows = task.recordBatches.flatten) tasks files) :
    files.flatMap WrittenFile.rows = [] := by
  induction h with
  | nil => rfl
  | cons hfile hrest ih =>
    rw [List.flatMap_cons, hfile.2, hbatches _ List.mem_cons_self, List.flatten_nil, List.nil_append]
    exact ih (fun task htask => hbatches task (List.mem_cons_of_mem _ htask))

lemma flatten_batchesFrom (lengths : List Nat) (start : Nat) :
    (batchesFrom start lengths).flatten = List.range' start lengths.sum := by
  induction lengths generalizing start with
  | nil => rfl
  | cons n lengths ih =>
    rw [batchesFrom, List.flatten_cons, ih, List.sum_cons, List.range'_append_1]

/-- All batches of a table together have its rows in order. -/
lemma flatten_batches (table : Table) : table.batches.flatten = List.range table.numRows := by
  rw [Table.batches, flatten_batchesFrom, table.batchLengths_sum, List.range_eq_range']

section
variable {env : Environment} {table : Table} {location writeUuid : Bytes} {counter : Int} {files : List WrittenFile}

lemma rows_of_partitioned {spec : PartitionSpec}
    (h : arrowTableToDataFiles env table location writeUuid counter (some spec) = .ok files) :
    files.flatMap WrittenFile.rows = [] := by
  obtain ⟨partitions, -, h⟩ := bind_ok h
  obtain ⟨tasks, htasks, h⟩ := bind_ok h
  exact rows_of_emptyTasks (partitionTasks_ok htasks) (writeToFiles_ok h)

/-- A table without rows has no groups and no files. -/
lemma files_of_empty {spec : PartitionSpec} (hrows : table.numRows = 0)
    (h : arrowTableToDataFiles env table location writeUuid counter (some spec) = .ok files) : files = [] := by
  obtain ⟨partitions, hpartitions, h⟩ := bind_ok h
  unfold determinePartitions at hpartitions
  rw [hrows] at hpartitions
  obtain rfl : [] = partitions := Except.ok.inj hpartitions
  have hvisit : env.visit (partitionToRowIndices []) = [] := (env.visit_perm _).eq_nil
  rw [hvisit] at h
  exact (Except.ok.inj h).symm

lemma losesNothing_unpartitioned (h : arrowTableToDataFiles env table location writeUuid counter none = .ok files) :
    LosesNothing env none table files := by
  have hfiles := writeToFiles_ok h
  obtain ⟨file, rfl⟩ : ∃ file, files = [file] := List.length_eq_one_iff.mp hfiles.length_eq.symm
  obtain ⟨hkey, hrows⟩ := (List.forall₂_cons.mp hfiles).1
  rw [flatten_batches] at hrows
  constructor
  · intro row hrow
    rw [List.flatMap_singleton, hrows, List.nodup_range.count, if_pos (List.mem_range.mpr hrow)]
  · intro file' hfile' row _
    rw [List.mem_singleton.mp hfile', hkey]
    rfl
  · intro _ _ _ _ row _ row' _ hne
    exact absurd rfl hne

end

/-- Writing a table loses no row when there is no partition specification or no row. -/
theorem losesNothing_iff (env : Environment) (table : Table) (location writeUuid : Bytes) (counter : Int)
    (partitionSpec : Option PartitionSpec) (files : List WrittenFile)
    (h : arrowTableToDataFiles env table location writeUuid counter partitionSpec = .ok files) :
    LosesNothing env partitionSpec table files ↔ partitionSpec = none ∨ table.numRows = 0 := by
  cases partitionSpec with
  | none => exact iff_of_true (losesNothing_unpartitioned h) (.inl rfl)
  | some spec =>
    constructor
    · intro hall
      right
      by_contra hrows
      have hcount := hall.once 0 (Nat.pos_of_ne_zero hrows)
      rw [rows_of_partitioned h] at hcount
      cases hcount
    · rintro (hnone | hrows)
      · cases hnone
      · obtain rfl := files_of_empty hrows h
        constructor
        · intro row hrow
          omega
        · intro file hfile
          cases hfile
        · intro file hfile
          cases hfile

/-! ### A table of two rows -/

/-- No transform hashes here, and maps are visited in the order of their keys. -/
def plainEnvironment : Environment where
  hashed name _ := .error ("Unsupported transform " ++ text name)
  scalarToString scalar := scalar.value.elim toDecimalInt id
  visit groups := groups
  visit_perm _ := List.Perm.refl _
  canOpen _ := true

def twoRows : Table where
  numRows := 2
  columns := [[int32Scalar 7, int32Scalar 8]]
  batchLengths := [2]
  columns_length := by decide
  batchLengths_sum := rfl

/-- The first column as it is. -/
def identitySpec : PartitionSpec where
  specId := 0
  fields := [{ sourceId := 0, fieldId := 0, name := bytes "key", transform := bytes "identity" }]

theorem twoRows_unpartitioned :
    ∃ files, arrowTableToDataFiles plainEnvironment twoRows (bytes "s3://bucket") (bytes "uuid") 0 none = .ok files ∧
      LosesNothing plainEnvironment none twoRows files :=
  ⟨_, rfl, (losesNothing_iff plainEnvironment twoRows (bytes "s3://bucket") (bytes "uuid") 0 none _ rfl).mpr (.inl rfl)⟩

/-- Two files are produced for two rows, and neither has a row. -/
theorem twoRows_lost :
    ¬∀ (env : Environment) (table : Table) (location writeUuid : Bytes) (counter : Int) (spec : PartitionSpec)
      (files : List WrittenFile), arrowTableToDataFiles env table location writeUuid counter (some spec) = .ok files →
        LosesNothing env (some spec) table files := by
  intro h
  have hall := h plainEnvironment twoRows (bytes "s3://bucket") (bytes "uuid") 0 identitySpec _ rfl
  exact absurd (hall.once 0 (by decide)) (by decide)

end IcebergCxx.Proofs

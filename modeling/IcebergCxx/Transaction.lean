import IcebergCxx.TableMetadata
import IcebergCxx.PartitionedWrite

/-!
# Transactions

`transaction.cpp`: tables are written to data files, which one commit hands to the catalog's table. How the writing of
a table ends and whether `DoCommit` throws is given with every call; what the calls have done outside the transaction is
kept next to it.
-/

namespace IcebergCxx

open Lib

/-- `DataFile`. -/
abbrev DataFile := ContentFile

/-- How `ArrowTableToDataFiles` ends; the files that it has written stay when it throws. -/
inductive Writing
  | wrote (files : List DataFile)
  | threw (left : List DataFile) (error : String)

/-- `ArrowTableToDataFiles` on the table of a call: of the location, the counter and the partition spec. -/
abbrev Writer := Bytes → Int → Option PartitionSpec → Writing

/-- The exception that `DoCommit` throws on the data files, if any. -/
abbrev Committer := List DataFile → Option String

structure Transaction where
  location : Bytes
  tableMetadata : Option TableMetadataV2
  autoCommit : Bool
  commited : Bool := false
  dataFiles : List DataFile := []
  cntFiles : Int := 0

/-- A transaction, the data files that its calls have written, and the calls of `DoCommit` with the exceptions. -/
structure Session where
  transaction : Transaction
  written : List DataFile := []
  doCommits : List (List DataFile × Option String) := []

namespace Transaction

/-- `Table::DoCommit`. -/
def doCommit (committer : Committer) (dataFiles : List DataFile) : EStateM String Session Unit := do
  modify (fun session => { session with doCommits := session.doCommits ++ [(dataFiles, committer dataFiles)] })
  match committer dataFiles with
  | some error => throw error
  | none => return ()

/-- `Commit`. -/
def commit (committer : Committer) : EStateM String Session Unit := do
  let session ← get
  if session.transaction.commited then throw "Transaction can not be commited twice."
  else do
    set { session with transaction := { session.transaction with commited := true } }
    doCommit committer session.transaction.dataFiles

/-- The partition spec that a table is written with. -/
def partitionSpec (transaction : Transaction) : Option PartitionSpec :=
  transaction.tableMetadata.bind (fun metadata => metadata.partitionSpecs.head?)

/-- The transaction after data files were written. -/
def insertFiles (transaction : Transaction) (files : List DataFile) : Transaction :=
  { transaction with
    cntFiles := wrapInt32 (transaction.cntFiles + files.length)
    dataFiles := transaction.dataFiles ++ files }

/-- `AppendTable`. -/
def appendTable (writer : Writer) (committer : Committer) : EStateM String Session Unit := do
  let session ← get
  let transaction := session.transaction
  match writer transaction.location transaction.cntFiles transaction.partitionSpec with
  | .threw left error => do
    set { session with written := session.written ++ left }
    throw error
  | .wrote files => do
    set { session with transaction := transaction.insertFiles files, written := session.written ++ files }
    if transaction.autoCommit then commit committer

end Transaction

/-- The calls of a user. -/
inductive TransactionCall
  | appendTable (writer : Writer) (committer : Committer)
  | commit (committer : Committer)

def TransactionCall.run : TransactionCall → EStateM String Session Unit
  | appendTable writer committer => Transaction.appendTable writer committer
  | commit committer => Transaction.commit committer

namespace ParquetWrite

/-- The data file of a written one. -/
def WrittenFile.dataFile (file : WrittenFile) : DataFile :=
  { filePath := file.filePath, fileFormat := bytes "parquet", content := .data }

/-- `WriteToFiles`, with the files that are left when it throws. -/
def writingTasks (env : Environment) (location writeUuid : Bytes) : List WriteTask → List DataFile → Writing
  | [], files => .wrote files
  | task :: tasks, files =>
    match writeToFiles env location writeUuid [task] with
    | .ok written => writingTasks env location writeUuid tasks (files ++ written.map WrittenFile.dataFile)
    | .error e => .threw files e

/-- `ArrowTableToDataFiles` on a table. -/
def parquetWriter (env : Environment) (table : Table) (writeUuid : Bytes) : Writer := fun location counter spec =>
  match spec with
  | some spec =>
    match (do
      let partitions ← determinePartitions env spec table
      partitionTasks table counter (env.visit (partitionToRowIndices partitions))) with
    | .ok tasks => writingTasks env location writeUuid tasks []
    | .error e => .threw [] e
  | none => writingTasks env location writeUuid [⟨counter, table.batches, none⟩] []

end ParquetWrite

end IcebergCxx

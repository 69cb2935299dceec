import IcebergCxx.Proofs.Planner
import IcebergCxx.Proofs.PartitionConfusion
import IcebergCxx.Proofs.PositionalDelete
import IcebergCxx.Proofs.EqualityDeleteLaw
import IcebergCxx.Proofs.ShiftAgreement
import IcebergCxx.Proofs.PuffinRoundTrip
import IcebergCxx.Proofs.DeletionVector
import IcebergCxx.Proofs.FilterSerializer
import IcebergCxx.Proofs.ManifestList
import IcebergCxx.Proofs.EqualityDeleteColumns
import IcebergCxx.Proofs.ManifestSkipping
import IcebergCxx.Proofs.TableMetadata
import IcebergCxx.Proofs.Manifest
import IcebergCxx.Proofs.Url
import IcebergCxx.Proofs.ThreadPool
import IcebergCxx.Proofs.MultiThreadedScan
import IcebergCxx.Proofs.DeletionVectorCache
import IcebergCxx.Proofs.ParquetColumns
import IcebergCxx.Proofs.PlanComparison
import IcebergCxx.Proofs.PositionalDeleteApplier
import IcebergCxx.Proofs.EqualityDeleteRetry
import IcebergCxx.Proofs.PartitionedWrite
import IcebergCxx.Proofs.DataEntrySum
import IcebergCxx.Proofs.RowGroups
import IcebergCxx.Proofs.IntervalComparison
import IcebergCxx.Proofs.TimestampCasts
import IcebergCxx.Proofs.StatsGetters
import IcebergCxx.Proofs.InExpansion
import IcebergCxx.Proofs.FilteringStream
import IcebergCxx.Proofs.DeletionVectorApplier
import IcebergCxx.Proofs.ConcurrentPlanner
import IcebergCxx.Proofs.TableScan
import IcebergCxx.Proofs.IcebergScan
import IcebergCxx.Proofs.RowFilterCache
import IcebergCxx.Proofs.FilterEmbedding
import IcebergCxx.Proofs.DateTrunc
import IcebergCxx.Proofs.WeekOfYear
import IcebergCxx.Proofs.TemporalTransforms
import IcebergCxx.Proofs.TruncateTransform
import IcebergCxx.Proofs.Uuid
import IcebergCxx.Proofs.Hexadecimal
import IcebergCxx.Proofs.TypeGrammar
import IcebergCxx.Proofs.IcebergProjection
import IcebergCxx.Proofs.Literals
import IcebergCxx.Proofs.GenericKeys
import IcebergCxx.Proofs.KeyBuffer
import IcebergCxx.Proofs.NullSlots
import IcebergCxx.Proofs.KeyAccounting
import IcebergCxx.Proofs.MemoryLimit
import IcebergCxx.Proofs.SortOrders
import IcebergCxx.Proofs.MetadataChecker
import IcebergCxx.Proofs.SnapshotRemoval
import IcebergCxx.Proofs.MetadataTree
import IcebergCxx.Proofs.FixLocation
import IcebergCxx.Proofs.Transaction
import IcebergCxx.Proofs.NullType
import IcebergCxx.Proofs.UrlSplitting
import IcebergCxx.Proofs.ParquetFileReader
import IcebergCxx.Proofs.Analyzer
import IcebergCxx.Proofs.SelectionVector
import IcebergCxx.Proofs.DeletionVectorRanges
import IcebergCxx.Proofs.FieldIdMapper
import IcebergCxx.Proofs.PackedKeys
import IcebergCxx.Proofs.Validation
import IcebergCxx.Proofs.ScanRows
import IcebergCxx.Proofs.TableRows
import IcebergCxx.Proofs.RowGroupFilter
import IcebergCxx.Proofs.PrunedScan
import IcebergCxx.Proofs.ConcurrentScan
import IcebergCxx.Proofs.SplitOffsets
import IcebergCxx.Proofs.Relocation
import IcebergCxx.Proofs.SchemaNameMapper
import IcebergCxx.Proofs.ProjectedPlanning
import IcebergCxx.Proofs.DeletionVectorRun

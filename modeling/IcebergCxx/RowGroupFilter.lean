import IcebergCxx.ParquetColumns
import IcebergCxx.StatsFilter
import IcebergCxx.StatsGetters

/-!
# The row group filter

`RowGroupFilter` asks the statistics filter about a row group, with the bounds in its footer: a row group is skipped when
no row of it can match. Columns are named by the ids of the root fields of the Parquet schema.
-/

namespace IcebergCxx

open Lib

/-- The parts of `parquet::RowGroupMetaData` that the filter reads: the root fields of the schema and the chunks. -/
structure RowGroupFooter where
  fields : List ParquetNode
  columns : List ColumnChunkMetaData

structure RowGroupFilter where
  extractedFilterRepresentation : Option Node
  fieldIdToName : OrdMap Int Bytes
  timestampToTimestamptzShiftUs : SignedInt 64

namespace RowGroupFilter

def getCurrentParquetStatsGetter (filter : RowGroupFilter) (footer : RowGroupFooter) : ParquetStatsGetter where
  rgMeta := footer.columns
  nameToParquetIndex := (nameToParquetIndex filter.fieldIdToName footer.fields).map (fun index => (index : Int))

/-- `CanSkipRowGroup`. -/
def canSkipRowGroup (filter : RowGroupFilter) (footer : RowGroupFooter) : Bool :=
  StatsFilter.applyFilter (filter.getCurrentParquetStatsGetter footer).getStats
    (some filter.timestampToTimestamptzShiftUs) filter.extractedFilterRepresentation = .none

end RowGroupFilter

end IcebergCxx

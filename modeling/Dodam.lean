import Dodam.Engine.KeySetScan
import Dodam.Execution.Aggregate.QualifyingGroups
import Dodam.Execution.Aggregate.SumCorrect
import Dodam.Execution.Aggregate.MaterialiseCorrect
import Dodam.Execution.HashJoin.StreamCorrect
import Dodam.Engine.PartitionPruning
import Dodam.Engine.LateChunkDirect
import Dodam.Sql.VectorPredicate
import Dodam.Sql.SemijoinExists
import Dodam.Sql.SemijoinTransfer
import Dodam.Sql.JoinConditionCorrect
import Dodam.Sql.OuterBinding
import Dodam.Copy.CsvSink
import Dodam.Sql.PricingSummary
import Dodam.Copy.ParquetSinkCorrect
import Dodam.Sql.SupplierWaitCorrect
import Dodam.Sql.CountDistribution
import Dodam.Storage.EncodedRunsCorrect
import Dodam.Storage.TaggedRuns
import Dodam.Storage.LikePruning
import Dodam.Sql.ParallelFolds
import Dodam.Plan.Tasks
import Dodam.Storage.FileCache
import Dodam.Plan.LogicalLowering
import Dodam.Execution.Filter.FilterPrint
import Dodam.Storage.ByteArrayRowGroups
import Dodam.Execution.SortMergeJoin
import Dodam.Execution.ColumnNames
import Dodam.Execution.Filter.ViewMask
import Dodam.Execution.HashJoin.BuildRows
import Dodam.Execution.Aggregate.SimpleCaseSql
import Dodam.Execution.Aggregate.DecimalDateRangeCorrect
import Dodam.Execution.Aggregate.OrderedCountSum
import Dodam.Engine.LateGapBound
import Dodam.Sql.TextRoundTrip
import Dodam.Sql.ScalarArithmetic
import Dodam.Dense.KeyRanges

import ColumnarQuery.Catalog
import ColumnarQuery.Proofs.Batch.Rows
import ColumnarQuery.Proofs.Value.Operation
import ColumnarQuery.Proofs.Column.Operation
import ColumnarQuery.Proofs.Expr.Evaluation
import ColumnarQuery.Proofs.Aggregate.Accumulation
import ColumnarQuery.Proofs.Aggregate.Grouping
import ColumnarQuery.Proofs.Plan.RowSteps
import ColumnarQuery.Proofs.Aggregate.GroupRows
import ColumnarQuery.Proofs.Aggregate.TypedGroups
import ColumnarQuery.Proofs.Plan.GroupSteps
import ColumnarQuery.Proofs.Schema.Lookup
import ColumnarQuery.Proofs.Source.Scan
import ColumnarQuery.Proofs.Source.Rows
import ColumnarQuery.Proofs.Plan.Meaning
import ColumnarQuery.Proofs.Plan.Resolution
import ColumnarQuery.Proofs.Plan.Reference
import ColumnarQuery.Proofs.Plan.Chunking
import ColumnarQuery.Proofs.Expr.Failure
import ColumnarQuery.Proofs.Plan.Failure
import ColumnarQuery.Proofs.Plan.Typing
import ColumnarQuery.Proofs.Expr.Conjunction
import ColumnarQuery.Proofs.Plan.Acceptance
import ColumnarQuery.Proofs.Plan.GroupSelection
import ColumnarQuery.Proofs.Aggregate.GroupTable
import ColumnarQuery.Proofs.Plan.InRange
import ColumnarQuery.Proofs.Plan.GroupInvariant
import ColumnarQuery.Proofs.Correspondence
import ColumnarQuery.Proofs.Batch.Storage
import ColumnarQuery.Proofs.Plan.Storage
import ColumnarQuery.Proofs.Expr.Predicate
import ColumnarQuery.Proofs.Expr.Substitution
import ColumnarQuery.Proofs.Plan.Selection
import ColumnarQuery.Proofs.Aggregate.Exact
import ColumnarQuery.Proofs.Plan.RowOrder
import ColumnarQuery.Proofs.Aggregate.Refusal
import ColumnarQuery.Proofs.Aggregate.Extremes
import ColumnarQuery.Proofs.Aggregate.WrappingSum
import ColumnarQuery.Proofs.Expr.Outcome
import ColumnarQuery.Proofs.Column.Outcome
import ColumnarQuery.Proofs.Value.Integer
import ColumnarQuery.Proofs.Column.Comparison
import ColumnarQuery.Proofs.Column.Mask
import ColumnarQuery.Proofs.Expr.Comparison
import ColumnarQuery.Proofs.Plan.SelectedRows
import ColumnarQuery.Proofs.Schema.Selection
import ColumnarQuery.Proofs.Source.Columns
import ColumnarQuery.Proofs.Plan.Pruning
import ColumnarQuery.Proofs.Source.Loading
import ColumnarQuery.Proofs.Catalog.Entries
import ColumnarQuery.Proofs.Catalog.History
import ColumnarQuery.Proofs.Text.Outline
import ColumnarQuery.Proofs.Text.Rendering
import ColumnarQuery.Proofs.Plan.Outline

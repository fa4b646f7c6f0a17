import TableCompiler.CommandLine.Directory
import TableCompiler.Main
import TableCompiler.Proofs.Expression.Evaluation
import TableCompiler.Proofs.Expression.Folding
import TableCompiler.Proofs.Column.Linking
import TableCompiler.Proofs.Placement
import TableCompiler.Proofs.Column.Collected
import TableCompiler.Proofs.Column.Merged
import TableCompiler.Proofs.Table
import TableCompiler.Proofs.Toolbar
import TableCompiler.Proofs.Uniqueness
import TableCompiler.Proofs.Service
import TableCompiler.Proofs.AnnotationPath
import TableCompiler.Proofs.Column.References
import TableCompiler.Proofs.Conditions
import TableCompiler.Proofs.References
import TableCompiler.Proofs.Column.Key
import TableCompiler.Proofs.CollectedDependencies
import TableCompiler.Proofs.RowSelection
import TableCompiler.Proofs.LineItem
import TableCompiler.Proofs.TextColumns
import TableCompiler.Proofs.CustomElements
import TableCompiler.Proofs.ActionOverrides
import TableCompiler.Proofs.Failure
import TableCompiler.Proofs.Aggregates
import TableCompiler.Proofs.PropertyColumns
import TableCompiler.Proofs.KeptConditions
import TableCompiler.Proofs.Expression.Readability
import TableCompiler.Proofs.HiddenActions
import TableCompiler.Proofs.WrittenTable
import TableCompiler.Proofs.Snapshots
import TableCompiler.Proofs.Expression.Normal
import TableCompiler.Proofs.RecordColumns
import TableCompiler.Proofs.Column.Units
import TableCompiler.Proofs.AggregatedColumns
import TableCompiler.Proofs.Navigation
import TableCompiler.Proofs.ExportedPartners
import TableCompiler.Proofs.Availability
import TableCompiler.Proofs.TableNames
import TableCompiler.Proofs.WiredAggregates
import TableCompiler.Proofs.SortableColumns
import TableCompiler.Proofs.GroupVisibility
import TableCompiler.Proofs.SelectionMode
import TableCompiler.Proofs.BuiltElements
import TableCompiler.Proofs.MissingAnchors
import TableCompiler.Proofs.Expression.Regrouping
import TableCompiler.Proofs.Rereading
import TableCompiler.Proofs.CollectedBehind
import TableCompiler.Proofs.Column.Runs
import TableCompiler.Proofs.WrittenPath
import TableCompiler.Proofs.Creation
import TableCompiler.Proofs.PublishedAvailability
import TableCompiler.Proofs.PropertyPath
import TableCompiler.Proofs.Demands

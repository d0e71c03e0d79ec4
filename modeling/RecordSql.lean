import RecordSql.Database.Postgresql
import RecordSql.Database.Session
import RecordSql.Database.Sqlite
import RecordSql.Rehearsal.Replies
import RecordSql.Rehearsal.Stage
import RecordSql.Table.Builder
import RecordSql.Table.Store
import RecordSql.Text.Hex
import RecordSql.Value.Items
import RecordSql.Failure.Name
import RecordSql.Rehearsal.Raised
import RecordSql.Value.Member
import RecordSql.Value.Plain
import RecordSql.Value.Scope
import RecordSql.Proofs.Outcome
import RecordSql.Proofs.Sql.Walk
import RecordSql.Proofs.Sql.Balance
import RecordSql.Proofs.Sql.Place
import RecordSql.Proofs.Sql.ConditionTree
import RecordSql.Proofs.Sql.Clauses
import RecordSql.Proofs.Task
import RecordSql.Proofs.Database.Control
import RecordSql.Proofs.Database.Savepoint
import RecordSql.Proofs.Number.Double
import RecordSql.Proofs.Value.KeyForm
import RecordSql.Proofs.Value.Fields
import RecordSql.Proofs.Relation.Groups
import RecordSql.Proofs.Relation.Load
import RecordSql.Proofs.Relation.Joined
import RecordSql.Proofs.Database.Trace
import RecordSql.Proofs.Database.Ledger
import RecordSql.Proofs.Database.Autocommit
import RecordSql.Proofs.Database.Life
import RecordSql.Proofs.Database.Ending
import RecordSql.Proofs.Database.Binding
import RecordSql.Proofs.Sql.Noninterference
import RecordSql.Proofs.Table.Calls
import RecordSql.Proofs.Table.Builder
import RecordSql.Proofs.Table.Request
import RecordSql.Proofs.Table.Sending
import RecordSql.Proofs.Table.Construction
import RecordSql.Proofs.Sql.Decomposition
import RecordSql.Proofs.Sql.Wording
import RecordSql.Proofs.Relation.Declaration
import RecordSql.Proofs.Relation.Label
import RecordSql.Proofs.Relation.Link
import RecordSql.Proofs.Table.Key
import RecordSql.Proofs.Table.Naming
import RecordSql.Proofs.Value.Plain
import RecordSql.Proofs.Table.Writing
import RecordSql.Proofs.Table.Refresh
import RecordSql.Proofs.Model.Attributes
import RecordSql.Proofs.Table.Loading
import RecordSql.Proofs.Database.Exposure
import RecordSql.Proofs.Database.Conservation
import RecordSql.Proofs.Model.Recovery
import RecordSql.Proofs.Model.Acceptance
import RecordSql.Proofs.Model.Rebuilding
import RecordSql.Proofs.Table.ReadBack
import RecordSql.Proofs.Database.Opening
import RecordSql.Proofs.Sql.Spelling
import RecordSql.Proofs.Sql.Position
import RecordSql.Proofs.Sql.Restoration
import RecordSql.Proofs.Database.Verbatim
import RecordSql.Proofs.Sql.Listing
import RecordSql.Proofs.Sql.Reading
import RecordSql.Proofs.Sql.Grouping
import RecordSql.Proofs.Sql.Shape
import RecordSql.Proofs.Sql.Quoting
import RecordSql.Proofs.Table.Cells
import RecordSql.Proofs.Table.Matching
import RecordSql.Proofs.Table.Saving
import RecordSql.Proofs.Database.Steadfast
import RecordSql.Proofs.Database.Outliving
import RecordSql.Proofs.Value.Assignment
import RecordSql.Proofs.Relation.Attachment
import RecordSql.Proofs.Table.Order
import RecordSql.Proofs.Table.Filling
import RecordSql.Proofs.Table.Resaving

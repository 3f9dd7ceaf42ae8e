import NexusPilot.Scan.Run
import NexusPilot.Scan.Search
import NexusPilot.Text.Std
import NexusPilot.Sql.Framing
import NexusPilot.Scan.Leave
import NexusPilot.Sql.Piece
import NexusPilot.ClickHouse.Classify
import NexusPilot.Sql.Analyze
import NexusPilot.Sql.CteVerb
import NexusPilot.Sql.Noninterference
import NexusPilot.Sql.ServerLex
import NexusPilot.Sql.SingleStatement
import NexusPilot.ClickHouse.Bytes
import NexusPilot.ClickHouse.Agreement
import NexusPilot.Sql.EditorGuard
import NexusPilot.Drivers.ChangeSet
import NexusPilot.Mysql.Lex
import NexusPilot.Mysql.ChangeSet
import NexusPilot.Names.Rename
import NexusPilot.Names.Run
import NexusPilot.Schema.Normalize
import NexusPilot.Schema.Diff
import NexusPilot.Schema.DiffSpec
import NexusPilot.Schema.Accounting
import NexusPilot.Schema.Reflexive
import NexusPilot.Mysql.UpdateTable
import NexusPilot.Postgres.UpdateTable
import NexusPilot.Schema.ColumnRun
import NexusPilot.Scan.Border
import NexusPilot.Schema.Marker
import NexusPilot.Schema.PureRename
import NexusPilot.Mysql.Destructive
import NexusPilot.Postgres.Destructive
import NexusPilot.Schema.Confirmation
import NexusPilot.Drivers.Commit
import NexusPilot.Execution.Coordinator
import NexusPilot.Machine.Run
import NexusPilot.Execution.Lifecycle
import NexusPilot.Execution.Safety
import NexusPilot.Execution.Artifact
import NexusPilot.Execution.Manager
import NexusPilot.Execution.Observer
import NexusPilot.Execution.Single
import NexusPilot.Execution.View
import NexusPilot.Execution.Simulation
import NexusPilot.Execution.Clean
import NexusPilot.Cloud.Scheduler
import NexusPilot.Cloud.SchedulerRuns
import NexusPilot.Text.Json
import NexusPilot.Tools.Contracts
import NexusPilot.Tools.Core
import NexusPilot.Tools.Steps
import NexusPilot.Tools.Once
import NexusPilot.Tools.Immutable
import NexusPilot.Tools.Approval
import NexusPilot.Tools.Limit
import NexusPilot.Context.Types
import NexusPilot.Context.Boundary
import NexusPilot.Context.Planner
import NexusPilot.Context.Conversation
import NexusPilot.Context.Growth
import NexusPilot.Context.Lineage
import NexusPilot.Context.Eligible
import NexusPilot.Context.Progress
import NexusPilot.Context.Coverage
import NexusPilot.Sync.Records
import NexusPilot.Sync.Projection
import NexusPilot.Sync.Apply
import NexusPilot.Machine.Job
import NexusPilot.Sync.Upload
import NexusPilot.Sync.Passage
import NexusPilot.Sync.RoundTrip
import NexusPilot.Machine.Holder
import NexusPilot.Machine.Arrange
import NexusPilot.Machine.Reorder
import NexusPilot.ClickHouse.AlterSpec
import NexusPilot.ClickHouse.AlterOrder
import NexusPilot.ClickHouse.AlterDefinitions
import NexusPilot.ClickHouse.AlterTarget
import NexusPilot.Context.Lease
import NexusPilot.ClickHouse.CreateValidate
import NexusPilot.ClickHouse.AlterValidate
import NexusPilot.ClickHouse.AlterDiff
import NexusPilot.Text.Glob
import NexusPilot.Redis.KeyTree
import NexusPilot.Redis.DeletePrefix
import NexusPilot.ClickHouse.GridChange
import NexusPilot.ClickHouse.GridCommit
import NexusPilot.ClickHouse.GridFaithful
import NexusPilot.Text.CommaList
import NexusPilot.Design.ColumnType
import NexusPilot.Design.Draft
import NexusPilot.Design.Actions
import NexusPilot.Design.References
import NexusPilot.Design.TypeText
import NexusPilot.Design.RoundTrip
import NexusPilot.Attachments.Store
import NexusPilot.Attachments.Service
import NexusPilot.Attachments.Content
import NexusPilot.Attachments.Effects
import NexusPilot.Attachments.Sound
import NexusPilot.ClickHouse.Error
import NexusPilot.ClickHouse.AlterExecute
import NexusPilot.ClickHouse.AlterSettled
import NexusPilot.Sync.Pull
import NexusPilot.Sync.Tombstones
import NexusPilot.Sync.Staging
import NexusPilot.DeepLink.Router
import NexusPilot.DeepLink.Delivery
import NexusPilot.ClickHouse.References
import NexusPilot.ClickHouse.Tokens
import NexusPilot.ClickHouse.Literals
import NexusPilot.ClickHouse.Normalize
import NexusPilot.ClickHouse.Heredoc
import NexusPilot.ClickHouse.Format
import NexusPilot.ClickHouse.ResultWindow
import NexusPilot.ClickHouse.Values
import NexusPilot.Text.Decimal
import NexusPilot.ClickHouse.Integers
import NexusPilot.ClickHouse.Idempotent
import NexusPilot.Execution.Utf8
import NexusPilot.Execution.Preview
import NexusPilot.Redis.KeyTreeShape
import NexusPilot.Redis.KeyTreeIndex
import NexusPilot.Text.Markers
import NexusPilot.Drivers.Browse
import NexusPilot.ClickHouse.Browse
import NexusPilot.ClickHouse.Placeholders
import NexusPilot.Js.Double
import NexusPilot.Js.Value
import NexusPilot.Js.Object
import NexusPilot.TableData.Rows
import NexusPilot.TableData.Editing
import NexusPilot.TableData.Sent
import NexusPilot.TableData.Sent
import NexusPilot.TableData.Numbers
import NexusPilot.Machine.Forest
import NexusPilot.Sync.FolderOrder
import NexusPilot.Text.Split
import NexusPilot.Text.Pattern
import NexusPilot.Tools.ProviderName
import NexusPilot.ClickHouse.StripComments
import NexusPilot.Context.Selection
import NexusPilot.WebFetch.Blocking
import NexusPilot.WebFetch.Ranges
import NexusPilot.WebFetch.Spelling
import NexusPilot.WebFetch.Fetch
import NexusPilot.Sql.StatementRanges
import NexusPilot.Sql.StatementSplit
import NexusPilot.Context.Summary

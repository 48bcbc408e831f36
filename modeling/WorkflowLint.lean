import WorkflowLint.Calendar
import WorkflowLint.Calendar.Iso
import WorkflowLint.Calendar.Shown
import WorkflowLint.Check.BuiltIn
import WorkflowLint.Check.CalledBy
import WorkflowLint.Check.ConfigSchema
import WorkflowLint.Check.ConfigWorkflows
import WorkflowLint.Check.Credential
import WorkflowLint.Check.Document
import WorkflowLint.Check.ErrorBranch
import WorkflowLint.Check.Execution
import WorkflowLint.Check.Info
import WorkflowLint.Check.Placeholder
import WorkflowLint.Check.Registry
import WorkflowLint.Check.ScheduleWebhook
import WorkflowLint.Check.SubworkflowInput
import WorkflowLint.Check.SubworkflowReference
import WorkflowLint.Check.TriggerTypes
import WorkflowLint.Check.TriggersRequired
import WorkflowLint.Check.WebhookId
import WorkflowLint.Check.WebhookPath
import WorkflowLint.Check.WorkflowSettings
import WorkflowLint.Decimal.Binary64
import WorkflowLint.Decimal.Layout
import WorkflowLint.Decimal.Shortest
import WorkflowLint.Diff.Lines
import WorkflowLint.Diff.Match
import WorkflowLint.Diff.Unified
import WorkflowLint.Fault
import WorkflowLint.Finding.Basic
import WorkflowLint.Finding.Fix
import WorkflowLint.Finding.Guide
import WorkflowLint.Finding.Options
import WorkflowLint.Finding.Result
import WorkflowLint.Finding.Severity
import WorkflowLint.Json.Equality
import WorkflowLint.Json.Printer
import WorkflowLint.Json.Reader
import WorkflowLint.Json.Value
import WorkflowLint.Keyed
import WorkflowLint.Placeholder.Token
import WorkflowLint.Project.Caller
import WorkflowLint.Project.Config
import WorkflowLint.Project.Definition
import WorkflowLint.Project.Document
import WorkflowLint.Project.Schema
import WorkflowLint.Project.Settings
import WorkflowLint.Project.Trigger
import WorkflowLint.Project.Workspace
import WorkflowLint.Proofs.Check.BuiltIn
import WorkflowLint.Proofs.Check.Edits
import WorkflowLint.Proofs.Check.Mending
import WorkflowLint.Proofs.Check.Placeholder
import WorkflowLint.Proofs.Check.Repairs
import WorkflowLint.Proofs.Check.Retouching
import WorkflowLint.Proofs.Check.Unlined
import WorkflowLint.Proofs.Decimal.Binary64
import WorkflowLint.Proofs.Decimal.Shortest
import WorkflowLint.Proofs.Finding.Choice
import WorkflowLint.Proofs.Json.Alike
import WorkflowLint.Proofs.Json.Fits
import WorkflowLint.Proofs.Json.Number
import WorkflowLint.Proofs.Json.Printed
import WorkflowLint.Proofs.Json.Reading
import WorkflowLint.Proofs.Json.Retouching
import WorkflowLint.Proofs.Json.RoundTrip
import WorkflowLint.Proofs.Json.String
import WorkflowLint.Proofs.Json.Written
import WorkflowLint.Proofs.Keyed
import WorkflowLint.Proofs.Project.Caller
import WorkflowLint.Proofs.Project.Config
import WorkflowLint.Proofs.Run.Composing
import WorkflowLint.Proofs.Run.Converging
import WorkflowLint.Proofs.Run.Dropping
import WorkflowLint.Proofs.Run.Fixing
import WorkflowLint.Proofs.Run.Job
import WorkflowLint.Proofs.Run.Project
import WorkflowLint.Proofs.Run.Repair
import WorkflowLint.Proofs.Run.Returning
import WorkflowLint.Proofs.Run.Storing
import WorkflowLint.Proofs.Run.Unconfigured
import WorkflowLint.Proofs.Run.Workflow
import WorkflowLint.Proofs.Text.Parts
import WorkflowLint.Proofs.Store.Path
import WorkflowLint.Proofs.Store.Writing
import WorkflowLint.Proofs.Text.LineEnds
import WorkflowLint.Proofs.Text.Numeral
import WorkflowLint.Proofs.Text.Replacing
import WorkflowLint.Proofs.Text.Utf8
import WorkflowLint.Proofs.Workflow.Unplaced
import WorkflowLint.Proofs.Yaml.Graph
import WorkflowLint.Proofs.Yaml.Keeping
import WorkflowLint.Proofs.Yaml.Nodes
import WorkflowLint.Proofs.Yaml.Objects
import WorkflowLint.Proofs.Yaml.Tree
import WorkflowLint.Report.Document
import WorkflowLint.Report.Markdown
import WorkflowLint.Run.Fixing
import WorkflowLint.Run.Project
import WorkflowLint.Run.Workflow
import WorkflowLint.Store.Folder
import WorkflowLint.Store.Path
import WorkflowLint.Text.Base64
import WorkflowLint.Text.Basic
import WorkflowLint.Text.Blank
import WorkflowLint.Text.Case
import WorkflowLint.Text.CaseContext
import WorkflowLint.Text.CaseTable
import WorkflowLint.Text.CodePoint
import WorkflowLint.Text.DecimalDigit
import WorkflowLint.Text.Distance
import WorkflowLint.Text.Pattern
import WorkflowLint.Text.Printable
import WorkflowLint.Text.Quoted
import WorkflowLint.Text.Slug
import WorkflowLint.Text.Utf8
import WorkflowLint.Workflow.Graph
import WorkflowLint.Workflow.Location
import WorkflowLint.Workflow.NodeKind
import WorkflowLint.Workflow.Parse
import WorkflowLint.Yaml.Atom
import WorkflowLint.Yaml.Cursor
import WorkflowLint.Yaml.Error
import WorkflowLint.Yaml.Graph
import WorkflowLint.Yaml.Lexeme
import WorkflowLint.Yaml.Load
import WorkflowLint.Yaml.Making
import WorkflowLint.Yaml.Node
import WorkflowLint.Yaml.Numeral
import WorkflowLint.Yaml.Printer
import WorkflowLint.Yaml.ScalarStyle
import WorkflowLint.Yaml.ScalarText
import WorkflowLint.Yaml.Shown
import WorkflowLint.Yaml.Stamp
import WorkflowLint.Yaml.Tag
import WorkflowLint.Yaml.Token
import WorkflowLint.Yaml.Tokens
import WorkflowLint.Yaml.Value
import WorkflowLint.Yaml.Writer
import WorkflowLint.Proofs.Json.Written
import WorkflowLint.Proofs.Json.Retouching
import WorkflowLint.Proofs.Check.Retouching
import WorkflowLint.Proofs.Project.Sharing
import WorkflowLint.Proofs.Project.Accepted
import WorkflowLint.Proofs.Project.Listing
import WorkflowLint.Proofs.Project.Entries
import WorkflowLint.Proofs.Check.CalledBy
import WorkflowLint.Proofs.Yaml.Writing
import WorkflowLint.Proofs.Workflow.Layout
import WorkflowLint.Proofs.Workflow.Connected
import WorkflowLint.Proofs.Run.Isolation
import WorkflowLint.Proofs.Store.Frame
import WorkflowLint.Proofs.Run.Touching
import WorkflowLint.Proofs.Run.Settling
import WorkflowLint.Proofs.Run.Modes
import WorkflowLint.Proofs.Check.Respelling
import WorkflowLint.Proofs.Check.Unquoting
import WorkflowLint.Proofs.Check.Tidying
import WorkflowLint.Proofs.Check.Identifying
import WorkflowLint.Proofs.Check.Commuting
import WorkflowLint.Proofs.Run.TokenBytes
import WorkflowLint.Proofs.Text.Bytes
import WorkflowLint.Proofs.Json.Reordered
import WorkflowLint.Proofs.Text.Slug
import WorkflowLint.Proofs.Text.Lines
import WorkflowLint.Proofs.Diff.Matching
import WorkflowLint.Proofs.Diff.Hunks
import WorkflowLint.Proofs.Diff.Replaying
import WorkflowLint.Proofs.Diff.Excerpt
import WorkflowLint.Proofs.Run.Previewing
import WorkflowLint.Proofs.Run.Grouping
import WorkflowLint.Proofs.Workflow.ErrorOutputs
import WorkflowLint.Proofs.Check.Execution
import WorkflowLint.Proofs.Check.ScheduleWebhook
import WorkflowLint.Proofs.Json.Paths
import WorkflowLint.Proofs.Workflow.Location
import WorkflowLint.Proofs.Workflow.Printed
import WorkflowLint.Proofs.Check.Renaming
import WorkflowLint.Proofs.Text.Scanning
import WorkflowLint.Proofs.Placeholder.References
import WorkflowLint.Proofs.Check.Pointing
import WorkflowLint.Proofs.Project.Calls
import WorkflowLint.Proofs.Text.Distance
import WorkflowLint.Proofs.Text.Suggestions
import WorkflowLint.Proofs.Report.Tables
import WorkflowLint.Proofs.Store.Sound
import WorkflowLint.Proofs.Store.Locating
import WorkflowLint.Proofs.Project.TemplateIds
import WorkflowLint.Proofs.Check.Declared
import WorkflowLint.Proofs.Check.Webhooks
import WorkflowLint.Proofs.Text.Runs
import WorkflowLint.Proofs.Report.Agreement
import WorkflowLint.Proofs.Project.Settings

import Lorebook.Command.Options
import Lorebook.Command.Transcript
import Lorebook.Command.Worker
import Lorebook.Decimal.Binary
import Lorebook.Decimal.Shortest
import Lorebook.Digest.Sha256
import Lorebook.Engine.Basic
import Lorebook.Engine.Build
import Lorebook.Engine.Drafting
import Lorebook.Engine.Editing
import Lorebook.Engine.Error
import Lorebook.Engine.Publication
import Lorebook.Engine.Queue
import Lorebook.Engine.Recovery
import Lorebook.Engine.Snapshot
import Lorebook.Engine.Studio
import Lorebook.Engine.Worker
import Lorebook.Entries
import Lorebook.Exchange.Json
import Lorebook.Exchange.Reports
import Lorebook.Exchange.Ron
import Lorebook.Exchange.Settings
import Lorebook.Exchange.Tables
import Lorebook.Exchange.Template
import Lorebook.Generation.Chat
import Lorebook.Generation.Credentials
import Lorebook.Generation.Error
import Lorebook.Generation.Request
import Lorebook.Generation.Script
import Lorebook.Generation.Temperature
import Lorebook.Ident
import Lorebook.Job
import Lorebook.Json.Basic
import Lorebook.Json.Decode
import Lorebook.Json.Members
import Lorebook.Json.Printer
import Lorebook.Json.Reader
import Lorebook.Lint.Command
import Lorebook.Lint.Report
import Lorebook.Log
import Lorebook.Main
import Lorebook.Module.Basic
import Lorebook.Module.Definition
import Lorebook.Preview.Command
import Lorebook.Preview.Fixture
import Lorebook.Prompt.Catalog
import Lorebook.Prompt.Context
import Lorebook.Prompt.Packaged
import Lorebook.Prompt.Stage
import Lorebook.Proofs.Activation
import Lorebook.Proofs.Answers
import Lorebook.Proofs.Chronology
import Lorebook.Proofs.CodeBlocks
import Lorebook.Proofs.Completeness
import Lorebook.Proofs.Completion
import Lorebook.Proofs.Conformance
import Lorebook.Proofs.Consistency
import Lorebook.Proofs.ContextKeys
import Lorebook.Proofs.Deletion
import Lorebook.Proofs.DraftMerging
import Lorebook.Proofs.Draining
import Lorebook.Proofs.Effects
import Lorebook.Proofs.ExactPublication
import Lorebook.Proofs.ExpressionGrammar
import Lorebook.Proofs.Fencing
import Lorebook.Proofs.FieldHistory
import Lorebook.Proofs.FieldRows
import Lorebook.Proofs.FilledFields
import Lorebook.Proofs.Fingerprints
import Lorebook.Proofs.Inquiry
import Lorebook.Proofs.Integrity
import Lorebook.Proofs.Interleaving
import Lorebook.Proofs.Isolation
import Lorebook.Proofs.Journal
import Lorebook.Proofs.LeaseChoice
import Lorebook.Proofs.LeaseOrder
import Lorebook.Proofs.LeaseReturn
import Lorebook.Proofs.Legibility
import Lorebook.Proofs.LegibleRuns
import Lorebook.Proofs.Lexing
import Lorebook.Proofs.LifeCycle
import Lorebook.Proofs.Linting
import Lorebook.Proofs.Loading
import Lorebook.Proofs.PathProjection
import Lorebook.Proofs.Prompting
import Lorebook.Proofs.Provenance
import Lorebook.Proofs.Publishing
import Lorebook.Proofs.QueueOrder
import Lorebook.Proofs.ReadBack
import Lorebook.Proofs.Readability
import Lorebook.Proofs.Recovery
import Lorebook.Proofs.RegistryConstruction
import Lorebook.Proofs.Republication
import Lorebook.Proofs.Results
import Lorebook.Proofs.Retrying
import Lorebook.Proofs.Rounds
import Lorebook.Proofs.Runs
import Lorebook.Proofs.SavedModules
import Lorebook.Proofs.SiblingContexts
import Lorebook.Proofs.SingleLease
import Lorebook.Proofs.StaleLeases
import Lorebook.Proofs.Statements
import Lorebook.Proofs.StoredRows
import Lorebook.Proofs.StoredText
import Lorebook.Proofs.TemplateComposition
import Lorebook.Proofs.TemplateGrammar
import Lorebook.Proofs.TemplatePrinting
import Lorebook.Proofs.TemplateSafety
import Lorebook.Proofs.TextBytes
import Lorebook.Proofs.TimestampOrder
import Lorebook.Proofs.Timestamps
import Lorebook.Proofs.Transactions
import Lorebook.Proofs.Validation
import Lorebook.Proofs.WorkerSpans
import Lorebook.Proofs.WorldLife
import Lorebook.Proofs.WorldRows
import Lorebook.Registry
import Lorebook.Registry.Packaged
import Lorebook.Rehearsal.Generator
import Lorebook.Rehearsal.Record
import Lorebook.Rehearsal.Schedule
import Lorebook.Rehearsal.Sketch
import Lorebook.Rehearsal.Timer
import Lorebook.Ron.Reader
import Lorebook.Settings
import Lorebook.Store.Cell
import Lorebook.Store.Database
import Lorebook.Store.Error
import Lorebook.Store.Jobs
import Lorebook.Store.Modules
import Lorebook.Store.Row
import Lorebook.Store.Worlds
import Lorebook.Template.Basic
import Lorebook.Template.Functions
import Lorebook.Template.Parser
import Lorebook.Template.Path
import Lorebook.Template.Render
import Lorebook.Text.Affix
import Lorebook.Text.Alphanumeric
import Lorebook.Text.Blank
import Lorebook.Text.CaseTables
import Lorebook.Text.Casing
import Lorebook.Text.Hex
import Lorebook.Text.Printable
import Lorebook.Text.Quoted
import Lorebook.Text.Ranges
import Lorebook.Text.Word
import Lorebook.Time.Calendar
import Lorebook.Time.Instant
import Lorebook.Time.Rfc3339
import Lorebook.Time.Span
import Lorebook.World

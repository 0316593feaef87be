import QuerySplice.CommandLine.Arguments
import QuerySplice.CommandLine.Command
import QuerySplice.CommandLine.Run
import QuerySplice.CommandLine.WorkingDirectory
import QuerySplice.Config
import QuerySplice.Fault
import QuerySplice.Log.Record
import QuerySplice.Log.Setup
import QuerySplice.Log.Template
import QuerySplice.Main
import QuerySplice.Number.Binary64
import QuerySplice.Number.Shortest
import QuerySplice.Number.Word
import QuerySplice.Proofs.Actions
import QuerySplice.Proofs.Additions
import QuerySplice.Proofs.AggregateCalls
import QuerySplice.Proofs.Aggregates
import QuerySplice.Proofs.Agreements
import QuerySplice.Proofs.BlankLines
import QuerySplice.Proofs.Breaks
import QuerySplice.Proofs.Calendars
import QuerySplice.Proofs.Closed
import QuerySplice.Proofs.Comments
import QuerySplice.Proofs.Commutation
import QuerySplice.Proofs.Conjunctions
import QuerySplice.Proofs.Connections
import QuerySplice.Proofs.Connectives
import QuerySplice.Proofs.Drawings
import QuerySplice.Proofs.Edits
import QuerySplice.Proofs.Executions
import QuerySplice.Proofs.Formulas
import QuerySplice.Proofs.Injections
import QuerySplice.Proofs.InsertedClauses
import QuerySplice.Proofs.Insertions
import QuerySplice.Proofs.Landmarks
import QuerySplice.Proofs.LastResults
import QuerySplice.Proofs.LeadingBlanks
import QuerySplice.Proofs.Letters
import QuerySplice.Proofs.LimitForms
import QuerySplice.Proofs.LimitNumbers
import QuerySplice.Proofs.LimitTexts
import QuerySplice.Proofs.Locator
import QuerySplice.Proofs.Outcomes
import QuerySplice.Proofs.Outlines
import QuerySplice.Proofs.Pages
import QuerySplice.Proofs.Parts
import QuerySplice.Proofs.Places
import QuerySplice.Proofs.Preparations
import QuerySplice.Proofs.Projections
import QuerySplice.Proofs.QuotedCalls
import QuerySplice.Proofs.Readers
import QuerySplice.Proofs.Records
import QuerySplice.Proofs.Removals
import QuerySplice.Proofs.RemovedLimits
import QuerySplice.Proofs.RemovedOrders
import QuerySplice.Proofs.Seams
import QuerySplice.Proofs.Sections
import QuerySplice.Proofs.Segments
import QuerySplice.Proofs.Sessions
import QuerySplice.Proofs.Setups
import QuerySplice.Proofs.Slices
import QuerySplice.Proofs.Sources
import QuerySplice.Proofs.Statements
import QuerySplice.Proofs.Survival
import QuerySplice.Proofs.Terminators
import QuerySplice.Proofs.TimeTexts
import QuerySplice.Proofs.Turns
import QuerySplice.Session.Browser
import QuerySplice.Session.Executor
import QuerySplice.Session.Line
import QuerySplice.Session.Shell
import QuerySplice.Session.Source
import QuerySplice.Session.World
import QuerySplice.Setting
import QuerySplice.Sql.Aggregate
import QuerySplice.Sql.Check
import QuerySplice.Sql.Clause
import QuerySplice.Sql.Direction
import QuerySplice.Sql.Edit
import QuerySplice.Sql.Inject
import QuerySplice.Sql.Keyword
import QuerySplice.Sql.Limit
import QuerySplice.Sql.Page
import QuerySplice.Sql.Quote
import QuerySplice.Sql.Scan
import QuerySplice.Table
import QuerySplice.Table.Display
import QuerySplice.Text.Blank
import QuerySplice.Text.Case
import QuerySplice.Text.ControlSequence
import QuerySplice.Text.Decimal
import QuerySplice.Text.Digit
import QuerySplice.Text.Printable
import QuerySplice.Text.Quoted
import QuerySplice.Text.Ranges
import QuerySplice.Text.Similarity
import QuerySplice.Text.WordChar
import QuerySplice.Time.Calendar
import QuerySplice.Time.Stamp
import QuerySplice.Value
import QuerySplice.Value.Json
import QuerySplice.Value.JsonReader

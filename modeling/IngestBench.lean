import IngestBench.Text.Split
import IngestBench.Text.Blank
import IngestBench.Text.Integer
import IngestBench.Decimal.Binary
import IngestBench.Decimal.Places
import IngestBench.Decimal.Shortest
import IngestBench.Decimal.Reader
import IngestBench.Span
import IngestBench.Span.Human
import IngestBench.Web.Percent
import IngestBench.Web.Label
import IngestBench.Web.Host
import IngestBench.Web.Address
import IngestBench.Failure
import IngestBench.Header
import IngestBench.Input
import IngestBench.Batch
import IngestBench.Line
import IngestBench.Record
import IngestBench.Exposition
import IngestBench.Partition
import IngestBench.Stamp
import IngestBench.Simulation.Draws
import IngestBench.Simulation
import IngestBench.Simulation.Formats
import IngestBench.Pool
import IngestBench.Clock
import IngestBench.Backoff
import IngestBench.Counters
import IngestBench.Report.Rate
import IngestBench.Report.Summary
import IngestBench.Report.Progress
import IngestBench.Web.Status
import IngestBench.Target.Registry
import IngestBench.Yaml.Cursor
import IngestBench.Yaml.Scalar
import IngestBench.Yaml.Token
import IngestBench.Yaml.Node
import IngestBench.Quantity
import IngestBench.Logging
import IngestBench.Logging.Filter
import IngestBench.Config.Fault
import IngestBench.Config.Checks
import IngestBench.Config
import IngestBench.Config.Document
import IngestBench.Config.Environment
import IngestBench.Config.Sample
import IngestBench.Json
import IngestBench.Web.Exchange
import IngestBench.Target.Endpoint
import IngestBench.Target.Connection
import IngestBench.Target.Database
import IngestBench.Stop
import IngestBench.Limiter
import IngestBench.Queue
import IngestBench.Retry
import IngestBench.Scan
import IngestBench.Worker
import IngestBench.Run.State
import IngestBench.Run.Step
import IngestBench.Run.Outcome
import IngestBench.Rehearsal.Script
import IngestBench.Rehearsal.Solo
import IngestBench.Run.Preparation
import IngestBench.Run.Launch
import IngestBench.Rehearsal
import IngestBench.Json.Member
import IngestBench.Json.Writer
import IngestBench.Json.View
import IngestBench.Rehearsal.Numbers
import IngestBench.Config.View
import IngestBench.Rehearsal.Feed
import IngestBench.Rehearsal.Archive
import IngestBench.Yaml.FromJson
import IngestBench.Load
import IngestBench.Text.Quoted
import IngestBench.CommandLine.Flags
import IngestBench.CommandLine.Grammar
import IngestBench.CommandLine.Arguments
import IngestBench.CommandLine.Help
import IngestBench.CommandLine.Host
import IngestBench.CommandLine.Fault
import IngestBench.CommandLine.Actions
import IngestBench.CommandLine.Machine
import IngestBench.Main
import IngestBench.Proofs.Contents
import IngestBench.Proofs.Alike
import IngestBench.Proofs.AlikeRuns
import IngestBench.Proofs.Course
import IngestBench.Proofs.Turns
import IngestBench.Proofs.Chunks
import IngestBench.Proofs.Account
import IngestBench.Proofs.ScanOrder
import IngestBench.Proofs.Books
import IngestBench.Proofs.Flow
import IngestBench.Proofs.Ledger
import IngestBench.Proofs.RunAccount
import IngestBench.Proofs.Conservation
import IngestBench.Proofs.KeyOrder
import IngestBench.Proofs.Tallies
import IngestBench.Proofs.Lines
import IngestBench.Proofs.ForcedStop
import IngestBench.Proofs.Returning
import IngestBench.Proofs.Waiting
import IngestBench.Proofs.Holdings
import IngestBench.Proofs.PushBacks
import IngestBench.Proofs.HeaderText
import IngestBench.Proofs.Numerals
import IngestBench.Proofs.PointText
import IngestBench.Proofs.Replay
import IngestBench.Proofs.HeaderRewrite
import IngestBench.Proofs.Blame
import IngestBench.Proofs.Agreement
import IngestBench.Proofs.LineReplay
import IngestBench.Proofs.Recycling
import IngestBench.Proofs.Rounds
import IngestBench.Proofs.Acceptance
import IngestBench.Proofs.Questions
import IngestBench.Proofs.LastDate
import IngestBench.Proofs.HostTimes
import IngestBench.Proofs.RecordGrammar
import IngestBench.Proofs.Attempts
import IngestBench.Proofs.SoloAttempts
import IngestBench.Proofs.LabelNames
import IngestBench.Proofs.ByteOrder
import IngestBench.Proofs.Rendering
import IngestBench.Proofs.StopClock
import IngestBench.Proofs.StopLevels
import IngestBench.Proofs.ExactNumbers
import IngestBench.Proofs.TokenLaw
import IngestBench.Proofs.Gauges
import IngestBench.Proofs.Lifetimes
import IngestBench.Proofs.Lending
import IngestBench.Proofs.SendCounts
import IngestBench.Proofs.QuotedNames
import IngestBench.Proofs.WrittenPoints
import IngestBench.Proofs.Addresses
import IngestBench.Proofs.HostBlanks
import IngestBench.Proofs.Endpoints
import IngestBench.Proofs.HeaderCalls
import IngestBench.Proofs.FormatCounts
import IngestBench.Proofs.BatchHistory
import IngestBench.Proofs.ExtendedNumbers
import IngestBench.Proofs.LimiterWaits
import IngestBench.Proofs.ReportedTime
import IngestBench.Proofs.LoopLengths

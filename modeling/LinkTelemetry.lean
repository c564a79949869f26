import LinkTelemetry.Arithmetic
import LinkTelemetry.Collector
import LinkTelemetry.Collector.Assembly
import LinkTelemetry.Collector.Cycle
import LinkTelemetry.Collector.Event
import LinkTelemetry.Collector.Report
import LinkTelemetry.Collector.Run
import LinkTelemetry.Collector.Sampling
import LinkTelemetry.Collector.Timing
import LinkTelemetry.CommandLine.Arguments
import LinkTelemetry.CommandLine.Execution
import LinkTelemetry.Config
import LinkTelemetry.Config.Codec
import LinkTelemetry.Config.Error
import LinkTelemetry.Config.Load
import LinkTelemetry.Config.Validation
import LinkTelemetry.Dashboard
import LinkTelemetry.Dashboard.Chart
import LinkTelemetry.Dashboard.Format
import LinkTelemetry.Dashboard.Panel
import LinkTelemetry.Dashboard.Screen
import LinkTelemetry.Dashboard.Series
import LinkTelemetry.Decimal.Binary
import LinkTelemetry.Decimal.Fixed
import LinkTelemetry.Decimal.Layout
import LinkTelemetry.Decimal.Reader
import LinkTelemetry.Decimal.Shortest
import LinkTelemetry.Engine
import LinkTelemetry.Export.Description
import LinkTelemetry.Export.Exporter
import LinkTelemetry.Export.Health
import LinkTelemetry.Export.Request
import LinkTelemetry.Host
import LinkTelemetry.Host.Chance
import LinkTelemetry.Host.Printing
import LinkTelemetry.Host.Rehearsal
import LinkTelemetry.Host.Script
import LinkTelemetry.Host.Script.Reader
import LinkTelemetry.Host.Script.Run
import LinkTelemetry.Host.Script.Token
import LinkTelemetry.Log
import LinkTelemetry.Main
import LinkTelemetry.Metric
import LinkTelemetry.MetricMap
import LinkTelemetry.NameMap
import LinkTelemetry.Numeral
import LinkTelemetry.PairMap
import LinkTelemetry.Rate
import LinkTelemetry.Severity
import LinkTelemetry.Snapshot
import LinkTelemetry.Snapshot.Document
import LinkTelemetry.Source.Agent
import LinkTelemetry.Source.Answer
import LinkTelemetry.Source.Companion
import LinkTelemetry.Source.Error
import LinkTelemetry.Source.Local
import LinkTelemetry.Source.Procfs
import LinkTelemetry.Source.Program
import LinkTelemetry.Source.Router
import LinkTelemetry.Source.Script
import LinkTelemetry.Source.Simulated
import LinkTelemetry.Store
import LinkTelemetry.Text.Blank
import LinkTelemetry.Text.Cells
import LinkTelemetry.Text.Quoted
import LinkTelemetry.Text.Split
import LinkTelemetry.Text.Utf8
import LinkTelemetry.Text.Width
import LinkTelemetry.Tree
import LinkTelemetry.Tree.JsonReader
import LinkTelemetry.Tree.JsonWriter
import LinkTelemetry.Tree.TomlReader
import LinkTelemetry.Tree.TomlScalar
import LinkTelemetry.Tree.TomlSection
import LinkTelemetry.Tree.TomlWriter
import LinkTelemetry.Proofs.Assembly
import LinkTelemetry.Proofs.Baseline
import LinkTelemetry.Proofs.Rounds
import LinkTelemetry.Proofs.Cancellation
import LinkTelemetry.Proofs.Reports
import LinkTelemetry.Proofs.Isolation
import LinkTelemetry.Proofs.FloatSign
import LinkTelemetry.Proofs.Published
import LinkTelemetry.Proofs.Rates
import LinkTelemetry.Proofs.Completeness
import LinkTelemetry.Proofs.Fairness
import LinkTelemetry.Proofs.Transitions
import LinkTelemetry.Proofs.Outcomes
import LinkTelemetry.Proofs.Framing
import LinkTelemetry.Proofs.Numerals
import LinkTelemetry.Proofs.PrintedNumbers
import LinkTelemetry.Proofs.Tables
import LinkTelemetry.Proofs.Dispatch
import LinkTelemetry.Proofs.EngineCycles
import LinkTelemetry.Proofs.Construction
import LinkTelemetry.Proofs.Thinned
import LinkTelemetry.Proofs.RoundTrip
import LinkTelemetry.Proofs.Health
import LinkTelemetry.Proofs.Addresses
import LinkTelemetry.Proofs.Documents
import LinkTelemetry.Proofs.Trimming
import LinkTelemetry.Proofs.Records
import LinkTelemetry.Proofs.Routes
import LinkTelemetry.Proofs.Renderers
import LinkTelemetry.Proofs.Timetable
import LinkTelemetry.Proofs.KeyPresses
import LinkTelemetry.Proofs.ProcessorTimes
import LinkTelemetry.Proofs.ProcessorLoad
import LinkTelemetry.Proofs.FloatRounding
import LinkTelemetry.Proofs.FloatGrid
import LinkTelemetry.Proofs.FloatWords
import LinkTelemetry.Proofs.MovedCounters
import LinkTelemetry.Proofs.Lines
import LinkTelemetry.Proofs.CompanionLines
import LinkTelemetry.Proofs.AgentLines
import LinkTelemetry.Proofs.InterfaceTables
import LinkTelemetry.Proofs.MemoryTables
import LinkTelemetry.Proofs.SocketTables
import LinkTelemetry.Proofs.NamedThresholds
import LinkTelemetry.Proofs.EffectiveThresholds
import LinkTelemetry.Proofs.WholeNumbers
import LinkTelemetry.Proofs.SourceSettings
import LinkTelemetry.Proofs.SnapshotMeaning
import LinkTelemetry.Proofs.FloatRange
import LinkTelemetry.Proofs.SimulatedWalks
import LinkTelemetry.Proofs.EnumeratedValues
import LinkTelemetry.Proofs.FloatMagnitude
import LinkTelemetry.Proofs.FixedPlaces
import LinkTelemetry.Proofs.ByteAmounts

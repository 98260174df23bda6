import SymbolQuery.Answer.Handshake
import SymbolQuery.Answer.Hierarchy
import SymbolQuery.Answer.Hover
import SymbolQuery.Answer.Locations
import SymbolQuery.Answer.Symbols
import SymbolQuery.Cli.Arguments
import SymbolQuery.Cli.Document
import SymbolQuery.Cli.Output
import SymbolQuery.Cli.Program
import SymbolQuery.Cli.Reference
import SymbolQuery.Client.Basic
import SymbolQuery.Client.Documents
import SymbolQuery.Client.Greeting
import SymbolQuery.Client.Notice
import SymbolQuery.Client.Outgoing
import SymbolQuery.Client.Rehearsal
import SymbolQuery.Config
import SymbolQuery.Config.Loading
import SymbolQuery.Config.Store
import SymbolQuery.Fault
import SymbolQuery.Files
import SymbolQuery.Hierarchy
import SymbolQuery.Json.Basic
import SymbolQuery.Json.Parser
import SymbolQuery.Json.Printer
import SymbolQuery.Json.Real
import SymbolQuery.Json.Record
import SymbolQuery.Language
import SymbolQuery.Location
import SymbolQuery.Lookup.Facade
import SymbolQuery.Lookup.Locator
import SymbolQuery.Lookup.Preview
import SymbolQuery.Lookup.Question
import SymbolQuery.Lookup.Race
import SymbolQuery.Lookup.Script
import SymbolQuery.Lookup.Timed
import SymbolQuery.Lookup.Traversal
import SymbolQuery.Main
import SymbolQuery.Path
import SymbolQuery.Pool.Basic
import SymbolQuery.Pool.Caller
import SymbolQuery.Position
import SymbolQuery.Proofs.RowFormat
import SymbolQuery.Proofs.Untimed
import SymbolQuery.Request
import SymbolQuery.Resolution
import SymbolQuery.Rpc.Frame
import SymbolQuery.Rpc.Message
import SymbolQuery.ServerCommand
import SymbolQuery.Symbol.Basic
import SymbolQuery.Symbol.Children
import SymbolQuery.Symbol.Kind
import SymbolQuery.Symbol.Locate
import SymbolQuery.Table.Basic
import SymbolQuery.Table.Row
import SymbolQuery.Text.Blank
import SymbolQuery.Text.Integer
import SymbolQuery.Text.Lines
import SymbolQuery.Text.LowerCase
import SymbolQuery.Text.Utf8
import SymbolQuery.Text.Word
import SymbolQuery.Toml.Basic
import SymbolQuery.Toml.Number
import SymbolQuery.Toml.Parser
import SymbolQuery.Toml.Section
import SymbolQuery.Toml.Text
import SymbolQuery.Uri
import SymbolQuery.Workspace.Basic
import SymbolQuery.Workspace.Connection
import SymbolQuery.Workspace.Dialogue
import SymbolQuery.Workspace.Provider
import SymbolQuery.Workspace.ScriptedServer
import SymbolQuery.Proofs.VisibleRows
import SymbolQuery.Proofs.Calls
import SymbolQuery.Proofs.DocumentSync
import SymbolQuery.Proofs.CallSettlement
import SymbolQuery.Proofs.Utf8
import SymbolQuery.Proofs.HeaderLines
import SymbolQuery.Proofs.MessageForm
import SymbolQuery.Proofs.FrameStream
import SymbolQuery.Proofs.Acquisition
import SymbolQuery.Proofs.SingleFlight
import SymbolQuery.Proofs.Wakeups
import SymbolQuery.Proofs.StreamEnd
import SymbolQuery.Proofs.TableEdits
import SymbolQuery.Proofs.Correspondence
import SymbolQuery.Proofs.Cancellation
import SymbolQuery.Proofs.Elapsed
import SymbolQuery.Proofs.FaultIsolation
import SymbolQuery.Proofs.Delays
import SymbolQuery.Proofs.Yields
import SymbolQuery.Proofs.EmptyAnswers
import SymbolQuery.Proofs.PoolShutdown
import SymbolQuery.Proofs.CompactText
import SymbolQuery.Proofs.FrameCuts
import SymbolQuery.Proofs.OutgoingStream
import SymbolQuery.Proofs.BoundedTables
import SymbolQuery.Proofs.ReferenceCuts
import SymbolQuery.Proofs.Traffic
import SymbolQuery.Proofs.SymbolTrees
import SymbolQuery.Proofs.NestedText
import SymbolQuery.Proofs.SymbolTexts
import SymbolQuery.Proofs.InnermostSymbol
import SymbolQuery.Proofs.NamesAsPositions
import SymbolQuery.Proofs.AcceptedSettings
import SymbolQuery.Proofs.DocumentVersions
import SymbolQuery.Proofs.AnswerOrigins
import SymbolQuery.Proofs.ObjectKeys
import SymbolQuery.Proofs.ValidMessages
import SymbolQuery.Proofs.ServerRequests
import SymbolQuery.Proofs.ChildListings
import SymbolQuery.Proofs.DistinctKeys
import SymbolQuery.Proofs.LaidTables
import SymbolQuery.Proofs.PercentDecoding
import SymbolQuery.Proofs.PathIdentifiers
import SymbolQuery.Proofs.RecordFields
import SymbolQuery.Proofs.RequestShapes
import SymbolQuery.Proofs.PlaceAnswers
import SymbolQuery.Proofs.EchoedItems
import SymbolQuery.Proofs.TouchedWords
import SymbolQuery.Proofs.IndexedAccess
import SymbolQuery.Proofs.WordScan
import SymbolQuery.Proofs.LineWindows

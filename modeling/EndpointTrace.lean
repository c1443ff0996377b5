import EndpointTrace.Assistant.ChatService
import EndpointTrace.Assistant.EventLine
import EndpointTrace.Assistant.EventStream
import EndpointTrace.Assistant.Message
import EndpointTrace.CallGraph.Builder
import EndpointTrace.CallGraph.Index
import EndpointTrace.CallGraph.Oracle
import EndpointTrace.CallGraph.Tree
import EndpointTrace.Codebase
import EndpointTrace.CommandLine.Arguments
import EndpointTrace.CommandLine.Basic
import EndpointTrace.CommandLine.Session
import EndpointTrace.Diagram.Participant
import EndpointTrace.Diagram.Sequence
import EndpointTrace.Failure
import EndpointTrace.Files.Disk
import EndpointTrace.Files.Glob
import EndpointTrace.Files.Listing
import EndpointTrace.Files.Selection
import EndpointTrace.Files.SettingsFile
import EndpointTrace.Files.SourceReader
import EndpointTrace.Java.Callable
import EndpointTrace.Java.Declared
import EndpointTrace.Java.Parser
import EndpointTrace.Java.Token
import EndpointTrace.Java.Tree
import EndpointTrace.Json.Reader
import EndpointTrace.Json.Token
import EndpointTrace.Json.Value
import EndpointTrace.Main
import EndpointTrace.Number.Binary
import EndpointTrace.Number.Shortest
import EndpointTrace.Resolution.Matching
import EndpointTrace.Resolution.Prompt
import EndpointTrace.Resolution.Reply
import EndpointTrace.Resolution.Resolver
import EndpointTrace.Route.AnnotationName
import EndpointTrace.Route.Attributes
import EndpointTrace.Route.Discovery
import EndpointTrace.Route.Endpoint
import EndpointTrace.Route.Extraction
import EndpointTrace.Route.Mapping
import EndpointTrace.Route.Method
import EndpointTrace.Route.Path
import EndpointTrace.Settings.Basic
import EndpointTrace.Settings.Stored
import EndpointTrace.Source.Document
import EndpointTrace.Source.FilePath
import EndpointTrace.Source.LexicalView
import EndpointTrace.Source.Position
import EndpointTrace.Source.Symbol
import EndpointTrace.Text.Bytes
import EndpointTrace.Text.CaseTable
import EndpointTrace.Text.Casing
import EndpointTrace.Text.Character
import EndpointTrace.Text.Matches
import EndpointTrace.Text.Property
import EndpointTrace.Text.Utf8
import EndpointTrace.Timing.Guard
import EndpointTrace.Timing.Pool
import EndpointTrace.Toml.Reader
import EndpointTrace.Toml.Scalar
import EndpointTrace.Toml.Value
import EndpointTrace.Toml.Writer
import EndpointTrace.Trace
import EndpointTrace.Proofs.CallTree.Arena
import EndpointTrace.Proofs.CallTree.Attachment
import EndpointTrace.Proofs.CallTree.Accounting
import EndpointTrace.Proofs.CallTree.Budget
import EndpointTrace.Proofs.CallTree.Refinement
import EndpointTrace.Proofs.CallTree.Bounds
import EndpointTrace.Proofs.Java.Indexing
import EndpointTrace.Proofs.Route.ReadBack
import EndpointTrace.Proofs.Route.Windows
import EndpointTrace.Proofs.Java.Lookup
import EndpointTrace.Proofs.Java.Bodies
import EndpointTrace.Proofs.CallIndex.Tables
import EndpointTrace.Proofs.CallIndex.Groups
import EndpointTrace.Proofs.CallIndex.Fillings
import EndpointTrace.Proofs.CallIndex.Merging
import EndpointTrace.Proofs.CallIndex.UnrelatedSources
import EndpointTrace.Proofs.CallIndex.Edges
import EndpointTrace.Proofs.Route.HandlerTrees
import EndpointTrace.Proofs.Route.Presentation
import EndpointTrace.Proofs.Route.NormalPaths
import EndpointTrace.Proofs.Timing.Delivery
import EndpointTrace.Proofs.Timing.Schedules
import EndpointTrace.Proofs.Discovery.Deliveries
import EndpointTrace.Proofs.Discovery.Scheduling
import EndpointTrace.Proofs.Discovery.Cancellation
import EndpointTrace.Proofs.Resolution.Matching
import EndpointTrace.Proofs.Resolution.Reply
import EndpointTrace.Proofs.Resolution.Stages
import EndpointTrace.Proofs.Resolution.Decision
import EndpointTrace.Proofs.Route.DistinctPaths
import EndpointTrace.Proofs.Resolution.Silence
import EndpointTrace.Proofs.Text.Encoding
import EndpointTrace.Proofs.Text.Trimming
import EndpointTrace.Proofs.Text.Words
import EndpointTrace.Proofs.Text.LowerCase
import EndpointTrace.Proofs.Text.Matching
import EndpointTrace.Proofs.Json.Written
import EndpointTrace.Proofs.Json.Reading
import EndpointTrace.Proofs.Assistant.Chunks
import EndpointTrace.Proofs.Assistant.SentReplies
import EndpointTrace.Proofs.Diagram.Outline
import EndpointTrace.Proofs.Diagram.Lines
import EndpointTrace.Proofs.Diagram.Participants
import EndpointTrace.Proofs.Diagram.LineEnds
import EndpointTrace.Proofs.Text.Seams
import EndpointTrace.Proofs.Route.AnnotationSeams
import EndpointTrace.Proofs.Route.KeySeams
import EndpointTrace.Proofs.Source.Rescanning
import EndpointTrace.Proofs.Source.ClosedLiterals
import EndpointTrace.Proofs.Source.Comments
import EndpointTrace.Proofs.Route.ValueSeams
import EndpointTrace.Proofs.Route.CommentedBlocks
import EndpointTrace.Proofs.Route.HandlerGaps
import EndpointTrace.Proofs.Route.SeparateTypes
import EndpointTrace.Proofs.Timing.Races
import EndpointTrace.Proofs.Trace.Messages
import EndpointTrace.Proofs.Resolution.ExactRoute
import EndpointTrace.Proofs.Resolution.LiteralMatches
import EndpointTrace.Proofs.Resolution.Answers
import EndpointTrace.Proofs.Route.PathCombination
import EndpointTrace.Proofs.Route.WantedNames
import EndpointTrace.Proofs.Files.ReadOnce
import EndpointTrace.Proofs.Source.Positions
import EndpointTrace.Proofs.Java.Places
import EndpointTrace.Proofs.Source.Segments
import EndpointTrace.Proofs.Route.Slices

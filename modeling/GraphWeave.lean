import GraphWeave.Number.Binary
import GraphWeave.Number.Shortest
import GraphWeave.Number.Text
import GraphWeave.Text.Quoted
import GraphWeave.Text.Case
import GraphWeave.Json.Basic
import GraphWeave.Json.Print
import GraphWeave.Json.Parse
import GraphWeave.Time.Duration
import GraphWeave.Value.Basic
import GraphWeave.Value.Json
import GraphWeave.TypeRef
import GraphWeave.Schema.Basic
import GraphWeave.Schema.Render
import GraphWeave.FieldValue
import GraphWeave.Execution.Executor
import GraphWeave.Resolver.Context
import GraphWeave.Resolver.Output
import GraphWeave.Definition.Basic
import GraphWeave.Definition.Builder
import GraphWeave.Definition.Runtime
import GraphWeave.Registry.Basic
import GraphWeave.Registry.Finish
import GraphWeave.Modules.Root
import GraphWeave.Modules.Users
import GraphWeave.Modules.Avatars
import GraphWeave.Modules.Profiles
import GraphWeave.Modules.Counter
import GraphWeave.Modules.FooBar
import GraphWeave.Modules.Pets
import GraphWeave.Modules.Nodes
import GraphWeave.Modules.Directions
import GraphWeave.Modules.Echo
import GraphWeave.Modules.Scores
import GraphWeave.Document.Basic
import GraphWeave.Document.Token
import GraphWeave.Document.Parser
import GraphWeave.Execution.Path
import GraphWeave.Execution.Response
import GraphWeave.Execution.Input
import GraphWeave.Execution.Arguments
import GraphWeave.Execution.Selection
import GraphWeave.App
import GraphWeave.Recipe.Data
import GraphWeave.Recipe.Describe
import GraphWeave.Recipe.Resolve
import GraphWeave.Recipe.Definition
import GraphWeave.Recipe.Request
import GraphWeave.Recipe.Script
import GraphWeave.Recipe.Schema
import GraphWeave.Events.Event
import GraphWeave.Events.Bus
import GraphWeave.Telemetry.Metrics
import GraphWeave.Telemetry.Spans
import GraphWeave.Telemetry.Hub
import GraphWeave.Telemetry.RequestId
import GraphWeave.Telemetry.Level
import GraphWeave.Config
import GraphWeave.Server.Http
import GraphWeave.Server.Request
import GraphWeave.Telemetry.Exposition
import GraphWeave.Server.Handler
import GraphWeave.Telemetry.Log
import GraphWeave.Json.Lenient
import GraphWeave.Cli.Flags
import GraphWeave.Cli.Command
import GraphWeave.Cli.Directory
import GraphWeave.Server.Address
import GraphWeave.Cli.Program
import GraphWeave.Cli.Commands
import GraphWeave.Main
import GraphWeave.Proofs.Execution.Semantics
import GraphWeave.Proofs.Execution.Tree
import GraphWeave.Proofs.Execution.Footprint
import GraphWeave.Proofs.Execution.Batches
import GraphWeave.Proofs.Execution.Accounting
import GraphWeave.Proofs.Execution.Conformance
import GraphWeave.Proofs.Execution.TypedData
import GraphWeave.Proofs.Execution.Serial
import GraphWeave.Proofs.Execution.ItemErrors
import GraphWeave.Proofs.Definition.BuildLog
import GraphWeave.Proofs.Definition.WellFormed
import GraphWeave.Proofs.Definition.Declared
import GraphWeave.Proofs.Definition.Acceptance
import GraphWeave.Proofs.Definition.Reordering
import GraphWeave.Proofs.Registry.Calls
import GraphWeave.Proofs.Registry.Lifecycle
import GraphWeave.Proofs.Registry.Injection
import GraphWeave.Proofs.Registry.Fixpoint
import GraphWeave.Proofs.Registry.Reordering
import GraphWeave.Proofs.App.ModuleOrder
import GraphWeave.Proofs.Document.Grammar
import GraphWeave.Proofs.Document.LawfulScanner
import GraphWeave.Proofs.Schema.Literals
import GraphWeave.Proofs.Schema.Lexing
import GraphWeave.Proofs.Server.GetRequests
import GraphWeave.Proofs.Server.BodyLimit
import GraphWeave.Proofs.Number.Exact
import GraphWeave.Proofs.Execution.Coercion
import GraphWeave.Proofs.Execution.NumericInput
import GraphWeave.Proofs.Execution.InputIdempotence
import GraphWeave.Proofs.Execution.Layout
import GraphWeave.Proofs.Execution.BreadthFirst
import GraphWeave.Proofs.Resolver.Modes
import GraphWeave.Proofs.Events.Slices
import GraphWeave.Proofs.Events.Subscriptions
import GraphWeave.Proofs.Execution.Collection
import GraphWeave.Proofs.Execution.Dispatch
import GraphWeave.Proofs.Modules.Counter
import GraphWeave.Proofs.Definition.Resolvers
import GraphWeave.Proofs.App.Assembly
import GraphWeave.Proofs.App.Counter
import GraphWeave.Proofs.Execution.Tombstones
import GraphWeave.Proofs.Telemetry.SpanPairing
import GraphWeave.Proofs.Server.Publishing
import GraphWeave.Proofs.Execution.LookAhead
import GraphWeave.Proofs.Execution.Grouping
import GraphWeave.Proofs.Execution.Synchronous
import GraphWeave.Proofs.Execution.Fill
import GraphWeave.Proofs.Execution.Deferral
import GraphWeave.Proofs.Execution.DeferredData

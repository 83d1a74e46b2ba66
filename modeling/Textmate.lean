import Textmate.Attributes
import Textmate.Binary64
import Textmate.Cache
import Textmate.CommandLine.Arguments
import Textmate.CommandLine.Command
import Textmate.CommandLine.Report
import Textmate.CommandLine.Run
import Textmate.Config
import Textmate.Dependency.Basic
import Textmate.Dependency.Collector
import Textmate.Dependency.Place
import Textmate.Dict
import Textmate.Error
import Textmate.Files.Basic
import Textmate.Files.Glob
import Textmate.Files.Path
import Textmate.Grammar.Basic
import Textmate.Grammar.Include
import Textmate.Grammar.Json
import Textmate.GrammarIndex
import Textmate.Injections
import Textmate.Json.Basic
import Textmate.Json.Decode
import Textmate.Json.Number
import Textmate.Json.Reader
import Textmate.Json.Token
import Textmate.Json.Writer
import Textmate.Loader
import Textmate.Main
import Textmate.Metadata.Flags
import Textmate.Metadata.Reader
import Textmate.Metadata.Word
import Textmate.Proofs.Attributes.Asked
import Textmate.Proofs.Attributes.Languages
import Textmate.Proofs.Attributes.Overrides
import Textmate.Proofs.Attributes.Words
import Textmate.Proofs.Cache.Answers
import Textmate.Proofs.Cache.Callers
import Textmate.Proofs.Cache.Frames
import Textmate.Proofs.Cache.Loads
import Textmate.Proofs.Cache.Observed
import Textmate.Proofs.Cache.Remaining
import Textmate.Proofs.Collector.Closed
import Textmate.Proofs.Collector.Exact
import Textmate.Proofs.Collector.Records
import Textmate.Proofs.Collector.Shared
import Textmate.Proofs.Collector.Termination
import Textmate.Proofs.Collector.Walk
import Textmate.Proofs.Dependency.Keys
import Textmate.Proofs.Dict
import Textmate.Proofs.Files.Paths
import Textmate.Proofs.Files.Search
import Textmate.Proofs.Files.Tree
import Textmate.Proofs.Grammar.Distinct
import Textmate.Proofs.Grammar.Parts
import Textmate.Proofs.Grammar.Places
import Textmate.Proofs.Grammar.ReadBack
import Textmate.Proofs.Grammar.RoundTrip
import Textmate.Proofs.Grammar.Serialized
import Textmate.Proofs.Grammar.Written
import Textmate.Proofs.GrammarIndex.Coverage
import Textmate.Proofs.GrammarIndex.Directories
import Textmate.Proofs.GrammarIndex.Found
import Textmate.Proofs.Injections
import Textmate.Proofs.Json.Canonical
import Textmate.Proofs.Json.Members
import Textmate.Proofs.List
import Textmate.Proofs.Metadata.Fields
import Textmate.Proofs.Metadata.Layout
import Textmate.Proofs.Metadata.Patches
import Textmate.Proofs.Metadata.Reading
import Textmate.Proofs.Registry.Injected
import Textmate.Proofs.Registry.Registration
import Textmate.Proofs.Registry.Snapshots
import Textmate.Proofs.Registry.Themes
import Textmate.Proofs.Resolution.Accounts
import Textmate.Proofs.Resolution.Calls
import Textmate.Proofs.Resolution.Completeness
import Textmate.Proofs.Resolution.Executor
import Textmate.Proofs.Resolution.Failures
import Textmate.Proofs.Resolution.History
import Textmate.Proofs.Resolution.Layers
import Textmate.Proofs.Resolution.Loaded
import Textmate.Proofs.Resolution.Mentions
import Textmate.Proofs.Resolution.Pace
import Textmate.Proofs.Resolution.Reachable
import Textmate.Proofs.Resolution.Reports
import Textmate.Proofs.Resolution.Requests
import Textmate.Proofs.Resolution.Scans
import Textmate.Proofs.Resolution.Selection
import Textmate.Proofs.Resolution.Termination
import Textmate.Proofs.Resolution.Turns
import Textmate.Proofs.Scope.Display
import Textmate.Proofs.Scope.Matching
import Textmate.Proofs.Scope.Segments
import Textmate.Proofs.Stack.Depths
import Textmate.Proofs.Stack.Equality
import Textmate.Proofs.Stack.Loops
import Textmate.Proofs.Stack.Paths
import Textmate.Proofs.Stack.Positions
import Textmate.Proofs.Stack.Sharing
import Textmate.Proofs.Text.Digits
import Textmate.Proofs.Text.Split
import Textmate.Proofs.Theme.Colors
import Textmate.Proofs.Theme.Interning
import Textmate.Proofs.Theme.Palette
import Textmate.Proofs.Theme.Styles
import Textmate.Proofs.Theme.Table
import Textmate.Proofs.Theme.Unset
import Textmate.Registry
import Textmate.Resolution
import Textmate.Scope.Name
import Textmate.Scope.Selector
import Textmate.Stack.History
import Textmate.Stack.Nodes
import Textmate.Stack.Scopes
import Textmate.Stack.State
import Textmate.Store
import Textmate.Terminal.Palette
import Textmate.Terminal.Table
import Textmate.Text.Blank
import Textmate.Text.Bytes
import Textmate.Text.Digits
import Textmate.Text.Pattern
import Textmate.Text.Split
import Textmate.Text.Uppercase
import Textmate.Text.Width
import Textmate.Text.WordChar
import Textmate.Theme.Basic
import Textmate.Theme.ColorMap
import Textmate.Theme.Json
import Textmate.Theme.Source
import Textmate.Token
import Textmate.Toml.Quoted
import Textmate.Toml.Reader
import Textmate.Toml.Scalar
import Textmate.Toml.Tree
import Textmate.Toml.Value
import Textmate.Toml.Writer

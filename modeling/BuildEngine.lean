import BuildEngine.Binding.Binder
import BuildEngine.Binding.Configuration
import BuildEngine.Binding.Name
import BuildEngine.Binding.Signature
import BuildEngine.CommandLine.Arguments
import BuildEngine.CommandLine.Ending
import BuildEngine.CommandLine.Options
import BuildEngine.CommandLine.Tool
import BuildEngine.DataType
import BuildEngine.Description
import BuildEngine.Document.Basic
import BuildEngine.Document.CommandLine
import BuildEngine.Document.Disk
import BuildEngine.Document.Element
import BuildEngine.Document.Fault
import BuildEngine.Document.Files
import BuildEngine.Document.Json
import BuildEngine.Document.Kind
import BuildEngine.Document.Mapper
import BuildEngine.Document.Object
import BuildEngine.Document.Project
import BuildEngine.Document.Settings
import BuildEngine.Document.Target
import BuildEngine.Document.Value
import BuildEngine.Document.World
import BuildEngine.Element
import BuildEngine.Engine
import BuildEngine.Fault
import BuildEngine.Files.Access
import BuildEngine.Files.Disk
import BuildEngine.Files.Memory
import BuildEngine.Kind.Basic
import BuildEngine.Kind.Catalogue
import BuildEngine.Kind.Id
import BuildEngine.Kind.Library
import BuildEngine.Kind.Table
import BuildEngine.Kind.ValueType
import BuildEngine.Location
import BuildEngine.Main
import BuildEngine.Mapper
import BuildEngine.Markup.Character
import BuildEngine.Markup.Document
import BuildEngine.Markup.Node
import BuildEngine.Markup.Prolog
import BuildEngine.Markup.Reference
import BuildEngine.Markup.Scan
import BuildEngine.Markup.Tag
import BuildEngine.Number.Binary64
import BuildEngine.Number.Literal
import BuildEngine.Number.Shortest
import BuildEngine.Object.Field
import BuildEngine.Path
import BuildEngine.Pattern.Flaw
import BuildEngine.Pattern.Reader
import BuildEngine.Pattern.Search
import BuildEngine.Pattern.Syntax
import BuildEngine.Problem
import BuildEngine.Project
import BuildEngine.Properties
import BuildEngine.References
import BuildEngine.Registry
import BuildEngine.Run.Build
import BuildEngine.Run.Call
import BuildEngine.Run.Event
import BuildEngine.Run.Executor
import BuildEngine.Run.Invocation
import BuildEngine.Run.Listing
import BuildEngine.Run.Loading
import BuildEngine.Run.Report
import BuildEngine.Settings.Basic
import BuildEngine.Settings.File
import BuildEngine.Staleness
import BuildEngine.Supplier
import BuildEngine.Table
import BuildEngine.Target.Basic
import BuildEngine.Target.Graph
import BuildEngine.Target.Status
import BuildEngine.Task.Basic
import BuildEngine.Task.Definition
import BuildEngine.Task.Delete
import BuildEngine.Task.Script
import BuildEngine.Task.Standard
import BuildEngine.Task.UpToDate
import BuildEngine.Template
import BuildEngine.Text.Blank
import BuildEngine.Text.Case
import BuildEngine.Text.CodePoints
import BuildEngine.Text.Colour
import BuildEngine.Text.Digit
import BuildEngine.Text.Letter
import BuildEngine.Text.Lines
import BuildEngine.Text.Plural
import BuildEngine.Text.Printable
import BuildEngine.Text.Quoted
import BuildEngine.Text.Utf8
import BuildEngine.Text.Word
import BuildEngine.Toml.Document
import BuildEngine.Toml.Moment
import BuildEngine.Toml.Number
import BuildEngine.Toml.Reader
import BuildEngine.Toml.Scan
import BuildEngine.Toml.Tree
import BuildEngine.Toml.Writer
import BuildEngine.Value
import BuildEngine.World
import BuildEngine.Proofs.Dependency
import BuildEngine.Proofs.Walk
import BuildEngine.Proofs.CycleSearch
import BuildEngine.Proofs.Trimming
import BuildEngine.Proofs.Upstream
import BuildEngine.Proofs.Retrimming
import BuildEngine.Proofs.Validation
import BuildEngine.Proofs.Trace
import BuildEngine.Proofs.Turn
import BuildEngine.Proofs.Course
import BuildEngine.Proofs.Currency
import BuildEngine.Proofs.Settled
import BuildEngine.Proofs.Aftermath
import BuildEngine.Proofs.Announcement
import BuildEngine.Proofs.Outcome
import BuildEngine.Proofs.Change
import BuildEngine.Proofs.Leading
import BuildEngine.Proofs.Confinement
import BuildEngine.Proofs.Conversion
import BuildEngine.Proofs.TaskConfinement
import BuildEngine.Proofs.BindingConfinement
import BuildEngine.Proofs.RunConfinement
import BuildEngine.Proofs.UserProperty
import BuildEngine.Proofs.Splitting
import BuildEngine.Proofs.Summary
import BuildEngine.Proofs.Forwarding
import BuildEngine.Proofs.Completeness
import BuildEngine.Proofs.Likeness
import BuildEngine.Proofs.LikeReading
import BuildEngine.Proofs.Agreement
import BuildEngine.Proofs.TaskAgreement
import BuildEngine.Proofs.BindingAgreement
import BuildEngine.Proofs.LikeProjects
import BuildEngine.Proofs.RunAgreement
import BuildEngine.Proofs.Isolation
import BuildEngine.Proofs.Completion
import BuildEngine.Proofs.Calling
import BuildEngine.Proofs.Delegation
import BuildEngine.Proofs.Tolerance
import BuildEngine.Proofs.CleanCall
import BuildEngine.Proofs.Ending
import BuildEngine.Proofs.BindingEnding
import BuildEngine.Proofs.TaskEnding
import BuildEngine.Proofs.Escape
import BuildEngine.Proofs.KindShape
import BuildEngine.Proofs.Terms
import BuildEngine.Proofs.Soundness
import BuildEngine.Proofs.ReadingSoundness
import BuildEngine.Proofs.BindingSoundness
import BuildEngine.Proofs.TaskSoundness
import BuildEngine.Proofs.RunSoundness
import BuildEngine.Proofs.Session
import BuildEngine.Proofs.Placement
import BuildEngine.Proofs.DiskView
import BuildEngine.Proofs.Relocation
import BuildEngine.Proofs.Recording
import BuildEngine.Proofs.DeedOrder
import BuildEngine.Proofs.Attachment
import BuildEngine.Proofs.Expansion
import BuildEngine.Proofs.KnownKinds
import BuildEngine.Proofs.BindingFrame
import BuildEngine.Proofs.Awaiting
import BuildEngine.Proofs.Handing
import BuildEngine.Proofs.Configuring
import BuildEngine.Proofs.Parameters
import BuildEngine.Proofs.Handover
import BuildEngine.Proofs.Precedence
import BuildEngine.Proofs.Resolution
import BuildEngine.Proofs.Respelling
import BuildEngine.Proofs.Making
import BuildEngine.Proofs.Overwriting
import BuildEngine.Proofs.Retrying
import BuildEngine.Proofs.Nesting
import BuildEngine.Proofs.KindGrowth
import BuildEngine.Proofs.Transparency
import BuildEngine.Proofs.Merging
import BuildEngine.Proofs.Assignment
import BuildEngine.Proofs.LastSetting
import BuildEngine.Proofs.Freshness
import BuildEngine.Proofs.Inheritance
import BuildEngine.Proofs.Inquiry
import BuildEngine.Proofs.FileTree
import BuildEngine.Proofs.Discovery
import BuildEngine.Proofs.Declarations
import BuildEngine.Proofs.Globbing
import BuildEngine.Proofs.LowerCase
import BuildEngine.Proofs.TreeRemoval
import BuildEngine.Proofs.Pruning
import BuildEngine.Proofs.Leniency
import BuildEngine.Proofs.Registration
import BuildEngine.Proofs.Saving
import BuildEngine.Proofs.Asides
import BuildEngine.Proofs.Lineage

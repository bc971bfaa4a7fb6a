import ResourceNames.Command.Arguments
import ResourceNames.Command.Directory
import ResourceNames.Command.Error
import ResourceNames.Command.Help
import ResourceNames.Command.Output
import ResourceNames.Command.Run
import ResourceNames.Config.Basic
import ResourceNames.Config.Duration
import ResourceNames.Config.Read
import ResourceNames.ControlPlane.Basic
import ResourceNames.ControlPlane.Cluster
import ResourceNames.ControlPlane.Memory
import ResourceNames.ControlPlane.Typed
import ResourceNames.Decimal
import ResourceNames.Definition.Basic
import ResourceNames.Definition.Documents
import ResourceNames.Directory.Basic
import ResourceNames.Directory.Error
import ResourceNames.Directory.Load
import ResourceNames.Directory.Source
import ResourceNames.Directory.Static
import ResourceNames.Files.FileSystem
import ResourceNames.Files.Glob
import ResourceNames.Files.Path
import ResourceNames.Json.Basic
import ResourceNames.Json.Parser
import ResourceNames.Json.Printer
import ResourceNames.Live.Basic
import ResourceNames.Live.Lookup
import ResourceNames.Live.Timeline
import ResourceNames.Name.Error
import ResourceNames.Name.FieldList
import ResourceNames.Name.Record
import ResourceNames.Name.Resource
import ResourceNames.Name.Template
import ResourceNames.Name.Urn
import ResourceNames.Proofs.ControlPlane.Memory
import ResourceNames.Proofs.ControlPlane.Recorded
import ResourceNames.Proofs.ControlPlane.SentObjects
import ResourceNames.Proofs.Definition.Accepted
import ResourceNames.Proofs.Definition.ContentLines
import ResourceNames.Proofs.Definition.JoinedDocuments
import ResourceNames.Proofs.Directory.CoveredFiles
import ResourceNames.Proofs.Directory.DirectorySources
import ResourceNames.Proofs.Directory.DistinctTypes
import ResourceNames.Proofs.Directory.ListedTypes
import ResourceNames.Proofs.Directory.Loading
import ResourceNames.Proofs.Directory.Mirroring
import ResourceNames.Proofs.Directory.Reading
import ResourceNames.Proofs.Directory.RelativeSources
import ResourceNames.Proofs.Directory.Reload
import ResourceNames.Proofs.Directory.Run
import ResourceNames.Proofs.Directory.Sources
import ResourceNames.Proofs.Directory.Summaries
import ResourceNames.Proofs.Directory.Templates
import ResourceNames.Proofs.Directory.TypeKeys
import ResourceNames.Proofs.Directory.Validators
import ResourceNames.Proofs.Directory.WellFormed
import ResourceNames.Proofs.Files.ParentPaths
import ResourceNames.Proofs.Files.PathOrder
import ResourceNames.Proofs.Files.PathParts
import ResourceNames.Proofs.Files.PatternTexts
import ResourceNames.Proofs.Files.PrefixedPatterns
import ResourceNames.Proofs.Files.Reaching
import ResourceNames.Proofs.Files.Search
import ResourceNames.Proofs.Files.Walking
import ResourceNames.Proofs.Live.Answers
import ResourceNames.Proofs.Live.Course
import ResourceNames.Proofs.Live.Interleaving
import ResourceNames.Proofs.Live.LockOrder
import ResourceNames.Proofs.Live.Misses
import ResourceNames.Proofs.Live.Moves
import ResourceNames.Proofs.Live.Rounds
import ResourceNames.Proofs.Live.SingleFlight
import ResourceNames.Proofs.Live.Timelines
import ResourceNames.Proofs.Live.Turns
import ResourceNames.Proofs.Name.FieldListGrammar
import ResourceNames.Proofs.Name.FieldListReading
import ResourceNames.Proofs.Name.FieldListRoundTrip
import ResourceNames.Proofs.Name.FilledTemplates
import ResourceNames.Proofs.Name.Leftovers
import ResourceNames.Proofs.Name.Occurrences
import ResourceNames.Proofs.Name.Placeholders
import ResourceNames.Proofs.Name.Rewriting
import ResourceNames.Proofs.Name.Scanning
import ResourceNames.Proofs.Name.TemplateShape
import ResourceNames.Proofs.Name.UrnParts
import ResourceNames.Proofs.Name.UrnReading
import ResourceNames.Proofs.Name.UrnRoundTrip
import ResourceNames.Proofs.Results
import ResourceNames.Proofs.Verdict.Agreement
import ResourceNames.Proofs.Verdict.CompletedUrns
import ResourceNames.Proofs.Verdict.Consistency
import ResourceNames.Proofs.Verdict.Conversion
import ResourceNames.Proofs.Verdict.Incomplete
import ResourceNames.Proofs.Verdict.Live
import ResourceNames.Proofs.Verdict.OneType
import ResourceNames.Proofs.Verdict.Outages
import ResourceNames.Proofs.Verdict.Publications
import ResourceNames.Proofs.Verdict.Requests
import ResourceNames.Proofs.Verdict.Static
import ResourceNames.Proofs.Verdict.Steps
import ResourceNames.Proofs.Verdict.Submissions
import ResourceNames.Proofs.Verdict.UnknownTypes
import ResourceNames.Proofs.Verdict.WrittenForms
import ResourceNames.Regex.Basic
import ResourceNames.Regex.Parser
import ResourceNames.Schema.Basic
import ResourceNames.Schema.Check
import ResourceNames.Schema.Compile
import ResourceNames.Table
import ResourceNames.Text.Blank
import ResourceNames.Text.LowerCase
import ResourceNames.Text.Pieces
import ResourceNames.Types.Descriptor
import ResourceNames.Types.Index
import ResourceNames.Verdict.Basic
import ResourceNames.Verdict.Record
import ResourceNames.Verdict.Validate
import ResourceNames.Yaml.Cursor
import ResourceNames.Yaml.Node
import ResourceNames.Yaml.ScalarText
import ResourceNames.Yaml.Token
import ResourceNames.Yaml.Value

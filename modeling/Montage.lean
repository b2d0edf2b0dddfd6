import Montage.Attempt
import Montage.Color
import Montage.CommandLine.Basic
import Montage.CommandLine.Help
import Montage.CommandLine.Reader
import Montage.CommandLine.Runner
import Montage.CommandLine.SelfCheck
import Montage.Compile
import Montage.CompileError
import Montage.Composition.Basic
import Montage.Composition.Check
import Montage.Composition.Document
import Montage.Config
import Montage.Decoration.Badge
import Montage.Decoration.Basic
import Montage.Decoration.Caption
import Montage.Decoration.Overlay
import Montage.Decoration.Title
import Montage.Engine.Basic
import Montage.Engine.Process
import Montage.Engine.Progress
import Montage.Engine.Tail
import Montage.Environment
import Montage.EnvironmentFile
import Montage.FilePath
import Montage.FileSystem
import Montage.Font
import Montage.Geometry
import Montage.Graph.Basic
import Montage.Graph.Builder
import Montage.Graph.Check
import Montage.Graph.Escaping
import Montage.Graph.Expression
import Montage.Graph.Label
import Montage.Halt
import Montage.Json.Basic
import Montage.Json.Decoder
import Montage.Json.Reader
import Montage.Json.Writer
import Montage.Log
import Montage.Machine
import Montage.Main
import Montage.MediaError
import Montage.Moment
import Montage.Numeric.Binary64
import Montage.Numeric.Decimal
import Montage.Numeric.Numeral
import Montage.Numeric.Power
import Montage.Numeric.Rounding
import Montage.Probe
import Montage.Proofs.Compile.Blends
import Montage.Proofs.Compile.ClipOrder
import Montage.Proofs.Compile.Clips
import Montage.Proofs.Compile.Definite
import Montage.Proofs.Compile.DrawingOrder
import Montage.Proofs.Compile.Fades
import Montage.Proofs.Compile.FileNames
import Montage.Proofs.Compile.Files
import Montage.Proofs.Compile.Joining
import Montage.Proofs.Compile.Layout
import Montage.Proofs.Compile.Lengths
import Montage.Proofs.Compile.Likeness
import Montage.Proofs.Compile.Linearity
import Montage.Proofs.Compile.OneTotal
import Montage.Proofs.Compile.Precision
import Montage.Proofs.Compile.Readability
import Montage.Proofs.Compile.SharedTimeline
import Montage.Proofs.Compile.ShorterSource
import Montage.Proofs.Compile.Silence
import Montage.Proofs.Compile.Sizes
import Montage.Proofs.Compile.Spelling
import Montage.Proofs.Compile.SplitLayout
import Montage.Proofs.Compile.Texts
import Montage.Proofs.Compile.Timing
import Montage.Proofs.Compile.TotalLength
import Montage.Proofs.Compile.Verdict
import Montage.Proofs.Composition.Acceptance
import Montage.Proofs.Composition.Binding
import Montage.Proofs.Composition.Boundaries
import Montage.Proofs.Composition.Timeline
import Montage.Proofs.Composition.Windows
import Montage.Proofs.Decoration.Badges
import Montage.Proofs.Decoration.Drawing
import Montage.Proofs.Decoration.Fades
import Montage.Proofs.Decoration.Fonts
import Montage.Proofs.Decoration.Gates
import Montage.Proofs.Decoration.Layers
import Montage.Proofs.Decoration.Sizes
import Montage.Proofs.Decoration.Spelling
import Montage.Proofs.Decoration.Texts
import Montage.Proofs.Documents.Composition
import Montage.Proofs.Documents.Requests
import Montage.Proofs.Documents.Shape
import Montage.Proofs.Engine.Clocks
import Montage.Proofs.Engine.Invocation
import Montage.Proofs.Engine.LatestMarker
import Montage.Proofs.Engine.Mapping
import Montage.Proofs.Engine.Markers
import Montage.Proofs.Engine.Process
import Montage.Proofs.Engine.Progress
import Montage.Proofs.Engine.Reads
import Montage.Proofs.Engine.Tail
import Montage.Proofs.Geometry
import Montage.Proofs.Graph.Building
import Montage.Proofs.Graph.Escaping
import Montage.Proofs.Graph.Expansion
import Montage.Proofs.Graph.Formula
import Montage.Proofs.Graph.LabelText
import Montage.Proofs.Graph.Linear
import Montage.Proofs.Graph.Naming
import Montage.Proofs.Graph.Path
import Montage.Proofs.Graph.Protection
import Montage.Proofs.Graph.Quantities
import Montage.Proofs.Graph.Quoting
import Montage.Proofs.Graph.ReadBack
import Montage.Proofs.Graph.Reader
import Montage.Proofs.Graph.Segment
import Montage.Proofs.Graph.Spelling
import Montage.Proofs.Graph.Tokens
import Montage.Proofs.Graph.UserText
import Montage.Proofs.Graph.WellFormed
import Montage.Proofs.Graph.Wiring
import Montage.Proofs.Json.Change
import Montage.Proofs.Json.Form
import Montage.Proofs.Json.Wire
import Montage.Proofs.Numeric.Accuracy
import Montage.Proofs.Numeric.Canonical
import Montage.Proofs.Numeric.Grid
import Montage.Proofs.Numeric.Instants
import Montage.Proofs.Numeric.Monotone
import Montage.Proofs.Numeric.Nearest
import Montage.Proofs.Numeric.Numerals
import Montage.Proofs.Numeric.Order
import Montage.Proofs.Numeric.Reading
import Montage.Proofs.Numeric.Rounded
import Montage.Proofs.Numeric.Whole
import Montage.Proofs.Probe
import Montage.Proofs.Render.Course
import Montage.Proofs.Render.Diagnostics
import Montage.Proofs.Render.Orderly
import Montage.Proofs.Render.SourceFacts
import Montage.Proofs.Render.Story
import Montage.Proofs.TempFiles.Life
import Montage.Proofs.TempFiles.Tracking
import Montage.Proofs.Text.Cuts
import Montage.Proofs.Text.Patterns
import Montage.Proofs.Text.Utf8
import Montage.Proofs.Timestamp.Reading
import Montage.Proofs.Timestamp.Writing
import Montage.Proofs.Transition
import Montage.Quality
import Montage.RenderJob
import Montage.RenderOutput
import Montage.RenderRequest
import Montage.Schema.Basic
import Montage.Schema.Requests
import Montage.Soundtrack
import Montage.SplitScreen
import Montage.TempFiles
import Montage.TempFiles.Life
import Montage.Text.Alphanumeric
import Montage.Text.Blank
import Montage.Text.Printable
import Montage.Text.Quoted
import Montage.Text.Utf8
import Montage.Timeline
import Montage.Timestamp
import Montage.Transition

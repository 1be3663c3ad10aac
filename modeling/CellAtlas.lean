import CellAtlas.Analysis.Builtin
import CellAtlas.Analysis.Context
import CellAtlas.Analysis.Order
import CellAtlas.Analysis.Run
import CellAtlas.Analysis.Stage
import CellAtlas.Classification.Category
import CellAtlas.Classification.Classified
import CellAtlas.Grid.Cell
import CellAtlas.Grid.Layout
import CellAtlas.Grid.Raster
import CellAtlas.Grid.Room
import CellAtlas.Grid.Stats
import CellAtlas.Json.Basic
import CellAtlas.Json.Printer
import CellAtlas.Json.Reader
import CellAtlas.Keyed
import CellAtlas.Number.Binary64
import CellAtlas.Number.Checked
import CellAtlas.Number.IntegerText
import CellAtlas.Number.Numeral
import CellAtlas.Playback.Drift
import CellAtlas.Playback.Script
import CellAtlas.Playback.Simulator
import CellAtlas.Random.Entropy
import CellAtlas.Random.Generator
import CellAtlas.Random.Stream
import CellAtlas.Service.Analyze
import CellAtlas.Service.Api
import CellAtlas.Service.Arguments
import CellAtlas.Service.Basic
import CellAtlas.Service.GridView
import CellAtlas.Service.Host
import CellAtlas.Service.Message
import CellAtlas.Service.Path
import CellAtlas.Service.Request
import CellAtlas.Service.Route
import CellAtlas.Service.Settings
import CellAtlas.Service.Target
import CellAtlas.Source.Declaration
import CellAtlas.Source.Scan
import CellAtlas.Source.Statement
import CellAtlas.Source.Structure
import CellAtlas.Store.Basic
import CellAtlas.Text.Blank
import CellAtlas.Text.Cased
import CellAtlas.Text.Encoding
import CellAtlas.Text.Hidden
import CellAtlas.Text.Lowercase
import CellAtlas.Text.Quoted
import CellAtlas.Text.Size
import CellAtlas.Wire.Checked
import CellAtlas.Wire.Decoder
import CellAtlas.Wire.Encode
import CellAtlas.Wire.Issue
import CellAtlas.Wire.Naming
import CellAtlas.Wire.Progress
import CellAtlas.Wire.Report
import CellAtlas.Wire.Store
import CellAtlas.Proofs.Playback.Drift
import CellAtlas.Proofs.Playback.Replay
import CellAtlas.Proofs.Analysis.Dependency
import CellAtlas.Proofs.Analysis.Order
import CellAtlas.Proofs.Analysis.Run
import CellAtlas.Proofs.Grid.ReadingOrder
import CellAtlas.Proofs.Number.Rounding
import CellAtlas.Proofs.Except
import CellAtlas.Proofs.Grid.Layout
import CellAtlas.Proofs.Grid.Raster
import CellAtlas.Proofs.Analysis.Builtin
import CellAtlas.Proofs.Grid.Stats
import CellAtlas.Proofs.Source.Composition
import CellAtlas.Proofs.Source.Opening
import CellAtlas.Proofs.Source.Span
import CellAtlas.Proofs.Grid.Bands
import CellAtlas.Proofs.Source.Written
import CellAtlas.Proofs.Source.Reading
import CellAtlas.Proofs.Source.RoundTrip
import CellAtlas.Proofs.Playback.Fading
import CellAtlas.Proofs.Sorting
import CellAtlas.Proofs.Playback.Script
import CellAtlas.Proofs.Analysis.Registration
import CellAtlas.Proofs.Store.Operation
import CellAtlas.Proofs.Store.History
import CellAtlas.Proofs.Analysis.Leaf
import CellAtlas.Proofs.Wire.Report
import CellAtlas.Proofs.Service.Effect
import CellAtlas.Proofs.Service.Numbering
import CellAtlas.Proofs.Analysis.Drawing
import CellAtlas.Proofs.Service.Refusal
import CellAtlas.Proofs.Analysis.Finished
import CellAtlas.Proofs.Service.Playback
import CellAtlas.Proofs.Source.Grammar
import CellAtlas.Proofs.Playback.Texts
import CellAtlas.Proofs.Service.Mapping
import CellAtlas.Proofs.Service.FileAnalysis
import CellAtlas.Proofs.Classification.Sizing
import CellAtlas.Proofs.Source.Body
import CellAtlas.Proofs.Source.Forward
import CellAtlas.Proofs.Source.Spacing
import CellAtlas.Proofs.Classification.Agreement
import CellAtlas.Proofs.Grid.Alignment
import CellAtlas.Proofs.Classification.Naming
import CellAtlas.Proofs.Number.Precision
import CellAtlas.Proofs.Grid.Shares
import CellAtlas.Proofs.Analysis.Repetition
import CellAtlas.Proofs.Grid.Coverage
import CellAtlas.Proofs.Grid.Chances
import CellAtlas.Proofs.Number.Order
import CellAtlas.Proofs.Playback.Overlay
import CellAtlas.Proofs.Number.Monotone
import CellAtlas.Proofs.Grid.Percent
import CellAtlas.Proofs.Grid.Halves
import CellAtlas.Proofs.Grid.Picture
import CellAtlas.Proofs.Source.Cutting
import CellAtlas.Proofs.Store.Latest
import CellAtlas.Proofs.Analysis.Selection
import CellAtlas.Proofs.Service.Lossless

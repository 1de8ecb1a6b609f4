import VideoRemap.Cache
import VideoRemap.CommandLine.Report
import VideoRemap.CommandLine.Request
import VideoRemap.Disk
import VideoRemap.Expr.Basic
import VideoRemap.Expr.Bound
import VideoRemap.Expr.Evaluate
import VideoRemap.Expr.Grammar
import VideoRemap.Expr.Lexer
import VideoRemap.Expr.Parser
import VideoRemap.Expr.Text
import VideoRemap.Expr.Token
import VideoRemap.Expr.Value
import VideoRemap.Fault
import VideoRemap.Frame
import VideoRemap.FrameRange
import VideoRemap.FrameRate
import VideoRemap.Interval
import VideoRemap.Json.Basic
import VideoRemap.Json.Lexer
import VideoRemap.Json.Printer
import VideoRemap.Json.Reader
import VideoRemap.Json.Record
import VideoRemap.Main
import VideoRemap.Number.Notation
import VideoRemap.Number.Reading
import VideoRemap.Number.Rounding
import VideoRemap.Number.Shortest
import VideoRemap.Path
import VideoRemap.Picture
import VideoRemap.Picture.Bitmap
import VideoRemap.Picture.Uncompressed
import VideoRemap.Pipe
import VideoRemap.Plan
import VideoRemap.Proofs.Cache.Lookup
import VideoRemap.Sample.Blend
import VideoRemap.Sample.Frame
import VideoRemap.Sample.Tap
import VideoRemap.Scalar
import VideoRemap.Session.Basic
import VideoRemap.Session.File
import VideoRemap.Session.Options
import VideoRemap.Session.OutputSize
import VideoRemap.Session.Pointwise
import VideoRemap.Session.Record
import VideoRemap.Session.Run
import VideoRemap.Sink.Basic
import VideoRemap.Sink.Encoder
import VideoRemap.Sink.File
import VideoRemap.Sink.Memory
import VideoRemap.Sink.Picture
import VideoRemap.Sink.Recording
import VideoRemap.Source.Basic
import VideoRemap.Source.File
import VideoRemap.Source.Probe
import VideoRemap.Source.Reel
import VideoRemap.Source.Report
import VideoRemap.Source.Stored
import VideoRemap.Source.Stream
import VideoRemap.Span.Algebra
import VideoRemap.Span.Basic
import VideoRemap.Span.Clamp
import VideoRemap.Span.Cursor
import VideoRemap.Tools
import VideoRemap.Proofs.Cache.Reel
import VideoRemap.Proofs.Cache.Load
import VideoRemap.Proofs.Cache.Calls
import VideoRemap.Proofs.Sample.Stocked
import VideoRemap.Proofs.Session.Render
import VideoRemap.Proofs.Session.Basic
import VideoRemap.Proofs.Session.Deliver
import VideoRemap.Proofs.Number.Index
import VideoRemap.Proofs.Session.Planning
import VideoRemap.Proofs.Span.Crossing
import VideoRemap.Proofs.Span.Length
import VideoRemap.Proofs.Expr.Evaluate
import VideoRemap.Proofs.Sample.Resident
import VideoRemap.Proofs.Session.Missing
import VideoRemap.Proofs.Session.Stage
import VideoRemap.Proofs.Session.Overrun
import VideoRemap.Proofs.Span.Pointwise
import VideoRemap.Proofs.Span.WellFormed
import VideoRemap.Proofs.Span.Clamp
import VideoRemap.Proofs.Expr.Pointwise
import VideoRemap.Proofs.Expr.Undefined
import VideoRemap.Proofs.Sample.Whole
import VideoRemap.Proofs.Session.Pointwise
import VideoRemap.Proofs.Session.Shown
import VideoRemap.Proofs.Span.Lookup
import VideoRemap.Proofs.Span.Layout
import VideoRemap.Proofs.Span.Algebra
import VideoRemap.Proofs.Expr.Exact
import VideoRemap.Proofs.Interval
import VideoRemap.Proofs.Expr.Bound
import VideoRemap.Proofs.Plan
import VideoRemap.Proofs.Cache.Counters
import VideoRemap.Proofs.Session.Planned
import VideoRemap.Proofs.Session.Peak
import VideoRemap.Proofs.Session.Once
import VideoRemap.Proofs.Cache.Forward
import VideoRemap.Proofs.Session.Onward
import VideoRemap.Expr.Ideal
import VideoRemap.Proofs.Expr.Ideal
import VideoRemap.Proofs.Expr.Contained
import VideoRemap.Proofs.Session.Complete
import VideoRemap.Proofs.Expr.Derivation
import VideoRemap.Proofs.Expr.Parser
import VideoRemap.Proofs.Expr.Spelling
import VideoRemap.Proofs.Expr.Triplet
import VideoRemap.Proofs.Expr.Text
import VideoRemap.Proofs.Session.Protocol
import VideoRemap.Proofs.Source.Stream
import VideoRemap.Proofs.Sink.Encoder
import VideoRemap.Proofs.Cache.Moments
import VideoRemap.Proofs.Session.Statistics
import VideoRemap.Proofs.Number.Double
import VideoRemap.Proofs.Span.Clamping
import VideoRemap.Proofs.Lookup
import VideoRemap.Proofs.Path
import VideoRemap.Proofs.Disk
import VideoRemap.Proofs.Session.Replay
import VideoRemap.Proofs.Session.Picture
import VideoRemap.Proofs.Cache.Balance
import VideoRemap.Proofs.Sample.Inside
import VideoRemap.Proofs.Expr.Stops
import VideoRemap.Proofs.Session.Precision
import VideoRemap.Proofs.Number.Bits
import VideoRemap.Proofs.Number.Rational
import VideoRemap.Proofs.Session.OutputSize
import VideoRemap.Proofs.Expr.Tiling
import VideoRemap.Proofs.Expr.Difference
import VideoRemap.Proofs.Number.Nearest
import VideoRemap.Proofs.Number.Single
import VideoRemap.Proofs.Number.Shortest
import VideoRemap.Proofs.Expr.Decimal
import VideoRemap.Proofs.Span.Pointer
import VideoRemap.Proofs.Span.Cursor
import VideoRemap.Proofs.Span.Union
import VideoRemap.Proofs.Span.Search
import VideoRemap.Proofs.Number.Compare
import VideoRemap.Proofs.Interval.Double
import VideoRemap.Proofs.Plan.Inclusion

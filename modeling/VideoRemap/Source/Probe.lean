import VideoRemap.Number.Rounding
import VideoRemap.Source.Stored
import VideoRemap.Tools

namespace VideoRemap

open Number

structure ProbedStream where
  kind : Option String
  width : Option Nat
  height : Option Nat
  pixelFormat : Option String
  averageRate : Option String
  baseRate : Option String
  frameCount : Option String
  duration : Option String

structure Probe where
  streams : List ProbedStream
  duration : Option String

namespace ProbedStream

def rate (s : ProbedStream) : FrameRate :=
  ([s.averageRate, s.baseRate].findSome? fun r => do (FrameRate.parse (← r)).toOption).getD .standard

/-- The reported number of frames, else as many as fit into the stream's duration, or into that of
the whole, else one. -/
def frames (s : ProbedStream) (whole : Option String) : Nat :=
  let counted := do
    let n ← naturalBelow? UInt64.size (← s.frameCount).toList
    if n = 0 then none else some n
  let timed := do
    let d ← double? (← s.duration.or whole).toList
    let n := roundAway (d * s.rate.toDouble)
    return if 1 < n then toNat n else 1
  (counted.or timed).getD 1

end ProbedStream

namespace Probe

def arguments (p : Path) : List String :=
  ["-v", "error", "-print_format", "json", "-show_streams", "-show_format", p.text]

def info (p : Probe) (path : Path) : Except Fault SourceInfo := do
  let s ← match p.streams.find? (·.kind = some "video") with
    | some s => .ok s
    | none => .error (.noVideoStream path.text)
  let width ← match s.width with
    | some n => .ok n
    | none => .error .noStreamWidth
  let height ← match s.height with
    | some n => .ok n
    | none => .error .noStreamHeight
  return {
    width := width
    height := height
    rate := s.rate
    frameCount := s.frames p.duration
    pixelFormat := s.pixelFormat.getD "unknown" }

end Probe

/-- The library that makes sense of what the prober reports. -/
class ReportReader where
  read? : String → Option Probe

def Tools.describe [ReportReader] (t : Tools) (path : Path) : Except Fault SourceInfo :=
  match t.prober with
  | none => .error (.proberStart .notFound)
  | some prober =>
    if prober.ending.IsClean then
      match ReportReader.read? prober.report with
      | some p => p.info path
      | none => .error .badProbe
    else .error (.proberFailed path.text prober.ending.diagnostics)

end VideoRemap

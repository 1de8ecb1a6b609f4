import VideoRemap.Json.Reader
import VideoRemap.Json.Record
import VideoRemap.Source.Probe

namespace VideoRemap

open Json

def ProbedStream.ofJson? (j : Json) : Option ProbedStream := do
  let names := ["codec_type", "width", "height", "pix_fmt", "avg_frame_rate", "r_frame_rate",
    "nb_frames", "duration"]
  match ← fields? names false j with
  | [kind, width, height, pixelFormat, averageRate, baseRate, frameCount, duration] =>
    return {
      kind := ← optional? text? kind
      width := ← optional? nat32? width
      height := ← optional? nat32? height
      pixelFormat := ← optional? text? pixelFormat
      averageRate := ← optional? text? averageRate
      baseRate := ← optional? text? baseRate
      frameCount := ← optional? text? frameCount
      duration := ← optional? text? duration }
  | _ => none

def Probe.ofJson? (j : Json) : Option Probe := do
  let streams (j : Json) : Option (List ProbedStream) :=
    match j with
    | array es => es.mapM ProbedStream.ofJson?
    | _ => none
  let whole (j : Json) : Option (Option String) := do
    match ← fields? ["duration"] false j with
    | [d] => optional? text? d
    | _ => none
  match ← fields? ["streams", "format"] false j with
  | [some s, f] => return ⟨← streams s, (← optional? whole f).join⟩
  | _ => none

instance : ReportReader where
  read? text := parse? text >>= Probe.ofJson?

end VideoRemap

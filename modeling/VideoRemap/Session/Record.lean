import VideoRemap.Json.Record
import VideoRemap.Session.Run

namespace VideoRemap

open Json

class Record (α : Type) where
  ofJson? : Json → Option α
  toJson : α → Json

instance : Record Options where
  ofJson? j := do
    match ← fields? ["batch_size", "max_frames"] true j with
    | [batch, budget] =>
      return ⟨← orDefault? Options.standard.batchSize nat64? batch, ← optional? nat64? budget⟩
    | _ => none
  toJson o := object [("batch_size", nat o.batchSize), ("max_frames", (o.maxFrames.map nat).getD null)]

instance : Record Stats where
  ofJson? j := do
    let names := ["frames_out", "frames_decoded", "frames_skipped", "rewinds", "evicted",
      "peak_resident"]
    match ← (← present? (← fields? names false j)).mapM nat64? with
    | [out, decoded, skipped, rewinds, evicted, peak] =>
      return ⟨out, decoded, skipped, rewinds, evicted, peak⟩
    | _ => none
  toJson s := object [("frames_out", nat s.framesOut), ("frames_decoded", nat s.framesDecoded),
    ("frames_skipped", nat s.framesSkipped), ("rewinds", nat s.rewinds), ("evicted", nat s.evicted),
    ("peak_resident", nat s.peakResident)]

instance : Record Constants where
  ofJson? j := do
    match ← (← present? (← fields? ["width", "height", "length"] false j)).mapM int32? with
    | [width, height, length] => return ⟨width, height, length⟩
    | _ => none
  toJson c := object
    [("width", int c.width.toInt), ("height", int c.height.toInt), ("length", int c.length.toInt)]

instance : Record FrameRange where
  ofJson? j := do
    match ← (← present? (← fields? ["start", "end"] false j)).mapM nat64? with
    | [start, stop] => return ⟨start, stop⟩
    | _ => none
  toJson r := object [("start", nat r.start), ("end", nat r.stop)]

instance : Record OutputSize where
  ofJson? j := do
    match ← present? (← fields? ["width", "height", "frames"] false j) with
    | [width, height, frames] => return ⟨← nat32? width, ← nat32? height, ← nat64? frames⟩
    | _ => none
  toJson s := object [("width", nat s.width), ("height", nat s.height), ("frames", nat s.frames)]

instance : Record FrameRate where
  ofJson? j := do
    match ← (← present? (← fields? ["num", "den"] false j)).mapM nat32? with
    | [num, den] => return ⟨num, den⟩
    | _ => none
  toJson r := object [("num", nat r.num), ("den", nat r.den)]

def Precision.name : Precision → String
  | .int => "Int"
  | .float => "Float"

instance : Record Precision where
  ofJson? j :=
    let named (s : String) := [Precision.int, .float].find? (·.name == s)
    match j with
    | string (some s) => named s
    | object [(s, null)] => named s
    | _ => none
  toJson p := text p.name

instance : Record SourceInfo where
  ofJson? j := do
    match ← present? (← fields? ["width", "height", "fps", "frame_count", "pixel_format"] false j) with
    | [width, height, rate, frameCount, format] =>
      return ⟨← nat32? width, ← nat32? height, ← Record.ofJson? rate, ← nat64? frameCount,
        ← text? format⟩
    | _ => none
  toJson i := object [("width", nat i.width), ("height", nat i.height), ("fps", Record.toJson i.rate),
    ("frame_count", nat i.frameCount), ("pixel_format", text i.pixelFormat)]

end VideoRemap

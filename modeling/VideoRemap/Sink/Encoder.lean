import VideoRemap.Sink.Basic
import VideoRemap.Tools

/-!
A sink that hands raw frames to an encoder, which writes the video.
-/

namespace VideoRemap

structure EncoderSink where
  path : Path
  overwrite : Bool
  disk : Disk
  codec : Option Codec
  running : Option EncoderRun
  ended : List EncoderRun
  config : Option SinkConfig
  last : Option Nat

namespace EncoderSink

def ofPath (p : Path) (overwrite : Bool) (d : Disk) (codec : Option Codec) : EncoderSink :=
  ⟨p, overwrite, d, codec, none, [], none, none⟩

def runs (s : EncoderSink) : List EncoderRun := s.running.toList ++ s.ended

def h264Kinds : List String := ["mp4", "m4v", "mov", "mkv"]

def formatArguments (p : Path) : List String :=
  match p.kind? with
  | some k =>
    if h264Kinds.contains k then
      ["-c:v", "libx264", "-pix_fmt", "yuv420p", "-vf", "pad=ceil(iw/2)*2:ceil(ih/2)*2",
        "-movflags", "+faststart"]
    else []
  | none => []

def arguments (c : SinkConfig) (p : Path) (overwrite : Bool) : List String :=
  [if overwrite then "-y" else "-n", "-loglevel", "error", "-f", "rawvideo", "-pix_fmt", "rgb24",
    "-s", c.extent.text, "-r", s!"{c.rate.num}/{c.rate.den}", "-i", "pipe:0", "-an"] ++
    formatArguments p ++ [p.text]

def usable? (codec : Option Codec) : Option Codec := do
  let c ← codec
  if c.version.IsClean then some c else none

def start (c : SinkConfig) (s : EncoderSink) : Step EncoderSink Unit :=
  if c.rate.num = 0 ∨ c.rate.den = 0 then (.error .zeroRate, s)
  else if c.width = 0 ∨ c.height = 0 then (.error .emptyVideo, s)
  else
    match s.disk.makeParent s.path with
    | (.error e, d) => (.error e, { s with disk := d })
    | (.ok (), d) =>
      let s := { s with disk := d }
      if ¬ s.overwrite ∧ d.Exists s.path then (.error (.outputExists s.path.text), s)
      else if (usable? s.codec).isNone then (.error .noEncoder, s)
      else (.ok (), { s with
        running := some ⟨arguments c s.path s.overwrite, #[]⟩
        ended := s.runs
        config := some c
        last := none })

def accept (i : Nat) (f : Frame) (s : EncoderSink) : Step EncoderSink Unit :=
  match s.config, s.running with
  | some c, some run =>
    if s.last.any (i ≤ ·) then (.error (.frameOrder i), s)
    else if f.extent ≠ c.extent then (.error (.pushedExtent f.extent c.extent), s)
    else (.ok (), { s with
      running := some { run with input := run.input ++ f.bytes }
      last := some i })
  | _, _ => (.error .encoderNotStarted, s)

def close (s : EncoderSink) : Step EncoderSink Unit :=
  match s.running, s.codec with
  | some run, some c =>
    let s := { s with running := none, ended := run :: s.ended }
    if c.encoding.IsClean then (.ok (), { s with config := none })
    else (.error (.encoderFailed c.encoding.code c.encoding.diagnostics), s)
  | _, _ => (.error .encoderNotStarted, s)

instance : Sink EncoderSink where
  begin := start
  push := accept
  finish := close

end EncoderSink

end VideoRemap

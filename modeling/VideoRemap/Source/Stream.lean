import VideoRemap.Source.Basic
import VideoRemap.Tools

/-!
A video that a decoder turns into raw frames, one behind the other. Rewinding starts the decoder
again.
-/

namespace VideoRemap

structure StreamSource where
  info : SourceInfo
  path : Path
  codec : Codec
  pipe : Option Pipe

namespace StreamSource

def arguments (p : Path) : List String :=
  ["-v", "error", "-nostdin", "-i", p.text, "-map", "0:v:0", "-f", "rawvideo", "-pix_fmt", "rgb24",
    "pipe:1"]

def frameBytes (s : StreamSource) : Nat := Frame.byteCount s.info.width s.info.height

def start (p : Path) (info : SourceInfo) (codec : Option Codec) : Except Fault StreamSource :=
  if Frame.byteCount info.width info.height = 0 then .error (.emptyStream p.text)
  else
    match codec with
    | none => .error (.decoderStart .notFound)
    | some c => .ok ⟨info, p, c, some c.output⟩

def finish (s : StreamSource) : Step StreamSource (Option Frame) :=
  let ended := { s with pipe := none }
  let e := s.codec.decoding
  if e.IsClean then (.ok none, ended)
  else
    let log := if e.diagnostics = "" then none else some e.diagnostics
    (.error (.decoderFailed s.path.text e.code log), ended)

/-- Bytes at the end that make no whole frame are dropped. -/
instance : Source StreamSource where
  info := info
  next s :=
    match s.pipe with
    | none => (.ok none, s)
    | some p =>
      let (bytes, rest) := p.fill s.frameBytes
      if bytes.length < s.frameBytes then s.finish
      else (.ok (some ⟨s.info.width, s.info.height, bytes.toArray⟩), { s with pipe := some rest })
  rewind s := (.ok (), { s with pipe := some s.codec.output })

end StreamSource

end VideoRemap

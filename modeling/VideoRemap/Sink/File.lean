import VideoRemap.Sink.Encoder
import VideoRemap.Sink.Picture

namespace VideoRemap

inductive FileSink where
  | picture (s : PictureSink)
  | encoder (s : EncoderSink)

namespace FileSink

variable [PictureLibrary]

def MakesPicture (p : Path) (frameCount : Nat) : Prop :=
  p.IsStill ∨ (frameCount ≤ 1 ∧ ∃ f ∈ PictureLibrary.format? p, PictureLibrary.writes f)

instance (p : Path) (frameCount : Nat) : Decidable (MakesPicture p frameCount) := by
  unfold MakesPicture
  infer_instance

def ofPath (p : Path) (frameCount : Nat) (host : Host) : FileSink :=
  if MakesPicture p frameCount then picture (.ofPath p host.disk)
  else encoder (.ofPath p true host.disk host.tools.codec)

def host (before : Host) : FileSink → Host
  | picture s => { before with disk := s.disk }
  | encoder s => { before with disk := s.disk, encoded := s.runs ++ before.encoded }

instance : Sink FileSink where
  begin c
    | picture s => (Sink.begin c s).within picture
    | encoder s => (Sink.begin c s).within encoder
  push i f
    | picture s => (Sink.push i f s).within picture
    | encoder s => (Sink.push i f s).within encoder
  finish
    | picture s => (Sink.finish s).within picture
    | encoder s => (Sink.finish s).within encoder

end FileSink

end VideoRemap

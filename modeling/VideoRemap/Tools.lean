import VideoRemap.Disk
import VideoRemap.Number.Reading
import VideoRemap.Pipe

/-!
The programs that this library leans on, by what they do when they are started: a prober that
describes a video, and a codec that turns a video into raw frames and raw frames into a video.
-/

namespace VideoRemap

structure Ending where
  code : Nat
  log : String

namespace Ending

def IsClean (e : Ending) : Prop := e.code = 0

instance (e : Ending) : Decidable e.IsClean := inferInstanceAs (Decidable (_ = _))

def diagnostics (e : Ending) : String := String.ofList (Number.trim e.log.toList)

end Ending

structure Prober where
  report : String
  ending : Ending

structure Codec where
  version : Ending
  output : Pipe
  decoding : Ending
  encoding : Ending

structure Tools where
  prober : Option Prober
  codec : Option Codec

structure EncoderRun where
  arguments : List String
  input : Array UInt8

structure Host where
  disk : Disk
  tools : Tools
  encoded : List EncoderRun

end VideoRemap

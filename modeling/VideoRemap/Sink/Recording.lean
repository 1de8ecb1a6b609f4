import VideoRemap.Sink.Basic

namespace VideoRemap

inductive SinkEvent where
  | begin (config : SinkConfig)
  | push (index : Nat) (frame : Frame)
  | finish

structure RecordingSink (τ : Type) where
  inner : τ
  events : List (SinkEvent × Bool)

namespace RecordingSink

variable {τ : Type}

def recorded (e : SinkEvent) (act : τ → Step τ Unit) (s : RecordingSink τ) :
    Step (RecordingSink τ) Unit :=
  let (r, inner) := act s.inner
  (r, ⟨inner, s.events ++ [(e, r.isOk)]⟩)

instance [Sink τ] : Sink (RecordingSink τ) where
  begin c := recorded (.begin c) (Sink.begin c)
  push i f := recorded (.push i f) (Sink.push i f)
  finish := recorded .finish Sink.finish

end RecordingSink

end VideoRemap

import VideoRemap.Sink.Basic

namespace VideoRemap

structure MemorySink where
  config : Option SinkConfig
  frames : Array (Nat × Frame)
  finished : Bool

namespace MemorySink

def empty : MemorySink := ⟨none, #[], false⟩

instance : Sink MemorySink where
  begin c _ := (.ok (), ⟨some c, #[], false⟩)
  push i f s := (.ok (), { s with frames := s.frames.push (i, f) })
  finish s := (.ok (), { s with finished := true })

end MemorySink

inductive SinkCall where
  | begin
  | push (index : Nat)
  | finish
  deriving DecidableEq

structure FailingSink (τ : Type) where
  inner : τ
  failure : Option (SinkCall × Fault)

namespace FailingSink

variable {τ : Type}

def guarded (call : SinkCall) (act : τ → Step τ Unit) (s : FailingSink τ) :
    Step (FailingSink τ) Unit :=
  let go := (act s.inner).within fun t => { s with inner := t }
  match s.failure with
  | some (c, e) => if c = call then (.error e, s) else go
  | none => go

instance [Sink τ] : Sink (FailingSink τ) where
  begin c := guarded .begin (Sink.begin c)
  push i f := guarded (.push i) (Sink.push i f)
  finish := guarded .finish Sink.finish

end FailingSink

end VideoRemap

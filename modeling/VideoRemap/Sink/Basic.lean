import VideoRemap.Source.Basic

namespace VideoRemap

structure SinkConfig where
  width : Nat
  height : Nat
  rate : FrameRate
  frameCount : Nat
  deriving DecidableEq

def SinkConfig.extent (c : SinkConfig) : Extent := ⟨c.width, c.height⟩

class Sink (τ : Type) where
  begin : SinkConfig → τ → Step τ Unit
  push : Nat → Frame → τ → Step τ Unit
  finish : τ → Step τ Unit

end VideoRemap

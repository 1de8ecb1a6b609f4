import VideoRemap.Frame
import VideoRemap.FrameRate

/-!
Sources of frames. A source gives its frames one after the other and can only go back to the first.
-/

namespace VideoRemap

/-- What a source says of itself. The frame count may be more than it can deliver. -/
structure SourceInfo where
  width : Nat
  height : Nat
  rate : FrameRate
  frameCount : Nat
  pixelFormat : String
  deriving DecidableEq

def SourceInfo.extent (i : SourceInfo) : Extent := ⟨i.width, i.height⟩

class Source (σ : Type) where
  info : σ → SourceInfo
  next : σ → Step σ (Option Frame)
  rewind : σ → Step σ Unit

end VideoRemap

import VideoRemap.Disk
import VideoRemap.Frame

namespace VideoRemap

/-- The library that reads and writes picture files: of all that it does, what is asked of it here. -/
class PictureLibrary where
  Format : Type
  format? : Path → Option Format
  writes : Format → Bool
  read? : Path → Disk → Option Frame
  encode : Format → Frame → Content
  save : Path → Frame → Disk → Bool × Disk

namespace Path

def stillKinds : List String := ["png", "jpg", "jpeg", "bmp"]

def IsStill (p : Path) : Prop := ∃ k ∈ stillKinds, p.kind? = some k

instance (p : Path) : Decidable p.IsStill := inferInstanceAs (Decidable (∃ k ∈ stillKinds, _))

end Path

end VideoRemap

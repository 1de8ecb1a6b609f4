import VideoRemap.Expr.Value
import VideoRemap.Session.Basic

namespace VideoRemap.Session

def pixel? (s : Session) (frames : List Frame) (f i : Nat) : Option Rgb := do
  let p : Point :=
    ⟨Int32.ofNat (i % s.size.width), Int32.ofNat (i / s.size.width), Int32.ofNat f⟩
  let x ← s.coords.x.value? p
  let y ← s.coords.y.value? p
  let t ← s.coords.t.value? p
  (← frames[t.toInt.toNat]?).pixel? x.toInt.toNat y.toInt.toNat

def frame? (s : Session) (frames : List Frame) (f : Nat) : Option Frame :=
  .ofPixels s.size.width s.size.height <$> (List.range s.size.pixelCount).mapM (s.pixel? frames f)

end VideoRemap.Session

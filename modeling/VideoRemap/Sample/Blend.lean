import VideoRemap.Frame
import VideoRemap.Sample.Tap

namespace VideoRemap

structure Texel where
  r : Float32
  g : Float32
  b : Float32

namespace Texel

def ofRgb (p : Rgb) : Texel :=
  ⟨Float32.ofNat p.r.toNat, Float32.ofNat p.g.toNat, Float32.ofNat p.b.toNat⟩

def toRgb (c : Texel) : Rgb := ⟨c.r.toUInt8, c.g.toUInt8, c.b.toUInt8⟩

def blend (weight : Float32) (near far : Texel) : Texel :=
  let mix (a b : Float32) := weight * b + (1 - weight) * a
  ⟨mix near.r far.r, mix near.g far.g, mix near.b far.b⟩

end Texel

/-- Blends what `read` gives at both ends of a tap. The far end is read only if it has weight. -/
def Tap.blend (tap : Tap) (read : Nat → Except Fault Texel) : Except Fault Texel := do
  let near ← read tap.near
  if 0 < tap.weight then return near.blend tap.weight (← read tap.far) else return near

namespace Frame

def texel (f : Frame) (x y : Nat) : Except Fault Texel :=
  match f.pixel? x y with
  | some p => .ok (.ofRgb p)
  | none => .error (.outsideFrame x y)

def colour (f : Frame) (x y : Tap) : Except Fault Texel := y.blend fun j => x.blend fun i => f.texel i j

end Frame

end VideoRemap

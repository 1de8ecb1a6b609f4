import VideoRemap.Fault

namespace VideoRemap

structure Rgb where
  r : UInt8
  g : UInt8
  b : UInt8
  deriving DecidableEq

structure Frame where
  width : Nat
  height : Nat
  bytes : Array UInt8
  deriving DecidableEq

namespace Frame

def extent (f : Frame) : Extent := ⟨f.width, f.height⟩

def byteCount (width height : Nat) : Nat := width * height * 3

def WellFormed (f : Frame) : Prop := f.bytes.size = byteCount f.width f.height

def black (width height : Nat) : Frame :=
  ⟨width, height, Array.replicate (byteCount width height) 0⟩

def ofBytes (width height : Nat) (bytes : Array UInt8) : Except Fault Frame :=
  if bytes.size = byteCount width height then .ok ⟨width, height, bytes⟩
  else .error (.byteCount bytes.size (byteCount width height))

def ofPixels (width height : Nat) (pixels : List Rgb) : Frame :=
  ⟨width, height, (pixels.flatMap fun p => [p.r, p.g, p.b]).toArray⟩

def offset (f : Frame) (x y : Nat) : Nat := (y * f.width + x) * 3

def pixel? (f : Frame) (x y : Nat) : Option Rgb := do
  let i := f.offset x y
  return ⟨← f.bytes[i]?, ← f.bytes[i + 1]?, ← f.bytes[i + 2]?⟩

def setPixel (f : Frame) (x y : Nat) (p : Rgb) : Frame :=
  let i := f.offset x y
  { f with bytes :=
      ((f.bytes.setIfInBounds i p.r).setIfInBounds (i + 1) p.g).setIfInBounds (i + 2) p.b }

end Frame

end VideoRemap

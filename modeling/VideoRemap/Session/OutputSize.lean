import VideoRemap.Expr.Evaluate
import VideoRemap.Expr.Parser
import VideoRemap.Source.Basic

namespace VideoRemap

open Number

structure OutputSize where
  width : Nat
  height : Nat
  frames : Nat
  deriving DecidableEq

def OutputSize.extent (s : OutputSize) : Extent := ⟨s.width, s.height⟩

def OutputSize.pixelCount (s : OutputSize) : Nat := s.width * s.height

def Constants.ofInfo (i : SourceInfo) : Except Fault Constants := do
  let fit (d : Dimension) (n : Nat) : Except Fault Int32 :=
    if n < 0x80000000 then .ok (Int32.ofNat n) else .error (.sourceTooLarge d)
  return ⟨← fit .width i.width, ← fit .height i.height, ← fit .frames i.frameCount⟩

namespace OutputSize

/-- The whole part of the value of `e`, which is at least one. -/
def component (d : Dimension) (e : Expr) : Except Fault Nat := do
  let v := truncate (← e.constant)
  if v.isNaN || v < 1 then .error (.sizeBelowOne d e v) else return toNat v

def component32 (d : Dimension) (e : Expr) : Except Fault Nat := do
  let n ← component d e
  if n < UInt32.size then return n else .error (.sizeTooLarge d)

def parse (c : Constants) (text : String) : Except Fault OutputSize := do
  let t ← (Triplet.parse c text).mapError Fault.expression
  return ⟨← component32 .width t.x, ← component32 .height t.y, ← component .frames t.t⟩

end OutputSize

end VideoRemap

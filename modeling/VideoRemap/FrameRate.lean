import VideoRemap.Fault
import VideoRemap.Number.Reading

namespace VideoRemap

open Number

structure FrameRate where
  num : Nat
  den : Nat
  deriving DecidableEq

namespace FrameRate

def standard : FrameRate := ⟨25, 1⟩

def ofPair (num den : Nat) : Except Fault FrameRate :=
  if den = 0 then .error .zeroRateDenominator
  else if num = 0 then .error .zeroRateNumerator
  else .ok ⟨num, den⟩

def parse (text : String) : Except Fault FrameRate :=
  let number (cs : List Char) : Except Fault Nat :=
    match naturalBelow? UInt32.size (trim cs) with
    | some n => .ok n
    | none => .error (.badRate text)
  let cs := trim text.toList
  match cs.dropWhile (· ≠ '/') with
  | [] => do ofPair (← number cs) 1
  | _ :: den => do ofPair (← number (cs.takeWhile (· ≠ '/'))) (← number den)

def toDouble (r : FrameRate) : Float := Float.ofNat r.num / Float.ofNat r.den

end FrameRate

end VideoRemap

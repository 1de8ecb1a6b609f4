import VideoRemap.Sample.Blend
import VideoRemap.Cache

namespace VideoRemap

variable {σ α β : Type} [Scalar α] [Scalar β]

def Cache.resident (c : Cache σ) (i : Nat) : Except Fault Frame :=
  match c.frame? i with
  | some f => .ok f
  | none => .error (.notResident i)

/-- The pixel at the given source coordinates. Both frames between which `t` lies are read at the
place that the nearer one gives. -/
def Cache.sample (c : Cache σ) (x y : α) (t : β) : Except Fault Rgb := do
  let tap := Tap.of c.frameCount t
  let near ← c.resident tap.near
  let xTap := Tap.of near.width x
  let yTap := Tap.of near.height y
  return (← tap.blend fun i => do (← c.resident i).colour xTap yTap).toRgb

def Cache.sampleFrame (c : Cache σ) (xs ys : Span α) (ts : Span β) (width height : Nat) :
    Except Fault Frame :=
  let n := width * height
  if xs.length ≠ n ∨ ys.length ≠ n ∨ ts.length ≠ n then
    .error (.spanLengths xs.length ys.length ts.length n)
  else if c.frameCount = 0 then .error .emptySource
  else
    Frame.ofPixels width height <$>
      (xs.toList.zip (ys.toList.zip ts.toList)).mapM fun (x, y, t) => c.sample x y t

end VideoRemap

import VideoRemap.Expr.Bound

/-!
Which source frames to load before a batch of output frames, and which to keep after it.
-/

namespace VideoRemap

structure Plan where
  cover : FrameRange → FrameRange
  budget : Nat
  batch : Nat
  batch_pos : 0 < batch

namespace Plan

/-- The box of all pixels of a frame and the given output frames. A range without frames stands for
its start. -/
def box {ε : Type} [Endpoint ε] (width height : Nat) (outputs : FrameRange) : Box ε where
  x := .between (Endpoint.ofInt 0) (Endpoint.ofInt (width - 1 : Nat))
  y := .between (Endpoint.ofInt 0) (Endpoint.ofInt (height - 1 : Nat))
  t := .between (Endpoint.ofInt outputs.start)
    (Endpoint.ofInt (max (outputs.stop - 1) outputs.start : Nat))

/-- The plan for frame coordinates `e`, with endpoints of type `ε`. A budget or a batch of zero
counts as one. -/
def ofExpr (ε : Type) [Endpoint ε] (e : Expr) (width height frameCount budget batch : Nat) :
    Plan where
  cover outputs := (e.bound (box (ε := ε) width height outputs)).cover frameCount
  budget := max budget 1
  batch := max batch 1
  batch_pos := by omega

/-- The widest horizon out of `start` to `start + n`, its half, the half of that and so on, whose
frames the budget allows, or the first that is no longer than a batch. -/
def keepWithin (p : Plan) (start n : Nat) : FrameRange :=
  let frames := p.cover ⟨start, start + n⟩
  if p.budget < frames.size ∧ p.batch < n then p.keepWithin start (n / 2) else frames
termination_by n
decreasing_by omega

def keep (p : Plan) (remaining : FrameRange) : FrameRange :=
  if remaining.IsEmpty then ⟨0, 0⟩ else p.keepWithin remaining.start remaining.size

end Plan

end VideoRemap

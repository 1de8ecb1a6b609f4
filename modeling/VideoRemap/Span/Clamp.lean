import VideoRemap.Span.Basic

/-!
Clamping a span into `[low, high]`. A ramp crosses each bound at most once, so a run becomes at
most three: flat at one bound, the ramp between the bounds, flat at the other. The crossings come
from a closed formula that a search then corrects. A ramp that wraps around is clamped pixel by
pixel.
-/

namespace VideoRemap

open Number

namespace Crossing

def stepBack (p : Nat → Bool) : Nat → Nat
  | 0 => 0
  | k + 1 => if p k then stepBack p k else k + 1

def stepOn (p : Nat → Bool) (n k : Nat) : Nat :=
  if k < n ∧ !p k then stepOn p n (k + 1) else k
termination_by n - k

def startingPoint (n : Nat) (estimate : Float) : Nat :=
  if estimate.isNaN || estimate ≤ 0 then 0
  else if Float.ofNat n ≤ estimate then n
  else min n (toNat estimate)

/-- The first of `n` pixels that satisfies `p`, which later ones then satisfy too; `n` if there is
none. The search starts at the estimate. -/
def first (p : Nat → Bool) (n : Nat) (estimate : Float) : Nat :=
  stepOn p n (stepBack p (startingPoint n estimate))

end Crossing

namespace Ramp

variable {α : Type} [Scalar α]

def reaches (r : Ramp α) (bound : α) : Float :=
  (Scalar.toDouble bound - Scalar.toDouble r.start) / Scalar.toDouble r.step

def threeRuns (r : Ramp α) (n : Nat) (near far : α) (enter leave : Nat) : List (Run (Ramp α)) :=
  [⟨enter, flat near⟩, ⟨leave - enter, r.drop enter⟩, ⟨n - leave, flat far⟩]

def clampRuns (r : Ramp α) (n : Nat) (low high : α) : List (Run (Ramp α)) :=
  let zero : α := Scalar.ofIndex 0
  if r.step == zero then [⟨n, flat (Scalar.clampTo low high r.start)⟩]
  else if zero < r.step then
    let enter := Crossing.first (fun k => low ≤ r.value k) n (ceil (r.reaches low))
    let leave := Crossing.first (fun k => high < r.value k) n (floor (r.reaches high) + 1)
    r.threeRuns n low high enter (max leave enter)
  else
    let enter := Crossing.first (fun k => r.value k ≤ high) n (ceil (r.reaches high))
    let leave := Crossing.first (fun k => r.value k < low) n (floor (r.reaches low) + 1)
    r.threeRuns n high low enter (max leave enter)

end Ramp

namespace Span

variable {α : Type} [Scalar α]

def clampRun (low high : α) (r : Run (Ramp α)) : List (Run (Ramp α)) :=
  if Scalar.wraps r.payload.start r.payload.step (r.length - 1) then
    (List.range r.length).map fun k => ⟨1, .flat (Scalar.clampTo low high (r.payload.value k))⟩
  else (r.payload.clampRuns r.length low high).filter fun r => 0 < r.length

def clamp (low high : α) : Span α → Span α
  | dense vs => dense (vs.map (Scalar.clampTo low high))
  | sparse rs => sparse (rs.map fun r => ⟨r.length, Scalar.clampTo low high r.payload⟩)
  | linear rs => linear (rs.flatMap (clampRun low high))

end Span

end VideoRemap

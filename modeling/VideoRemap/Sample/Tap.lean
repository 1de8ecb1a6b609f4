import VideoRemap.Span.Basic

namespace VideoRemap

/-- The value at `near`, with `weight` of the value at `far` blended in. -/
structure Tap where
  near : Nat
  far : Nat
  weight : Float32

def Tap.of {α : Type} [Scalar α] (n : Nat) (v : α) : Tap :=
  let last := (n - 1) % UInt32.size
  let near := Scalar.index last v
  let weight := Scalar.fraction v
  if 0 < weight ∧ near < last then ⟨near, near + 1, weight⟩ else ⟨near, near, 0⟩

def insertIndex (i : Nat) : List Nat → List Nat
  | [] => [i]
  | j :: js => if i < j then i :: j :: js else if i = j then j :: js else j :: insertIndex i js

def referencedFrames {α : Type} [Scalar α] (ts : Span α) (n : Nat) : List Nat :=
  (ts.toList.foldl (fun is v =>
    let tap := Tap.of n v
    insertIndex tap.near (insertIndex tap.far is)) []).filter (· < n)

end VideoRemap

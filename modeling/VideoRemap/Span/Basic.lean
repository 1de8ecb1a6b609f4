import VideoRemap.Scalar
import VideoRemap.Fault

/-!
A span holds one value for each pixel of a frame. Beside the dense form there are two by runs: of
one value, and of a ramp. `Span.toList` is the view in which all three are compared.
-/

namespace VideoRemap

structure Run (β : Type) where
  length : Nat
  payload : β
  deriving BEq

/-- Pixel `k` of a run holds `start + step * k`. -/
structure Ramp (α : Type) where
  start : α
  step : α
  deriving BEq

inductive Span (α : Type) where
  | dense (values : List α)
  | sparse (runs : List (Run α))
  | linear (runs : List (Run (Ramp α)))
  deriving BEq

namespace Ramp

variable {α : Type} [Scalar α]

def flat (v : α) : Ramp α := ⟨v, Scalar.ofIndex 0⟩

def value (r : Ramp α) (k : Nat) : α := r.start + r.step * Scalar.ofIndex k

def drop (r : Ramp α) (k : Nat) : Ramp α := ⟨r.value k, r.step⟩

end Ramp

namespace Run

variable {β γ : Type}

def total : List (Run β) → Nat
  | [] => 0
  | r :: rs => r.length + total rs

def boundaries (pos : Nat) : List (Run β) → List Nat
  | [] => [pos]
  | r :: rs => pos :: boundaries (pos + r.length) rs

def WellFormed (runs : List (Run β)) : Prop := ∀ r ∈ runs, 0 < r.length

def find? : List (Run β) → Nat → Option (β × Nat)
  | [], _ => none
  | r :: rs, i => if i < r.length then some (r.payload, i) else find? rs (i - r.length)

def expand (value : β → Nat → γ) (runs : List (Run β)) : List γ :=
  runs.flatMap fun r => (List.range r.length).map (value r.payload)

def increasing : List Nat → Bool
  | a :: b :: rest => a < b && increasing (b :: rest)
  | _ => true

def ofBoundaries (boundaries : List Nat) (payloads : List β) : Except Fault (List (Run β)) :=
  if boundaries.head? ≠ some 0 then .error .boundaryStart
  else if boundaries.length ≠ payloads.length + 1 then
    .error (.boundaryCount boundaries.length payloads.length)
  else if !increasing boundaries then .error .boundaryOrder
  else .ok (((boundaries.drop 1).zip boundaries).zipWith (fun b p => ⟨b.1 - b.2, p⟩) payloads)

end Run

inductive Encoding where
  | dense
  | sparse
  | linear
  deriving DecidableEq

namespace Span

variable {α : Type}

def encoding : Span α → Encoding
  | dense _ => .dense
  | sparse _ => .sparse
  | linear _ => .linear

def length : Span α → Nat
  | dense vs => vs.length
  | sparse rs => Run.total rs
  | linear rs => Run.total rs

def runCount : Span α → Nat
  | dense vs => vs.length
  | sparse rs => rs.length
  | linear rs => rs.length

def boundaries : Span α → Option (List Nat)
  | dense _ => none
  | sparse rs => some (Run.boundaries 0 rs)
  | linear rs => some (Run.boundaries 0 rs)

def WellFormed : Span α → Prop
  | dense _ => True
  | sparse rs => Run.WellFormed rs
  | linear rs => Run.WellFormed rs

def constant (n : Nat) (v : α) : Span α := sparse (if n = 0 then [] else [⟨n, v⟩])

def ofSparse (boundaries : List Nat) (values : List α) : Except Fault (Span α) :=
  sparse <$> Run.ofBoundaries boundaries values

def ofLinear (boundaries : List Nat) (ramps : List (Ramp α)) : Except Fault (Span α) :=
  linear <$> Run.ofBoundaries boundaries ramps

section Values

variable [Scalar α]

def toList : Span α → List α
  | dense vs => vs
  | sparse rs => Run.expand (fun v _ => v) rs
  | linear rs => Run.expand Ramp.value rs

def get? (s : Span α) (i : Nat) : Option α :=
  match s with
  | dense vs => vs[i]?
  | sparse rs => (Run.find? rs i).map (·.1)
  | linear rs => (Run.find? rs i).map fun (r, k) => r.value k

def toDense (s : Span α) : Span α := dense s.toList

def extremes? (s : Span α) : Option (α × α) :=
  match s.toList with
  | [] => none
  | v :: vs =>
    some (vs.foldl (fun (lo, hi) v => (if v < lo then v else lo, if hi < v then v else hi)) (v, v))

def columns (width height : Nat) : Span α :=
  if width = 0 ∨ height = 0 then constant 0 (Scalar.ofIndex 0)
  else linear (List.replicate height ⟨width, ⟨Scalar.ofIndex 0, Scalar.ofIndex 1⟩⟩)

def rows (width height : Nat) : Span α :=
  if width = 0 ∨ height = 0 then constant 0 (Scalar.ofIndex 0)
  else sparse ((List.range height).map fun r => ⟨width, Scalar.ofIndex r⟩)

end Values

end Span

end VideoRemap

import VideoRemap.Span.Basic

/-!
Pixelwise operations on spans that keep runs as long as the result has any. A dense operand makes
the result dense. Of two others, a sum is by ramps if one operand is, and so is the product of
ramps and constant runs; the product of ramps is dense. Two sparse operands give a sparse result.
-/

namespace VideoRemap

/-- Pixels that lie in one run on either side. The skips count the pixels of each run in front of
the piece. -/
structure Piece (β γ : Type) where
  length : Nat
  left : β
  leftSkip : Nat
  right : γ
  rightSkip : Nat

namespace Run

variable {β γ δ : Type}

/-- The pieces into which two run lists cut the same pixels. Of the first runs `i` and `j` pixels
are done. -/
def mergeFrom (a : List (Run β)) (i : Nat) (b : List (Run γ)) (j : Nat) : List (Piece β γ) :=
  match a, b with
  | r :: rs, s :: ss =>
    if r.length - i < s.length - j then
      ⟨r.length - i, r.payload, i, s.payload, j⟩ :: mergeFrom rs 0 (s :: ss) (j + (r.length - i))
    else if s.length - j < r.length - i then
      ⟨s.length - j, r.payload, i, s.payload, j⟩ :: mergeFrom (r :: rs) (i + (s.length - j)) ss 0
    else ⟨r.length - i, r.payload, i, s.payload, j⟩ :: mergeFrom rs 0 ss 0
  | _, _ => []
termination_by a.length + b.length

def merge (a : List (Run β)) (b : List (Run γ)) : List (Piece β γ) := mergeFrom a 0 b 0

def zipWith (f : Piece β γ → δ) (a : List (Run β)) (b : List (Run γ)) : List (Run δ) :=
  (merge a b).map fun p => ⟨p.length, f p⟩

def zipWith? (f : Piece β γ → Option δ) (a : List (Run β)) (b : List (Run γ)) :
    Option (List (Run δ)) :=
  (merge a b).mapM fun p => (⟨p.length, ·⟩) <$> f p

end Run

namespace Piece

variable {α γ : Type} [Scalar α]

def leftRamp (p : Piece (Ramp α) γ) : Ramp α := p.left.drop p.leftSkip

def rightRamp (p : Piece γ (Ramp α)) : Ramp α := p.right.drop p.rightSkip

end Piece

namespace Ramp

variable {α : Type} [Scalar α]

def add (r s : Ramp α) : Ramp α := ⟨r.start + s.start, r.step + s.step⟩

def shift (r : Ramp α) (c : α) : Ramp α := ⟨r.start + c, r.step⟩

def scale (r : Ramp α) (c : α) : Ramp α := ⟨r.start * c, r.step * c⟩

end Ramp

namespace Span

variable {α : Type} [Scalar α]

def zipDense (f : α → α → α) (a b : Span α) : Span α := dense (List.zipWith f a.toList b.toList)

def add : Span α → Span α → Span α
  | linear a, linear b => linear (Run.zipWith (fun p => p.leftRamp.add p.rightRamp) a b)
  | linear a, sparse b => linear (Run.zipWith (fun p => p.leftRamp.shift p.right) a b)
  | sparse a, linear b => linear (Run.zipWith (fun p => p.rightRamp.shift p.left) a b)
  | sparse a, sparse b => sparse (Run.zipWith (fun p => p.left + p.right) a b)
  | a, b => zipDense (· + ·) a b

def mul : Span α → Span α → Span α
  | linear a, sparse b => linear (Run.zipWith (fun p => p.leftRamp.scale p.right) a b)
  | sparse a, linear b => linear (Run.zipWith (fun p => p.rightRamp.scale p.left) a b)
  | sparse a, sparse b => sparse (Run.zipWith (fun p => p.left * p.right) a b)
  | a, b => zipDense (· * ·) a b

instance : Add (Span α) := ⟨add⟩

instance : Mul (Span α) := ⟨mul⟩

def scale (k : α) (s : Span α) : Span α := s * constant s.length k

def zipWith? (f : α → α → Option α) : Span α → Span α → Option (Span α)
  | sparse a, sparse b => sparse <$> Run.zipWith? (fun p => f p.left p.right) a b
  | a, b => dense <$> (a.toList.zip b.toList).mapM fun (u, v) => f u v

end Span

end VideoRemap

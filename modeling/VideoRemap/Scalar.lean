import VideoRemap.Expr.Basic
import VideoRemap.Number.Rounding

/-!
The two kinds of coordinate: 32-bit integers, whose arithmetic wraps around, and single-precision
numbers.
-/

namespace VideoRemap

open Number

class Scalar (α : Type) extends Add α, Mul α, LT α, LE α, BEq α where
  [decidableLT : DecidableLT α]
  [decidableLE : DecidableLE α]
  integral : Bool
  ofIndex : Nat → α
  ofInt : Int → α
  ofDouble : Float → α
  toDouble : α → Float
  divide? : α → α → Option α
  remainder? : α → α → Option α
  /-- The multiple of the second operand at which its last interval before the first one starts. -/
  align? : α → α → Option α
  /-- `start + step * k`, computed in `α`, is not that integer because the arithmetic wrapped. -/
  wraps : (start step : α) → (k : Nat) → Bool
  index : (last : Nat) → α → Nat
  fraction : α → Float32

attribute [reducible, instance] Scalar.decidableLT Scalar.decidableLE

namespace Scalar

variable {α : Type} [Scalar α]

/-- Into `[low, high]`. What compares with neither bound stays, and `low` wins when the bounds are
inverted. -/
def clampTo (low high v : α) : α :=
  if v < low then low else if high < v then high else v

def quotient? : Quotient → α → α → Option α
  | .divide => divide?
  | .remainder => remainder?
  | .align => align?

end Scalar

/-- Division truncates, the remainder has the sign of the dividend, and a zero divisor has no
result. -/
instance : Scalar Int32 where
  integral := true
  ofIndex := Int32.ofNat
  ofInt := Int32.ofInt
  ofDouble := toInt32
  toDouble := ofInt32
  divide? a b := if b = 0 then none else some (a / b)
  remainder? a b := if b = 0 then none else some (a % b)
  align? a b := if b = 0 then none else some (a - a % b)
  wraps start step k := (start + step * Int32.ofNat k).toInt != start.toInt + step.toInt * k
  index last v := min v.toInt.toNat last
  fraction _ := 0

/-- The remainder is `a - ⌊a / b⌋ * b`, and a zero divisor gives infinities and NaN. -/
instance : Scalar Float32 where
  integral := false
  ofIndex := Float32.ofNat
  ofInt := Float32.ofInt
  ofDouble := narrow
  toDouble := widen
  divide? a b := some (a / b)
  remainder? a b := some (a - floorSingle (a / b) * b)
  align? a b := some (floorSingle (a / b) * b)
  wraps _ _ _ := false
  index last v := indexUpTo last (floor (widen v))
  fraction v := narrow (widen v - floor (widen v))

end VideoRemap

import VideoRemap.Expr.Basic

/-!
The integer value of an expression at one pixel, in 32-bit arithmetic that wraps around. Nothing
here knows of spans: `Expr.value?` says what evaluating over a frame must give at each pixel.
-/

namespace VideoRemap

structure Point where
  x : Int32
  y : Int32
  t : Int32

def Point.coordinate (p : Point) : Variable → Int32
  | .x => p.x
  | .y => p.y
  | .t => p.t

def Quotient.value? : Quotient → Int32 → Int32 → Option Int32
  | .divide, _, _ => none
  | .remainder, a, b => if b = 0 then none else some (a % b)
  | .align, a, b => if b = 0 then none else some (a - a % b)

namespace Expr

mutual

def value? (p : Point) : Expr → Option Int32
  | var v => some (p.coordinate v)
  | literal (.int v) => some v
  | literal (.decimal _) | scale (.decimal _) _ => none
  | scale (.int k) e => (e.value? p).map (· * k)
  | clamp low high e =>
    if high < low then none else (e.value? p).map fun v => max low (min v high)
  | sum [] | product [] => none
  | sum es => (values? p es).map List.sum
  | product es => (values? p es).map fun vs => vs.foldl (· * ·) 1
  | quotient op l r => do op.value? (← l.value? p) (← r.value? p)

def values? (p : Point) : List Expr → Option (List Int32)
  | [] => some []
  | e :: es => do return (← e.value? p) :: (← values? p es)

end

end Expr

end VideoRemap

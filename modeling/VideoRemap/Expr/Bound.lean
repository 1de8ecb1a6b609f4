import VideoRemap.Expr.Basic
import VideoRemap.Interval

namespace VideoRemap

structure Box (ε : Type) where
  x : Interval ε
  y : Interval ε
  t : Interval ε

variable {ε : Type}

def Box.coordinate (b : Box ε) : Variable → Interval ε
  | .x => b.x
  | .y => b.y
  | .t => b.t

def Literal.endpoint [Endpoint ε] : Literal → ε
  | .int v => Endpoint.ofInt v.toInt
  | .decimal v => Endpoint.ofSingle v

/-- Alignment keeps the interval of its dividend, which holds where coordinates are not negative. -/
def Quotient.bound [Endpoint ε] : Quotient → Interval ε → Interval ε → Interval ε
  | .divide, i, j => i.divide j
  | .remainder, i, j => i.remainder j
  | .align, i, _ => i

namespace Expr

variable [Endpoint ε]

mutual

def bound (b : Box ε) : Expr → Interval ε
  | var v => b.coordinate v
  | literal v => .point v.endpoint
  | scale k e => (e.bound b).scale k.endpoint
  | clamp low high e =>
    (e.bound b).clamp (Endpoint.ofInt low.toInt) (Endpoint.ofInt high.toInt)
  | sum [] => .point (Endpoint.ofInt 0)
  | sum (e :: es) => boundOnto b Interval.add (e.bound b) es
  | product [] => .point (Endpoint.ofInt 1)
  | product (e :: es) => boundOnto b Interval.mul (e.bound b) es
  | quotient op l r => op.bound (l.bound b) (r.bound b)

def boundOnto (b : Box ε) (combine : Interval ε → Interval ε → Interval ε) (acc : Interval ε) :
    List Expr → Interval ε
  | [] => acc
  | e :: es => boundOnto b combine (combine acc (e.bound b)) es

end

end Expr

end VideoRemap

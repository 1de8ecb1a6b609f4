/-!
Coordinate expressions. A tree over the output column, row and frame index gives the column, row
or frame to read from.
-/

namespace VideoRemap

inductive Variable where
  | x
  | y
  | t
  deriving DecidableEq

inductive Literal where
  | int (v : Int32)
  | decimal (v : Float32)

/-- The operations that divide: the quotient, the remainder, and the greatest multiple of the
divisor below the dividend. -/
inductive Quotient where
  | divide
  | remainder
  | align
  deriving DecidableEq

def Quotient.symbol : Quotient → Char
  | .divide => '/'
  | .remainder => '#'
  | .align => '_'

inductive Expr where
  | var (v : Variable)
  | literal (v : Literal)
  /-- A constant factor in front; a unary minus is a factor of `-1`. -/
  | scale (k : Literal) (e : Expr)
  | clamp (low high : Int32) (e : Expr)
  | sum (terms : List Expr)
  | product (factors : List Expr)
  | quotient (op : Quotient) (left right : Expr)

instance : Inhabited Expr := ⟨.var .x⟩

namespace Expr

def negate (e : Expr) : Expr := .scale (.int (-1)) e

def collapse (operation : List Expr → Expr) : List Expr → Expr
  | [e] => e
  | es => operation es

mutual

def isExact : Expr → Bool
  | var _ | literal (.int _) => true
  | literal (.decimal _) | scale (.decimal _) _ => false
  | scale (.int _) e | clamp _ _ e => e.isExact
  | sum es | product es => allExact es
  | quotient .divide _ _ => false
  | quotient _ l r => l.isExact && r.isExact

def allExact : List Expr → Bool
  | [] => true
  | e :: es => e.isExact && allExact es

end

mutual

def nodeCount : Expr → Nat
  | var _ | literal _ => 1
  | scale _ e | clamp _ _ e => e.nodeCount + 1
  | sum es | product es => nodeCounts es + 1
  | quotient _ l r => l.nodeCount + r.nodeCount + 1

def nodeCounts : List Expr → Nat
  | [] => 0
  | e :: es => e.nodeCount + nodeCounts es

end

end Expr

structure Triplet where
  x : Expr
  y : Expr
  t : Expr

structure Constants where
  width : Int32
  height : Int32
  length : Int32

def Constants.symbol? (c : Constants) : Char → Option Expr
  | 'x' => some (.var .x)
  | 'y' => some (.var .y)
  | 'z' | 't' => some (.var .t)
  | 'w' => some (.literal (.int c.width))
  | 'h' => some (.literal (.int c.height))
  | 'l' => some (.literal (.int c.length))
  | _ => none

end VideoRemap

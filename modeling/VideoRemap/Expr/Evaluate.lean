import VideoRemap.Span.Algebra
import VideoRemap.Span.Clamp

/-!
Evaluating an expression for all pixels of a frame at once.
-/

namespace VideoRemap

open Number

structure Grid (α : Type) where
  x : Span α
  y : Span α
  t : α

namespace Grid

variable {α : Type}

def pixelCount (g : Grid α) : Nat := g.x.length

def coordinate (g : Grid α) : Variable → Span α
  | .x => g.x
  | .y => g.y
  | .t => .constant g.pixelCount g.t

def ofSize [Scalar α] (width height t : Nat) : Grid α :=
  ⟨.columns width height, .rows width height, Scalar.ofIndex t⟩

end Grid

def Literal.scalar? {α : Type} [Scalar α] : Literal → Option α
  | .int v => some (Scalar.ofInt v.toInt)
  | .decimal v => if Scalar.integral α then none else some (Scalar.ofDouble (widen v))

namespace Expr

variable {α : Type} [Scalar α]

mutual

/-- The value at every pixel. Integral scalars refuse decimals and true division, and no operand
may divide by an integer zero. -/
def evaluate (g : Grid α) : Expr → Except Fault (Span α)
  | var v => .ok (g.coordinate v)
  | literal v =>
    match (v.scalar? : Option α) with
    | some v => .ok (.constant g.pixelCount v)
    | none => .error (.notExact (literal v))
  | scale k e =>
    match (k.scalar? : Option α) with
    | some k => Span.scale k <$> e.evaluate g
    | none => .error (.notExact (scale k e))
  | clamp low high e =>
    if high < low then .error (.invertedClamp low high)
    else Span.clamp (Scalar.ofInt low.toInt) (Scalar.ofInt high.toInt) <$> e.evaluate g
  | sum [] | product [] => .error .noOperands
  | sum (e :: es) => do evaluateOnto g (· + ·) (← e.evaluate g) es
  | product (e :: es) => do evaluateOnto g (· * ·) (← e.evaluate g) es
  | quotient op l r =>
    if op = .divide ∧ Scalar.integral α then .error (.notExact (quotient op l r))
    else do
      let a ← l.evaluate g
      let b ← r.evaluate g
      match Span.zipWith? (Scalar.quotient? op) a b with
      | some s => .ok s
      | none => .error (.zeroDivisor op (quotient op l r))

def evaluateOnto (g : Grid α) (combine : Span α → Span α → Span α) (acc : Span α) :
    List Expr → Except Fault (Span α)
  | [] => .ok acc
  | e :: es => do evaluateOnto g combine (combine acc (← e.evaluate g)) es

end

def constant (e : Expr) : Except Fault Float :=
  let first {α : Type} [Scalar α] (s : Span α) : Except Fault Float :=
    match s.get? 0 with
    | some v => .ok (Scalar.toDouble v)
    | none => .error (.noValue e)
  if e.isExact then do
    let zero : Span Int32 := .constant 1 0
    first (← e.evaluate ⟨zero, zero, 0⟩)
  else do
    let zero : Span Float32 := .constant 1 0
    first (← e.evaluate ⟨zero, zero, 0⟩)

end Expr

end VideoRemap

import VideoRemap.Number.Rounding
import VideoRemap.FrameRange

/-!
Closed intervals, for bounding what an expression can read. The endpoints are doubles when a plan
is made; read as exact integers they show what the rules say apart from rounding.
-/

namespace VideoRemap

open Number

class Endpoint (ε : Type) extends Add ε, Mul ε, Neg ε, LE ε, LT ε where
  [decidableLE : DecidableLE ε]
  [decidableLT : DecidableLT ε]
  ofInt : Int → ε
  ofSingle : Float32 → ε
  inverse : ε → ε
  lowest : ε
  highest : ε
  /-- Of two the lesser; of one number and none the number. -/
  least : ε → ε → ε
  greatest : ε → ε → ε
  /-- The least of four products, above everything if none is a number. -/
  leastOf : ε → ε → ε → ε → ε
  greatestOf : ε → ε → ε → ε → ε
  isNumber : ε → Bool
  indexBelow : (n : Nat) → ε → Nat
  indexPast : (n : Nat) → ε → Nat

attribute [reducible, instance] Endpoint.decidableLE Endpoint.decidableLT

structure Interval (ε : Type) where
  a : ε
  b : ε

namespace Interval

variable {ε : Type} [Endpoint ε]

def unbounded : Interval ε := ⟨Endpoint.lowest, Endpoint.highest⟩

def between (a b : ε) : Interval ε := if a ≤ b then ⟨a, b⟩ else ⟨b, a⟩

def point (v : ε) : Interval ε := ⟨v, v⟩

def IsUnbounded (i : Interval ε) : Prop := i.a ≤ Endpoint.lowest ∨ Endpoint.highest ≤ i.b

instance (i : Interval ε) : Decidable i.IsUnbounded := inferInstanceAs (Decidable (_ ∨ _))

def ContainsZero (i : Interval ε) : Prop := i.a ≤ Endpoint.ofInt 0 ∧ Endpoint.ofInt 0 ≤ i.b

instance (i : Interval ε) : Decidable i.ContainsZero := inferInstanceAs (Decidable (_ ∧ _))

def inverse (i : Interval ε) : Interval ε :=
  if i.ContainsZero then unbounded else between (Endpoint.inverse i.b) (Endpoint.inverse i.a)

def scale (k : ε) (i : Interval ε) : Interval ε :=
  if Endpoint.ofInt 0 ≤ k then ⟨i.a * k, i.b * k⟩ else ⟨i.b * k, i.a * k⟩

def clamp (low high : ε) (i : Interval ε) : Interval ε :=
  ⟨Endpoint.least (Endpoint.greatest i.a low) high, Endpoint.least (Endpoint.greatest i.b low) high⟩

def add (i j : Interval ε) : Interval ε := ⟨i.a + j.a, i.b + j.b⟩

def mul (i j : Interval ε) : Interval ε :=
  ⟨Endpoint.leastOf (i.a * j.a) (i.a * j.b) (i.b * j.a) (i.b * j.b),
    Endpoint.greatestOf (i.a * j.a) (i.a * j.b) (i.b * j.a) (i.b * j.b)⟩

def radius (i : Interval ε) : ε :=
  let distance (v : ε) := if Endpoint.ofInt 0 ≤ v then v else -v
  Endpoint.greatest (distance i.a) (distance i.b)

/-- Remainders of `i` by `j`. A non-negative dividend below every divisor is its own remainder;
otherwise the sign of the remainder may be either unless all is non-negative. -/
def remainder (i j : Interval ε) : Interval ε :=
  if Endpoint.ofInt 0 ≤ i.a ∧ Endpoint.ofInt 0 < j.a then
    if i.b < j.a then i else between (Endpoint.ofInt 0) j.b
  else between (-j.radius) j.radius

/-- Quotients of `i` by `j`, unbounded when `j` contains zero. -/
def divide (i j : Interval ε) : Interval ε :=
  if j.inverse.IsUnbounded then unbounded else i.mul j.inverse

/-- The frames out of `n` that coordinates in the interval touch, with the later one of two between
which a coordinate lies. -/
def cover (n : Nat) (i : Interval ε) : FrameRange :=
  if Endpoint.isNumber i.a ∧ Endpoint.isNumber i.b then
    let stop := Endpoint.indexPast n i.b
    ⟨min (Endpoint.indexBelow n i.a) stop, stop⟩
  else ⟨0, n⟩

end Interval

def leastNumber (a b : Float) : Float := if a < b || b.isNaN then a else b

def greatestNumber (a b : Float) : Float := if b < a || b.isNaN then a else b

def largestDouble : Float := Float.ofBits 0x7FEFFFFFFFFFFFFF

def positiveInfinity : Float := Float.ofBits 0x7FF0000000000000

instance : Endpoint Float where
  ofInt := Float.ofInt
  ofSingle := widen
  inverse v := 1 / v
  lowest := -largestDouble
  highest := largestDouble
  least := leastNumber
  greatest := greatestNumber
  leastOf p q r s :=
    leastNumber (leastNumber (leastNumber (leastNumber positiveInfinity p) q) r) s
  greatestOf p q r s :=
    greatestNumber (greatestNumber (greatestNumber (greatestNumber (-positiveInfinity) p) q) r) s
  isNumber v := !v.isNaN
  indexBelow n v := indexUpTo n (floor v)
  indexPast n v := indexUpTo n (ceil v + 1)

/-- Exact integers. They bound expressions without division and decimals; there the operations on
fractions, which round toward zero, do not occur. -/
instance : Endpoint Int where
  ofInt := id
  ofSingle v := (toInt32 (widen v)).toInt
  inverse v := Int.tdiv 1 v
  lowest := -(0x1FFFFFFFFFFFFF <<< 971 : Nat)
  highest := (0x1FFFFFFFFFFFFF <<< 971 : Nat)
  least := min
  greatest := max
  leastOf p q r s := min (min (min p q) r) s
  greatestOf p q r s := max (max (max p q) r) s
  isNumber _ := true
  indexBelow n v := min v.toNat n
  indexPast n v := min (v + 1).toNat n

end VideoRemap

/-!
The fewest decimal digits that identify a binary floating-point number: among all decimals in the
interval of reals that round to the number, one with the coarsest power of ten, and of two such
the nearer; a tie goes up.
-/

namespace VideoRemap.Number

structure Binary where
  m : Nat
  q : Int
  narrowBelow : Bool

def Binary.ofDouble (x : Float) : Binary :=
  let e := ((x.toBits >>> 52) &&& 0x7FF).toNat
  let f := (x.toBits &&& 0xFFFFFFFFFFFFF).toNat
  if e == 0 then ⟨f, -1074, false⟩ else ⟨0x10000000000000 + f, e - 1075, f == 0 && 1 < e⟩

def Binary.ofSingle (x : Float32) : Binary :=
  let e := ((x.toBits >>> 23) &&& 0xFF).toNat
  let f := (x.toBits &&& 0x7FFFFF).toNat
  if e == 0 then ⟨f, -149, false⟩ else ⟨0x800000 + f, e - 150, f == 0 && 1 < e⟩

structure Decimal where
  digits : Nat
  exp : Int
  deriving DecidableEq

def compareScaled (a : Nat) (i : Int) (n : Nat) (j : Int) : Ordering :=
  compare ((a * Nat.pow 10 i.toNat) <<< (-j).toNat) ((n * Nat.pow 10 (-i).toNat) <<< j.toNat)

/-- The reals that round to `x` lie between these two, in units of `2 ^ (x.q - 2)`. -/
def Binary.ends (x : Binary) : Nat × Nat :=
  (if x.narrowBelow then 4 * x.m - 1 else 4 * x.m - 2, 4 * x.m + 2)

/-- Reading `d` gives `x`. The ends of the interval count iff `x.m` is even. -/
def Binary.identifiedBy (x : Binary) (d : Decimal) : Bool :=
  let (lo, hi) := x.ends
  let low := compareScaled d.digits d.exp lo (x.q - 2)
  let high := compareScaled d.digits d.exp hi (x.q - 2)
  if x.m % 2 == 0 then low != .lt && high != .gt else low == .gt && high == .lt

def Binary.onGrid (x : Binary) (g : Int) : Nat :=
  (x.m * Nat.pow 10 (-g).toNat) <<< x.q.toNat / Nat.pow 10 g.toNat <<< (-x.q).toNat

/-- The multiple of `10 ^ g` next to `x` that identifies it; of two the nearer, of two equally
near the greater. -/
def Binary.candidate (x : Binary) (g : Int) : Option Decimal :=
  let d := x.onGrid g
  let below : Decimal := ⟨d, g⟩
  let above : Decimal := ⟨d + 1, g⟩
  match d != 0 && x.identifiedBy below, x.identifiedBy above with
  | true, true => if compareScaled (2 * d + 1) g (2 * x.m) x.q == .gt then below else above
  | true, false => below
  | false, true => above
  | false, false => none

def Binary.leading (x : Binary) : Int := (x.m.log2 + x.q + 1) * 30103 / 100000 + 1

def Binary.exact (x : Binary) : Decimal :=
  if 0 ≤ x.q then ⟨x.m <<< x.q.toNat, 0⟩ else ⟨x.m * Nat.pow 5 (-x.q).toNat, x.q⟩

def Binary.shortest (x : Binary) : Decimal :=
  ((List.range 20).findSome? fun i : Nat => x.candidate (x.leading - i)).getD x.exact

end VideoRemap.Number

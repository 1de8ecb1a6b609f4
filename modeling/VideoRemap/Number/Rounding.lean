/-!
Floating-point numbers through their bits: whole parts, the passage between double and single
precision, and conversions to integers that stop at the ends of the range.
-/

namespace VideoRemap.Number

def truncate (x : Float) : Float :=
  let e := (x.toBits >>> 52) &&& 0x7FF
  if e < 1023 then Float.ofBits (x.toBits &&& 0x8000000000000000)
  else if 1075 ≤ e then x
  else Float.ofBits (x.toBits &&& ~~~((0xFFFFFFFFFFFFF : UInt64) >>> (e - 1023)))

def floor (x : Float) : Float :=
  let t := truncate x
  if t ≤ x then t else t - 1

def ceil (x : Float) : Float :=
  let t := truncate x
  if x ≤ t then t else t + 1

def roundAway (x : Float) : Float :=
  let t := truncate x
  if (x - t).abs < 0.5 then t
  else if x < 0 then t - 1
  else t + 1

def truncateSingle (x : Float32) : Float32 :=
  let e := (x.toBits >>> 23) &&& 0xFF
  if e < 127 then Float32.ofBits (x.toBits &&& 0x80000000)
  else if 150 ≤ e then x
  else Float32.ofBits (x.toBits &&& ~~~((0x7FFFFF : UInt32) >>> (e - 127)))

def floorSingle (x : Float32) : Float32 :=
  let t := truncateSingle x
  if t ≤ x then t else t - 1

def widen (x : Float32) : Float :=
  let sign := (x.toBits &&& 0x80000000).toUInt64 <<< 32
  let e := ((x.toBits >>> 23) &&& 0xFF).toUInt64
  let f := (x.toBits &&& 0x7FFFFF).toUInt64
  if e == 0xFF then Float.ofBits (sign ||| (0x7FF0000000000000 : UInt64) ||| f <<< 29)
  else if e == 0 then
    let tiny := f.toFloat * Float.ofBits 0x36A0000000000000
    if sign == 0 then tiny else -tiny
  else Float.ofBits (sign ||| (e + 896) <<< 52 ||| f <<< 29)

def halveEven (n s : Nat) : Nat :=
  let q := n >>> s
  let r := n - q <<< s
  if 2 * r < 1 <<< s then q
  else if 1 <<< s < 2 * r then q + 1
  else q + q % 2

/-- `m * 2 ^ q` in single precision, rounded to nearest; a half goes to the even neighbour. -/
def single (negative : Bool) (m : Nat) (q : Int) : Float32 :=
  let unit : Int := max (m.log2 + q - 23) (-149)
  let n := if unit ≤ q then m <<< (q - unit).toNat else halveEven m (unit - q).toNat
  let bits := if n < 0x800000 then n else (unit + 149).toNat <<< 23 + n
  let bits := min bits 0x7F800000
  Float32.ofBits (UInt32.ofNat (if negative then bits + 0x80000000 else bits))

def narrow (x : Float) : Float32 :=
  let negative := x.toBits &&& 0x8000000000000000 != 0
  let e := ((x.toBits >>> 52) &&& 0x7FF).toNat
  let f := (x.toBits &&& 0xFFFFFFFFFFFFF).toNat
  if e == 0x7FF then
    Float32.ofBits (if f == 0 then (if negative then 0xFF800000 else 0x7F800000) else 0x7FC00000)
  else if e == 0 then single negative f (-1074)
  else single negative (0x10000000000000 + f) (e - 1075)

/-- The whole part as a natural number below `2 ^ 64`: zero below, the greatest above, zero for
NaN. -/
def toNat (x : Float) : Nat := x.toUInt64.toNat

/-- Into `[0, last]`, and then to an index; NaN gives zero. -/
def indexUpTo (last : Nat) (v : Float) : Nat :=
  let top := Float.ofNat last
  toNat (if v < 0 then 0 else if top < v then top else v)

def toInt32 (x : Float) : Int32 :=
  if x < 0 then Int32.ofInt (-(min (toNat (-x)) 0x80000000 : Nat))
  else Int32.ofNat (min (toNat x) 0x7FFFFFFF)

def ofInt32 (n : Int32) : Float := Float.ofInt n.toInt

end VideoRemap.Number

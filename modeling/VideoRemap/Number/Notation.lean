import VideoRemap.Number.Shortest

/-!
How a floating-point number is written once its digits are known. One record holds the decisions
of a notation; the two notations of this library are `treeNotation` and `plainNotation`.
-/

namespace VideoRemap.Number

structure Style where
  positional : Option (Int × Int)
  pointZero : Bool

/-- Numbers in expression trees: always with a point or an exponent, and an exponent below
`0.0001` and from `10 ^ 16` on. -/
def treeNotation : Style := ⟨some (-4, 15), true⟩

def plainNotation : Style := ⟨none, false⟩

def zeros (n : Nat) : List Char := List.replicate n '0'

def Style.positionalText (s : Style) (d : Decimal) : List Char :=
  let ds := Nat.toDigits 10 d.digits
  if 0 ≤ d.exp then ds ++ zeros d.exp.toNat ++ (if s.pointZero then ['.', '0'] else [])
  else
    let places := (-d.exp).toNat
    if places < ds.length then
      ds.take (ds.length - places) ++ '.' :: ds.drop (ds.length - places)
    else '0' :: '.' :: zeros (places - ds.length) ++ ds

def intText (n : Int) : List Char :=
  if n < 0 then '-' :: Nat.toDigits 10 n.natAbs else Nat.toDigits 10 n.natAbs

def exponentText (d : Decimal) : List Char :=
  let ds := Nat.toDigits 10 d.digits
  let tail := if ds.length = 1 then [] else '.' :: ds.drop 1
  ds.take 1 ++ tail ++ 'e' :: intText (d.exp + (ds.length - 1 : Nat))

def Style.decimalText (s : Style) (d : Decimal) : List Char :=
  let e := d.exp + ((Nat.toDigits 10 d.digits).length - 1 : Nat)
  match s.positional with
  | none => s.positionalText d
  | some (lo, hi) => if lo ≤ e ∧ e ≤ hi then s.positionalText d else exponentText d

def Style.zeroText (s : Style) : List Char := if s.pointZero then ['0', '.', '0'] else ['0']

def signed (negative : Bool) (text : List Char) : List Char :=
  if negative then '-' :: text else text

def Style.single (s : Style) (x : Float32) : List Char :=
  if x.isNaN then ['N', 'a', 'N']
  else
    signed (x.toBits &&& 0x80000000 != 0) <|
      if x.isInf then ['i', 'n', 'f']
      else if x == 0 then s.zeroText
      else s.decimalText (Binary.ofSingle x).shortest

def Style.double (s : Style) (x : Float) : List Char :=
  if x.isNaN then ['N', 'a', 'N']
  else
    signed (x.toBits &&& 0x8000000000000000 != 0) <|
      if x.isInf then ['i', 'n', 'f']
      else if x == 0 then s.zeroText
      else s.decimalText (Binary.ofDouble x).shortest

end VideoRemap.Number

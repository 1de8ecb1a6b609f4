import VideoRemap.Number.Rounding

namespace VideoRemap.Number

def spaceRanges : List (Nat × Nat) :=
  [(0x09, 0x0D), (0x20, 0x20), (0x85, 0x85), (0xA0, 0xA0), (0x1680, 0x1680), (0x2000, 0x200A),
    (0x2028, 0x2029), (0x202F, 0x202F), (0x205F, 0x205F), (0x3000, 0x3000)]

def isSpace (c : Char) : Bool := spaceRanges.any fun r => r.1 ≤ c.toNat && c.toNat ≤ r.2

def trim (cs : List Char) : List Char :=
  ((cs.dropWhile isSpace).reverse.dropWhile isSpace).reverse

def naturalBelow? (limit : Nat) (cs : List Char) : Option Nat :=
  let ds := match cs with
    | '+' :: ds => ds
    | ds => ds
  if ds.isEmpty || !ds.all Char.isDigit then none
  else
    let n := Nat.ofDigitChars 10 ds 0
    if n < limit then some n else none

def unsigned (cs : List Char) : Bool × List Char :=
  match cs with
  | '-' :: cs => (true, cs)
  | '+' :: cs => (false, cs)
  | cs => (false, cs)

def exponent? (cs : List Char) : Option Int :=
  match cs with
  | [] => some 0
  | c :: cs =>
    if c = 'e' ∨ c = 'E' then
      let (negative, ds) := unsigned cs
      if ds.isEmpty || !ds.all Char.isDigit then none
      else
        let n : Int := Nat.ofDigitChars 10 ds 0
        some (if negative then -n else n)
    else none

/-- `m * 10 ^ e` to the nearest double. Exponents far outside the range of doubles need no power of
ten. -/
def decimalDouble (m : Nat) (e : Int) : Float :=
  if m = 0 then 0
  else
    let leading := e + (Nat.toDigits 10 m).length
    if 400 < leading then 1 / 0
    else if leading < -400 then 0
    else Float.ofScientific m (e < 0) e.natAbs

def double? (cs : List Char) : Option Float :=
  let (negative, cs) := unsigned cs
  let magnitude : Option Float :=
    let word := String.ofList (cs.map Char.toLower)
    if word = "inf" ∨ word = "infinity" then some (1 / 0)
    else if word = "nan" then some (0 / 0)
    else
      let whole := cs.takeWhile Char.isDigit
      let (places, rest) := match cs.dropWhile Char.isDigit with
        | '.' :: cs => (cs.takeWhile Char.isDigit, cs.dropWhile Char.isDigit)
        | cs => ([], cs)
      if whole.isEmpty && places.isEmpty then none
      else (exponent? rest).map fun e =>
        decimalDouble (Nat.ofDigitChars 10 (whole ++ places) 0) (e - places.length)
  magnitude.map fun v => if negative then -v else v

end VideoRemap.Number

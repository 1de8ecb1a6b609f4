import VideoRemap.Json.Basic

namespace VideoRemap.Json

inductive Token where
  | openBrace
  | closeBrace
  | openBracket
  | closeBracket
  | colon
  | comma
  | scalar (v : Json)

inductive Glyph where
  | char (c : Char)
  | unit (n : Nat)

def hexDigit? (c : Char) : Option Nat :=
  if c.isDigit then some (c.toNat - '0'.toNat)
  else if 'a' ≤ c ∧ c ≤ 'f' then some (c.toNat - 'a'.toNat + 10)
  else if 'A' ≤ c ∧ c ≤ 'F' then some (c.toNat - 'A'.toNat + 10)
  else none

def unit? (a b c d : Char) : Option Nat := do
  return (((← hexDigit? a) * 16 + (← hexDigit? b)) * 16 + (← hexDigit? c)) * 16 + (← hexDigit? d)

def escape? : Char → Option Char
  | '"' => some '"'
  | '\\' => some '\\'
  | '/' => some '/'
  | 'b' => some '\x08'
  | 'f' => some '\x0c'
  | 'n' => some '\n'
  | 'r' => some '\r'
  | 't' => some '\t'
  | _ => none

def IsHigh (n : Nat) : Prop := 0xD800 ≤ n ∧ n < 0xDC00

def IsLow (n : Nat) : Prop := 0xDC00 ≤ n ∧ n < 0xE000

instance (n : Nat) : Decidable (IsHigh n) := inferInstanceAs (Decidable (_ ∧ _))

instance (n : Nat) : Decidable (IsLow n) := inferInstanceAs (Decidable (_ ∧ _))

def spelled : List Glyph → Option (List Char)
  | [] => some []
  | .char c :: gs => (c :: ·) <$> spelled gs
  | .unit n :: gs =>
    if IsHigh n then
      match gs with
      | .unit m :: gs =>
        if IsLow m then
          (Char.ofNat (0x10000 + (n - 0xD800) * 0x400 + (m - 0xDC00)) :: ·) <$> spelled gs
        else none
      | _ => none
    else if IsLow n then none
    else (Char.ofNat n :: ·) <$> spelled gs

def quoted : List Char → Option (List Glyph × List Char)
  | [] => none
  | '"' :: cs => some ([], cs)
  | '\\' :: 'u' :: a :: b :: c :: d :: cs =>
    match unit? a b c d, quoted cs with
    | some n, some (gs, rest) => some (.unit n :: gs, rest)
    | _, _ => none
  | '\\' :: e :: cs =>
    match escape? e, quoted cs with
    | some c, some (gs, rest) => some (.char c :: gs, rest)
    | _, _ => none
  | c :: cs =>
    if c < ' ' then none
    else
      match quoted cs with
      | some (gs, rest) => some (.char c :: gs, rest)
      | none => none

def digits (cs : List Char) : Option (List Char × List Char) :=
  match cs.takeWhile Char.isDigit with
  | [] => none
  | ds => some (ds, cs.dropWhile Char.isDigit)

def places (cs : List Char) : Option (Bool × List Char) :=
  match cs with
  | '.' :: cs => (digits cs).map fun r => (true, r.2)
  | cs => some (false, cs)

def exponent (cs : List Char) : Option (Bool × List Char) :=
  let unsigned (cs : List Char) :=
    match cs with
    | '+' :: cs | '-' :: cs => cs
    | cs => cs
  match cs with
  | 'e' :: cs | 'E' :: cs => (digits (unsigned cs)).map fun r => (true, r.2)
  | cs => some (false, cs)

def magnitude (negative : Bool) (cs : List Char) : Option (Json × List Char) := do
  let (whole, cs) ← digits cs
  if whole.head? = some '0' ∧ whole.length ≠ 1 then none
  let (hasPlaces, cs) ← places cs
  let (hasExponent, cs) ← exponent cs
  let n : Int := Nat.ofDigitChars 10 whole 0
  let v := if hasPlaces || hasExponent || (negative && n == 0) then fraction
    else int (if negative then -n else n)
  return (v, cs)

def word? (cs : List Char) : Option (Json × List Char) :=
  match cs with
  | 'n' :: 'u' :: 'l' :: 'l' :: cs => some (null, cs)
  | 't' :: 'r' :: 'u' :: 'e' :: cs => some (bool true, cs)
  | 'f' :: 'a' :: 'l' :: 's' :: 'e' :: cs => some (bool false, cs)
  | _ => none

def scalar? (cs : List Char) : Option (Json × List Char) :=
  match cs with
  | '"' :: cs => (quoted cs).map fun r => (string ((spelled r.1).map String.ofList), r.2)
  | '-' :: cs => magnitude true cs
  | c :: _ => if c.isDigit then magnitude false cs else word? cs
  | [] => none

def mark? : Char → Option Token
  | '{' => some .openBrace
  | '}' => some .closeBrace
  | '[' => some .openBracket
  | ']' => some .closeBracket
  | ':' => some .colon
  | ',' => some .comma
  | _ => none

def tokens (fuel : Nat) (cs : List Char) : Option (List Token) :=
  match fuel, cs with
  | _, [] => some []
  | 0, _ => none
  | fuel + 1, c :: cs =>
    if c == ' ' || c == '\t' || c == '\n' || c == '\r' then tokens fuel cs
    else
      match mark? c with
      | some m => (m :: ·) <$> tokens fuel cs
      | none =>
        match scalar? (c :: cs) with
        | some (v, rest) => (.scalar v :: ·) <$> tokens fuel rest
        | none => none

end VideoRemap.Json

import VideoRemap.Expr.Token

/-!
Splitting expression text into tokens. A number is a maximal run of digits, with a point and a
second run if a point follows; every other token is one character. Blanks separate.
-/

namespace VideoRemap

def isBlank (c : Char) : Bool :=
  c == ' ' || c == '\t' || c == '\n' || c == '\x0c' || c == '\r'

def byteCount : List Char → Nat
  | [] => 0
  | c :: cs => c.utf8Size + byteCount cs

structure Digits where
  whole : List Char
  places : Option (List Char)
  rest : List Char

def Digits.before (whole : List Char) : List Char → Digits
  | '.' :: rest => ⟨whole, some (rest.takeWhile Char.isDigit), rest.dropWhile Char.isDigit⟩
  | rest => ⟨whole, none, rest⟩

def Digits.ofFront (cs : List Char) : Digits :=
  .before (cs.takeWhile Char.isDigit) (cs.dropWhile Char.isDigit)

def Digits.spelling (d : Digits) : List Char :=
  match d.places with
  | none => d.whole
  | some places => d.whole ++ '.' :: places

/-- With a point, the nearest single-precision number; without, an integer below `2 ^ 31`. -/
def Digits.literal? (d : Digits) : Option Literal :=
  match d.places with
  | some places =>
    some (.decimal (Float32.ofScientific (Nat.ofDigitChars 10 (d.whole ++ places) 0) true
      places.length))
  | none =>
    let n := Nat.ofDigitChars 10 d.whole 0
    if n < 0x80000000 then some (.int (Int32.ofNat n)) else none

theorem Digits.spelling_before (whole cs : List Char) :
    (before whole cs).spelling ++ (before whole cs).rest = whole ++ cs := by
  unfold before
  split <;> simp [spelling, List.takeWhile_append_dropWhile]

theorem Digits.spelling_ofFront (cs : List Char) :
    (ofFront cs).spelling ++ (ofFront cs).rest = cs := by
  rw [ofFront, spelling_before, List.takeWhile_append_dropWhile]

theorem Digits.rest_length_lt {c : Char} {cs : List Char} (h : c.isDigit = true) :
    (ofFront (c :: cs)).rest.length < (c :: cs).length := by
  have e := congrArg List.length (spelling_ofFront (c :: cs))
  have : 0 < (ofFront (c :: cs)).spelling.length := by
    unfold ofFront before
    split <;> simp [spelling, h]
  rw [List.length_append] at e
  omega

def lexFrom (pos : Nat) (cs : List Char) : Except ExprError (List Token) :=
  match cs with
  | [] => .ok []
  | c :: cs =>
    if isBlank c then lexFrom (pos + 1) cs
    else if c.isDigit then
      let d := Digits.ofFront (c :: cs)
      let stop := pos + d.spelling.length
      match d.literal? with
      | none => .error ⟨pos, .integerOutOfRange⟩
      | some v => (⟨.number v, pos, stop⟩ :: ·) <$> lexFrom stop d.rest
    else if c.isAlpha then (⟨.letter c, pos, pos + 1⟩ :: ·) <$> lexFrom (pos + 1) cs
    else
      match Mark.ofChar? c with
      | some m => (⟨.mark m, pos, pos + 1⟩ :: ·) <$> lexFrom (pos + 1) cs
      | none => .error ⟨pos, .unexpectedCharacter c⟩
termination_by cs.length
decreasing_by
  all_goals first | exact Digits.rest_length_lt ‹_› | simp

def lex (text : List Char) : Except ExprError (List Token) := lexFrom 0 text

end VideoRemap

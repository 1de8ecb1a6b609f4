import VideoRemap.Frame

/-!
Uncompressed bitmap files: a header of two parts, then the rows from the bottom up, each filled to a
multiple of four bytes. A pixel is blue, green and red.
-/

namespace VideoRemap.Bitmap

def littleEndian : Nat → Nat → List UInt8
  | 0, _ => []
  | k + 1, n => n.toUInt8 :: littleEndian k (n / 256)

def stride (n : Nat) : Nat := (n + 3) / 4 * 4

def headerBytes : Nat := 54

def row (f : Frame) (y : Nat) : List UInt8 :=
  let pixels := (List.range f.width).flatMap fun x =>
    match f.pixel? x y with
    | some p => [p.b, p.g, p.r]
    | none => [0, 0, 0]
  pixels ++ List.replicate (stride (3 * f.width) - 3 * f.width) 0

def encode (f : Frame) : List UInt8 :=
  let size := stride (3 * f.width) * f.height
  [0x42, 0x4D] ++ littleEndian 4 (headerBytes + size) ++ littleEndian 4 0 ++
    littleEndian 4 headerBytes ++ littleEndian 4 40 ++ littleEndian 4 f.width ++
    littleEndian 4 f.height ++ littleEndian 2 1 ++ littleEndian 2 24 ++ littleEndian 4 0 ++
    littleEndian 4 size ++ littleEndian 16 0 ++ (List.range f.height).reverse.flatMap (row f)

def number? (bytes : Array UInt8) (i : Nat) : Nat → Option Nat
  | 0 => some 0
  | k + 1 => do return (← bytes[i]?).toNat + 256 * (← number? bytes (i + 1) k)

def pixelAt? (bytes : Array UInt8) (i : Nat) : Option Rgb := do
  return ⟨← bytes[i + 2]?, ← bytes[i + 1]?, ← bytes[i]?⟩

def decode? (bytes : Array UInt8) : Option Frame := do
  let start ← number? bytes 10 4
  let width ← number? bytes 18 4
  let signed ← number? bytes 22 4
  let depth ← number? bytes 28 2
  let compression ← number? bytes 30 4
  let fromTop := 0x80000000 ≤ signed
  let height := if fromTop then UInt32.size - signed else signed
  if (← number? bytes 0 2) ≠ 0x4D42 ∨ UInt16.size ≤ width ∨ UInt16.size ≤ height ∨ compression ≠ 0 ∨
      ¬ (depth = 24 ∨ depth = 32) then none
  else
    let rowBytes := stride (width * (depth / 8))
    let pixels ← (List.range height).mapM fun y =>
      let line := if fromTop then y else height - 1 - y
      (List.range width).mapM fun x => pixelAt? bytes (start + line * rowBytes + x * (depth / 8))
    return .ofPixels width height pixels.flatten

end VideoRemap.Bitmap

import VideoRemap.Proofs.Number.Double
import VideoRemap.Proofs.Number.Rational

namespace VideoRemap.Number

open Float.Model Float.Model.UnpackedFloat

lemma le_iff_compare (a b : Float) : a ≤ b ↔
    a.toModel.unpack.compare b.toModel.unpack = some .lt ∨
      a.toModel.unpack.compare b.toModel.unpack = some .eq := by
  change decide (a.toModel ≤ b.toModel) = true ↔ _
  rw [decide_eq_true_iff]
  change (a.toModel.unpack.compare b.toModel.unpack).any (·.isLE) = true ↔ _
  cases a.toModel.unpack.compare b.toModel.unpack with
  | none => simp
  | some o => cases o <;> simp

lemma le_of_lt {a b : Float} (h : a < b) : a ≤ b :=
  (le_iff_compare a b).mpr (Or.inl ((lt_iff_compare a b).mp h))

lemma Holds.of_finite {s : Sign} {m : Nat} {e : Int} {hm : 0 < m} {z : Int} (h : Holds (.finite s m e hm) z) :
    ∃ n, 0 < n ∧ n < 2 ^ 53 ∧ m = mantissa n ∧ e = -(52 - n.log2 : Nat) ∧ z = s.apply n := by
  cases h with
  | @finite _ n hpos hlt _ => exact ⟨n, hpos, hlt, rfl, rfl, rfl⟩

def IsInt (x : Float) (z : Int) : Prop := Holds x.toModel.unpack z

namespace IsInt

variable {x y : Float} {a b : Int}

lemma ofInt {z : Int} (h : z.natAbs < 2 ^ 53) : IsInt (Float.ofInt z) z := holds_ofInt h

lemma add (hx : IsInt x a) (hy : IsInt y b) (h : (a + b).natAbs < 2 ^ 53) : IsInt (x + y) (a + b) :=
  (Holds.add hx hy h).unpack_pack

lemma mul (hx : IsInt x a) (hy : IsInt y b) (h : (a * b).natAbs < 2 ^ 53) : IsInt (x * y) (a * b) :=
  (Holds.mul hx hy h).unpack_pack

lemma neg (hx : IsInt x a) : IsInt (-x) (-a) := (Holds.neg hx).unpack_pack

lemma lt_iff (hx : IsInt x a) (hy : IsInt y b) : x < y ↔ a < b := by
  rw [lt_iff_compare, compare_of_holds hx hy, Option.some.injEq, Int.compare_eq_lt]

lemma le_iff (hx : IsInt x a) (hy : IsInt y b) : x ≤ y ↔ a ≤ b := by
  rw [le_iff_compare, compare_of_holds hx hy, Option.some.injEq, Option.some.injEq, Int.compare_eq_lt,
    Int.compare_eq_eq]
  omega

lemma isNaN (hx : IsInt x a) : x.isNaN = false := by
  have hholds : Holds x.toModel.unpack a := hx
  change x.toModel.unpack.isNaN = false
  generalize x.toModel.unpack = u at hholds
  cases hholds with
  | zero s => rfl
  | finite s hpos hlt hm => rfl

lemma truncate (hx : IsInt x a) : IsInt (truncate x) a := by
  have hholds : Holds (UnpackedFloat.unpack Format.binary64 x.toBits.toBitVec) a := hx
  rcases truncate_cases x with ⟨hsmall, hzero⟩ | ⟨-, hsame⟩ | ⟨k, hm, hpos, hle, hbiased, hcleared⟩
  · -- Below one only zero is whole.
    have ha : a = 0 := by
      rcases Nat.eq_zero_or_pos (biased x.toBits) with htiny | hpos
      · rcases unpack_tiny htiny with ⟨-, hx⟩ | ⟨hm, hx⟩
        · rw [hx] at hholds
          cases hholds with
          | zero s => rfl
        · rw [hx] at hholds
          obtain ⟨n, -, -, -, hexponent, -⟩ := hholds.of_finite
          omega
      · obtain ⟨hm, hx⟩ := unpack_normal hpos (by omega)
        rw [hx] at hholds
        obtain ⟨n, -, -, -, hexponent, -⟩ := hholds.of_finite
        omega
    rw [IsInt, hzero, ha]
    exact .zero _
  · rw [hsame]
    exact hx
  · obtain ⟨hm', hx⟩ := unpack_normal (w := x.toBits) (by omega) (by omega)
    rw [hx] at hholds
    obtain ⟨n, hpos', hlt, hmantissa, hexponent, rfl⟩ := hholds.of_finite
    obtain rfl : k = 52 - n.log2 := by omega
    have hsignificand : significand x.toBits / 2 ^ (52 - n.log2) * 2 ^ (52 - n.log2) = mantissa n := by
      rw [significand, if_neg (by omega), hmantissa, mantissa, Nat.mul_div_cancel _ (Nat.two_pow_pos _)]
    simp only [IsInt, hcleared, hsignificand]
    exact .finite _ hpos' hlt _

lemma floor (hx : IsInt x a) : IsInt (floor x) a := by
  have htruncate := hx.truncate
  have hle := (htruncate.le_iff hx).mpr (Int.le_refl a)
  rw [Number.floor]
  simp only [if_pos hle]
  exact htruncate

lemma ceil (hx : IsInt x a) : IsInt (ceil x) a := by
  have htruncate := hx.truncate
  have hle := (hx.le_iff htruncate).mpr (Int.le_refl a)
  rw [Number.ceil]
  simp only [if_pos hle]
  exact htruncate

lemma indexUpTo (hx : IsInt x a) {last : Nat} (h : last < 2 ^ 53) :
    indexUpTo last x = min a.toNat last := by
  have hholds : Holds x.toModel.unpack a := hx
  rw [indexUpTo_eq_min x h]
  generalize x.toModel.unpack = u at hholds
  cases hholds with
  | zero s => rfl
  | @finite s n hpos hlt hm =>
    cases s with
    | positive => exact congrArg (min · last) (wholePart_mantissa n)
    | negative =>
      have hneg := negative_apply_neg hpos
      rw [Int.toNat_of_nonpos (Int.le_of_lt hneg)]
      rfl

end IsInt

end VideoRemap.Number

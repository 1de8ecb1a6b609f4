import Mathlib
import VideoRemap.Number.Rounding

/-!
Doubles that hold whole numbers. A natural number below `2 ^ 53` is held exactly, as a mantissa of
53 bits and an exponent. What is proved elsewhere of the bits of a double comes only with the whole library.
-/

namespace VideoRemap.Number

open Float.Model Float.Model.UnpackedFloat

lemma shiftRight_exact (m j : Nat) :
    (ExtendedMantissa.mk (m * 2 ^ j) false false) >>> j = ⟨m, false, false⟩ := by
  induction j generalizing m with
  | zero => simp [HShiftRight.hShiftRight, Nat.repeat]
  | succ j ih =>
    change ExtendedMantissa.shiftRightOne (ExtendedMantissa.mk (m * 2 ^ (j + 1)) false false >>> j) = _
    rw [show m * 2 ^ (j + 1) = m * 2 * 2 ^ j by rw [Nat.pow_succ, Nat.mul_assoc, Nat.mul_comm 2], ih]
    simp [ExtendedMantissa.shiftRightOne]

def Normal (m : Nat) : Prop := 2 ^ 52 ≤ m ∧ m < 2 ^ 53

lemma Normal.log2_mul {m : Nat} (h : Normal m) (j : Nat) : (m * 2 ^ j).log2 = 52 + j := by
  have hpos := Nat.two_pow_pos j
  have hne : m * 2 ^ j ≠ 0 := Nat.mul_ne_zero (by have := h.1; omega) (by omega)
  have hlow : 52 + j ≤ (m * 2 ^ j).log2 :=
    (Nat.le_log2 hne).mpr (by rw [Nat.pow_add]; exact Nat.mul_le_mul_right _ h.1)
  have hhigh : (m * 2 ^ j).log2 < 53 + j :=
    (Nat.log2_lt hne).mpr (by rw [Nat.pow_add]; exact Nat.mul_lt_mul_of_pos_right h.2 hpos)
  omega

lemma shiftToTargetExponent_exact {m : Nat} (h : Normal m) {e : Int} (he : -1074 ≤ e) (j : Nat) :
    shiftToTargetExponent Format.binary64 (m * 2 ^ j) (e - j) .exact = (⟨m, false, false⟩, e) := by
  have ht : Format.binary64.targetExponent (totalExponent (m * 2 ^ j) (e - j)) = e := by
    simp only [Format.targetExponent, totalExponent, h.log2_mul, Format.mantissaBits,
      Format.minExponent]
    omega
  simp only [shiftToTargetExponent, ht, shiftToExponent, ExtendedMantissa.ofMantissaAndAccuracy]
  rw [show (e - (e - j)).toNat = j by omega, shiftRight_exact]
  congr 1
  omega

lemma roundWithAccuracy_exact {m : Nat} (h : Normal m) {e : Int} (he : -1074 ≤ e) (s : Sign) (j : Nat) :
    ∃ hm, roundWithAccuracy Format.binary64 s (m * 2 ^ j) (e - j) .exact = .finite s m e hm := by
  have hm : m ≠ 0 := by have := h.1; omega
  have hagain := shiftToTargetExponent_exact h he 0
  simp only [Nat.pow_zero, Nat.mul_one, Int.cast_ofNat_Int, Int.sub_zero] at hagain
  refine ⟨Nat.pos_of_ne_zero hm, ?_⟩
  simp only [roundWithAccuracy, shiftToTargetExponent_exact h he, ExtendedMantissa.roundedMantissa,
    ExtendedMantissa.accuracy, Accuracy.roundToNearestEven, hagain, hm, dite_false]

lemma unpack_pack {m : Nat} (h : Normal m) {e : Int} (he : -1074 ≤ e) (he' : e ≤ 971)
    (s : Sign) (hm : 0 < m) : (Float.Model.pack (.finite s m e hm)).unpack = .finite s m e hm := by
  obtain ⟨b, rfl⟩ : ∃ b : Nat, e = b - 1075 := ⟨(e + 1075).toNat, by omega⟩
  have hb : (BitVec.ofNat 11 b).toNat = b := by
    rw [BitVec.toNat_ofNat, Nat.mod_eq_of_lt (by omega)]
  have hzero : BitVec.ofNat 11 b ≠ 0#11 := fun heq => by
    have := congrArg BitVec.toNat heq
    simp only [hb, BitVec.toNat_zero] at this
    omega
  have hones : BitVec.ofNat 11 b ≠ -1#11 := fun heq => by
    have := congrArg BitVec.toNat heq
    simp only [hb] at this
    simp at this
    omega
  have hmantissa : (1#1 ++ BitVec.ofNat 52 m).toNat = m := by
    rw [BitVec.toNat_append, ← Nat.shiftLeft_add_eq_or_of_lt (BitVec.isLt _), BitVec.toNat_ofNat]
    have := h.1
    have := h.2
    simp
    omega
  have hlog : m.log2 = 52 := by simpa using h.log2_mul 0
  have hbiased : ((b : Int) - 1075 + (Format.binary64.exponentBias : Nat) +
      (Format.binary64.mantissaBitsWithoutImplicit : Nat)).toNat = b := by
    simp only [Format.exponentBias]
    omega
  have hsmall : ¬ 2 ^ Format.binary64.exponentBits ≤ b + 1 := by simp only; omega
  unfold Float.Model.unpack Float.Model.pack
  simp only [UnpackedFloat.pack, hbiased, hsmall, if_false, hlog, Format.mantissaBits, if_true]
  simp only [UnpackedFloat.unpack, unpackSign_packComponents, unpackExponent_packComponents,
    unpackMantissa_packComponents, hones, hzero, if_false, hmantissa, hb]
  simp only [Format.exponentBias]
  cases s <;> congr 1

def mantissa (n : Nat) : Nat := n * 2 ^ (52 - n.log2)

lemma normal_mantissa {n : Nat} (hpos : 0 < n) (hlt : n < 2 ^ 53) : Normal (mantissa n) := by
  have hlog : n.log2 < 53 := (Nat.log2_lt (by omega)).mpr hlt
  have hlow := Nat.log2_self_le (n := n) (by omega)
  have hhigh := Nat.lt_log2_self (n := n)
  have hp := Nat.two_pow_pos (52 - n.log2)
  refine ⟨?_, ?_⟩
  · calc 2 ^ 52 = 2 ^ n.log2 * 2 ^ (52 - n.log2) := by rw [← Nat.pow_add]; congr 1; omega
      _ ≤ mantissa n := Nat.mul_le_mul_right _ hlow
  · calc mantissa n < 2 ^ (n.log2 + 1) * 2 ^ (52 - n.log2) := Nat.mul_lt_mul_of_pos_right hhigh hp
      _ = 2 ^ 53 := by rw [← Nat.pow_add]; congr 1; omega

lemma unpack_ofUInt64 {n : Nat} (hpos : 0 < n) (hlt : n < 2 ^ 53) : ∃ hm,
    (Float.Model.ofUInt64 n.toUInt64).unpack =
      .finite .positive (mantissa n) (-(52 - n.log2 : Nat)) hm := by
  have hlog : n.log2 < 53 := (Nat.log2_lt (by omega)).mpr hlt
  have hnormal := normal_mantissa hpos hlt
  have htoNat : n.toUInt64.toNat = n := by
    simp only [Nat.toUInt64_eq, UInt64.toNat_ofNat']
    omega
  have htarget : Format.binary64.targetExponent (totalExponent n 0) = -(52 - n.log2 : Nat) := by
    simp only [Format.targetExponent, totalExponent, Format.mantissaBits, Format.minExponent]
    omega
  obtain ⟨hm, hround⟩ := roundWithAccuracy_exact hnormal (e := -(52 - n.log2 : Nat)) (by omega) .positive 0
  refine ⟨hm, ?_⟩
  simp only [Nat.pow_zero, Nat.mul_one, Int.cast_ofNat_Int, Int.sub_zero] at hround
  have hcompare : compare (n : Int) 0 = .gt := by
    rw [Int.compare_eq_gt]
    omega
  have hof : UnpackedFloat.ofUInt64 Format.binary64 n.toUInt64 =
      .finite .positive (mantissa n) (-(52 - n.log2 : Nat)) hm := by
    simp only [UnpackedFloat.ofUInt64, UnpackedFloat.ofNat, UnpackedFloat.ofInt,
      Float.Model.UnpackedFloat.normalize, htoNat, hcompare, Float.Model.UnpackedFloat.round,
      Int.toNat_natCast, htarget, decreaseExponent]
    rw [← hround, mantissa, ← Nat.shiftLeft_eq]
    congr 2 <;> omega
  rw [Float.Model.ofUInt64, hof]
  exact unpack_pack hnormal (by omega) (by omega) .positive hm

lemma unpack_ofNat {n : Nat} (hpos : 0 < n) (hlt : n < 2 ^ 53) : ∃ hm,
    (Float.ofNat n).toModel.unpack = .finite .positive (mantissa n) (-(52 - n.log2 : Nat)) hm := by
  obtain ⟨hm, hn⟩ := unpack_ofUInt64 hpos hlt
  have hnormal := normal_mantissa hpos hlt
  have hone : (Float.ofBits 0x3FF0000000000000).toModel.unpack =
      .finite .positive (2 ^ 52) (-52) (by decide) := by rfl
  obtain ⟨hm', hround⟩ :=
    roundWithAccuracy_exact hnormal (e := -(52 - n.log2 : Nat)) (by omega) .positive 52
  have hmul : (Float.ofNat n).toModel = Float.Model.mul (Float.Model.ofUInt64 n.toUInt64)
      (Float.ofBits 0x3FF0000000000000).toModel := by
    unfold Float.ofNat
    simp only [OfScientific.ofScientific, Float.ofScientific, hlt, true_and, Nat.zero_le, dif_pos]
    rfl
  refine ⟨hm, ?_⟩
  rw [hmul, Float.Model.mul, hn, hone]
  change (Float.Model.pack (roundWithAccuracy Format.binary64 .positive (mantissa n * 2 ^ 52)
    (-(52 - n.log2 : Nat) - (52 : Nat)) .exact)).unpack = _
  rw [hround]
  exact unpack_pack hnormal (by omega) (by omega) .positive hm

end VideoRemap.Number

import VideoRemap.Proofs.Number.Whole

namespace VideoRemap.Number

open Float.Model Float.Model.UnpackedFloat

variable (w : UInt64)

def biased : Nat := w.toNat / 2 ^ 52 % 2 ^ 11

def stored : Nat := w.toNat % 2 ^ 52

def sign : Sign := .ofBitVec (@unpackSign Format.binary64 w.toBitVec)

def significand : Nat := if biased w = 0 then stored w else 2 ^ 52 + stored w

lemma toNat_unpackExponent : (@unpackExponent Format.binary64 w.toBitVec).toNat = biased w := by
  simp [unpackExponent, biased, Nat.shiftRight_eq_div_pow]

lemma toNat_unpackMantissa : (@unpackMantissa Format.binary64 w.toBitVec).toNat = stored w := by
  simp [unpackMantissa, stored]

variable {w}

lemma biased_lt : biased w < 2 ^ 11 := Nat.mod_lt _ (by decide)

lemma stored_lt : stored w < 2 ^ 52 := Nat.mod_lt _ (by decide)

lemma significand_lt : significand w < 2 ^ 53 := by
  have hstored := stored_lt (w := w)
  unfold significand
  split <;> omega

lemma unpackExponent_eq_iff (b : BitVec 11) :
    @unpackExponent Format.binary64 w.toBitVec = b ↔ biased w = b.toNat := by
  rw [← toNat_unpackExponent]
  exact BitVec.toNat_inj.symm

lemma unpackMantissa_eq_iff (b : BitVec 52) :
    @unpackMantissa Format.binary64 w.toBitVec = b ↔ stored w = b.toNat := by
  rw [← toNat_unpackMantissa]
  exact BitVec.toNat_inj.symm

lemma unpack_normal (hlow : 0 < biased w) (hhigh : biased w < 2047) :
    ∃ hm, UnpackedFloat.unpack Format.binary64 w.toBitVec =
      .finite (sign w) (2 ^ 52 + stored w) (biased w - 1075) hm := by
  have hones := mt (unpackExponent_eq_iff (w := w) (-1#11)).mp (Nat.ne_of_lt hhigh)
  have hzero := mt (unpackExponent_eq_iff (w := w) 0#11).mp (Nat.ne_of_gt hlow)
  have hmantissa (b : BitVec 52) : (1#1 ++ b).toNat = 2 ^ 52 + b.toNat := by
    rw [BitVec.toNat_append, ← Nat.shiftLeft_add_eq_or_of_lt b.isLt]
    rfl
  refine ⟨by omega, ?_⟩
  unfold UnpackedFloat.unpack
  simp only [if_neg hones, if_neg hzero, hmantissa, toNat_unpackMantissa, toNat_unpackExponent]
  rfl

lemma unpack_tiny (h : biased w = 0) :
    stored w = 0 ∧ UnpackedFloat.unpack Format.binary64 w.toBitVec = .zero (sign w) ∨
    ∃ hm, UnpackedFloat.unpack Format.binary64 w.toBitVec = .finite (sign w) (stored w) (-1074) hm := by
  have hones := mt (unpackExponent_eq_iff (w := w) (-1#11)).mp (by rw [h]; decide)
  have hzero := (unpackExponent_eq_iff (w := w) 0#11).mpr h
  unfold UnpackedFloat.unpack
  simp only [if_neg hones, if_pos hzero]
  split
  case isTrue hstored => exact Or.inl ⟨(unpackMantissa_eq_iff 0#52).mp hstored, rfl⟩
  case isFalse hstored =>
    have hpos : 0 < stored w := Nat.pos_of_ne_zero (mt (unpackMantissa_eq_iff (w := w) 0#52).mpr hstored)
    refine Or.inr ⟨hpos, ?_⟩
    congr 1
    rw [hzero]
    rfl

lemma unpack_special (h : biased w = 2047) :
    UnpackedFloat.unpack Format.binary64 w.toBitVec = .infinity (sign w) ∨
      UnpackedFloat.unpack Format.binary64 w.toBitVec = .notANumber := by
  have hones := (unpackExponent_eq_iff (w := w) (-1#11)).mpr h
  unfold UnpackedFloat.unpack
  simp only [if_pos hones]
  split
  · exact Or.inl rfl
  · exact Or.inr rfl

lemma toNat_cleared {n : UInt64} (hn : n.toNat < 52) :
    (w &&& ~~~((0xFFFFFFFFFFFFF : UInt64) >>> n)).toNat =
      w.toNat / 2 ^ (52 - n.toNat) * 2 ^ (52 - n.toNat) := by
  have hones : (0xFFFFFFFFFFFFF : UInt64).toNat = 2 ^ 52 - 1 := rfl
  have hmask : ((0xFFFFFFFFFFFFF : UInt64) >>> n).toNat = (2 ^ 52 - 1) >>> n.toNat := by
    rw [UInt64.toNat_shiftRight, hones, Nat.mod_eq_of_lt (by omega)]
  rw [← Nat.shiftRight_eq_div_pow, ← Nat.shiftLeft_eq]
  refine Nat.eq_of_testBit_eq fun i => ?_
  have hlt : (2 ^ 52 - 1) >>> n.toNat < 2 ^ 64 :=
    Nat.lt_of_le_of_lt (Nat.shiftRight_le _ _) (by decide)
  have hword : w.toNat.testBit i = true → i < 64 := fun h =>
    Nat.lt_of_not_le fun hle => by simp [Nat.testBit_lt_two_pow
      (Nat.lt_of_lt_of_le w.toNat_lt (Nat.pow_le_pow_right (by decide) hle))] at h
  rw [UInt64.toNat_and, UInt64.toNat_not, hmask, Nat.testBit_and,
    show UInt64.size - 1 - (2 ^ 52 - 1) >>> n.toNat = 2 ^ 64 - ((2 ^ 52 - 1) >>> n.toNat + 1) by
      rw [UInt64.size]; omega,
    Nat.testBit_two_pow_sub_succ hlt, Nat.testBit_shiftRight, Nat.testBit_two_pow_sub_one,
    Nat.testBit_shiftLeft, Nat.testBit_shiftRight]
  rw [Bool.eq_iff_iff]
  simp only [Bool.and_eq_true, decide_eq_true_eq, Bool.not_eq_true', decide_eq_false_iff_not]
  constructor
  · rintro ⟨hbit, -, hi⟩
    exact ⟨by omega, by rwa [Nat.add_sub_cancel' (by omega)]⟩
  · rintro ⟨hi, hbit⟩
    rw [Nat.add_sub_cancel' (by omega)] at hbit
    exact ⟨hbit, hword hbit, by omega⟩

lemma toNat_biased : ((w >>> 52) &&& 0x7FF).toNat = biased w := by
  rw [UInt64.toNat_and, UInt64.toNat_shiftRight, biased, Nat.shiftRight_eq_div_pow]
  exact Nat.and_two_pow_sub_one_eq_mod _ 11

lemma toNat_sign_bit : (w &&& 0x8000000000000000).toNat = w.toNat / 2 ^ 63 * 2 ^ 63 := by
  rw [UInt64.toNat_and, show (0x8000000000000000 : UInt64).toNat = 2 ^ 63 from rfl, Nat.and_two_pow,
    Nat.toNat_testBit, Nat.mod_eq_of_lt]
  exact Nat.div_lt_of_lt_mul w.toNat_lt

lemma sign_congr {w' : UInt64} (h : w'.toNat / 2 ^ 63 = w.toNat / 2 ^ 63) : sign w' = sign w := by
  have hbit (w : UInt64) : @unpackSign Format.binary64 w.toBitVec =
      BitVec.ofNat 1 (w.toNat / 2 ^ 63) := by
    simp [unpackSign, BitVec.toNat_eq, Nat.shiftRight_eq_div_pow]
  rw [sign, sign, hbit, hbit, h]

section

variable {w' : UInt64} {k : Nat} (h : w'.toNat = w.toNat / 2 ^ k * 2 ^ k)

include h

lemma div_of_cleared {j : Nat} (hj : k ≤ j) : w'.toNat / 2 ^ j = w.toNat / 2 ^ j := by
  obtain ⟨i, rfl⟩ := Nat.exists_eq_add_of_le' hj
  rw [h, Nat.pow_add, Nat.mul_div_mul_right _ _ (Nat.two_pow_pos k), Nat.div_div_eq_div_mul, Nat.mul_comm]

lemma biased_of_cleared (hk : k ≤ 52) : biased w' = biased w := by
  rw [biased, biased, div_of_cleared h hk]

lemma stored_of_cleared (hk : k ≤ 52) : stored w' = stored w / 2 ^ k * 2 ^ k := by
  obtain ⟨i, hi⟩ := Nat.exists_eq_add_of_le' hk
  rw [stored, stored, h, hi, Nat.pow_add, Nat.mul_mod_mul_right, Nat.mul_comm (2 ^ i),
    Nat.mod_mul_right_div_self]

end

lemma unpack_ofBits (hlow : 0 < biased w) (hhigh : biased w < 2047) : ∃ hm,
    (Float.ofBits w).toModel.unpack = .finite (sign w) (2 ^ 52 + stored w) (biased w - 1075) hm := by
  obtain ⟨hm, hw⟩ := unpack_normal hlow hhigh
  have hstored := stored_lt (w := w)
  refine ⟨hm, ?_⟩
  change (Float.Model.pack (UnpackedFloat.unpack Format.binary64 w.toBitVec)).unpack = _
  rw [hw]
  exact unpack_pack ⟨by omega, by omega⟩ (by omega) (by omega) _ hm

lemma unpack_ofBits_sign_bit (w : UInt64) :
    (Float.ofBits (w &&& 0x8000000000000000)).toModel.unpack = .zero (sign w) := by
  have hcleared := toNat_sign_bit (w := w)
  generalize w &&& 0x8000000000000000 = w' at hcleared ⊢
  have hbiased : biased w' = 0 := by
    rw [biased, hcleared]
    omega
  have hstored : stored w' = 0 := by
    rw [stored, hcleared]
    omega
  change (Float.Model.pack (UnpackedFloat.unpack Format.binary64 w'.toBitVec)).unpack = _
  rcases unpack_tiny hbiased with ⟨-, hw'⟩ | ⟨hm, -⟩
  · rw [hw', sign_congr (div_of_cleared hcleared (Nat.le_refl 63))]
    cases sign w <;> rfl
  · omega

lemma unpack_ofBits_cleared {w' : UInt64} {k : Nat} (hcleared : w'.toNat = w.toNat / 2 ^ k * 2 ^ k)
    (hpos : 1 ≤ k) (hle : k ≤ 52) (hk : biased w = 1075 - k) : ∃ hm, (Float.ofBits w').toModel.unpack =
      .finite (sign w) (significand w / 2 ^ k * 2 ^ k) (-(k : Int)) hm := by
  have hbiased := biased_of_cleared hcleared hle
  have hsignificand : 2 ^ 52 + stored w' = significand w / 2 ^ k * 2 ^ k := by
    obtain ⟨i, hi⟩ := Nat.exists_eq_add_of_le' hle
    rw [significand, if_neg (by omega), stored_of_cleared hcleared hle, hi, Nat.pow_add,
      Nat.mul_comm (2 ^ i), Nat.mul_add_div (Nat.two_pow_pos k), Nat.add_mul, Nat.mul_comm (2 ^ i)]
  obtain ⟨hm, hunpack⟩ := unpack_ofBits (w := w') (by omega) (by omega)
  rw [hbiased, sign_congr (div_of_cleared hcleared (by omega))] at hunpack
  refine ⟨hsignificand ▸ hm, ?_⟩
  rw [hunpack]
  congr 1
  omega

end VideoRemap.Number

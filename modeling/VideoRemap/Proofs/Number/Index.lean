import VideoRemap.Proofs.Number.Bits
import VideoRemap.Proofs.Scalar

namespace VideoRemap.Number

open Float.Model Float.Model.UnpackedFloat

lemma shiftRight_mantissa (em : ExtendedMantissa) (j : Nat) :
    (em >>> j).mantissa = em.mantissa / 2 ^ j := by
  induction j with
  | zero => simp [HShiftRight.hShiftRight, Nat.repeat]
  | succ j ih =>
    change (em >>> j).mantissa / 2 = _
    rw [ih, Nat.div_div_eq_div_mul, Nat.pow_succ]

def wholePart (m : Nat) (e : Int) : Nat := m * 2 ^ e.toNat / 2 ^ (-e).toNat

lemma roundToInt_positive (m : Nat) (e : Int) : roundToInt .positive m e = wholePart m e := by
  simp only [roundToInt, decreaseExponent, shiftToExponent, ExtendedMantissa.ofMantissaAndAccuracy,
    shiftRight_mantissa, Sign.apply, Nat.shiftLeft_eq, Int.sub_zero, wholePart]
  congr 3
  omega

lemma wholePart_mantissa (n : Nat) : wholePart (mantissa n) (-(52 - n.log2 : Nat)) = n := by
  have hpos := Nat.two_pow_pos (52 - n.log2)
  rw [wholePart, mantissa, show (-(52 - n.log2 : Nat) : Int).toNat = 0 by omega,
    show (- -(52 - n.log2 : Nat) : Int).toNat = 52 - n.log2 by omega, Nat.pow_zero, Nat.mul_one,
    Nat.mul_div_cancel _ hpos]

lemma pow_log2_le {n : Nat} (hpos : 0 < n) (hlt : n < 2 ^ 53) :
    2 ^ (52 - (52 - n.log2)) ≤ n ∧ n < 2 ^ (53 - (52 - n.log2)) := by
  have hlog : n.log2 < 53 := (Nat.log2_lt (by omega)).mpr hlt
  rw [show 52 - (52 - n.log2) = n.log2 by omega, show 53 - (52 - n.log2) = n.log2 + 1 by omega]
  exact ⟨Nat.log2_self_le (by omega), Nat.lt_log2_self⟩

lemma wholePart_le {n m : Nat} {e : Int} (hpos : 0 < n) (hlt : n < 2 ^ 53) (hm : m < 2 ^ 53)
    (h : e < -(52 - n.log2 : Nat) ∨ e = -(52 - n.log2 : Nat) ∧ m ≤ mantissa n) :
    wholePart m e ≤ n := by
  have hlow := (pow_log2_le hpos hlt).1
  unfold mantissa at h
  generalize hk : 52 - n.log2 = k at h hlow
  rw [wholePart, show e.toNat = 0 by omega, Nat.pow_zero, Nat.mul_one]
  apply Nat.div_le_of_le_mul
  rcases h with h | ⟨rfl, hle⟩
  · calc m ≤ 2 ^ 53 := Nat.le_of_lt hm
      _ ≤ 2 ^ ((-e).toNat + (52 - k)) := Nat.pow_le_pow_right (by decide) (by omega)
      _ = 2 ^ (-e).toNat * 2 ^ (52 - k) := Nat.pow_add ..
      _ ≤ 2 ^ (-e).toNat * n := Nat.mul_le_mul_left _ hlow
  · rw [show (- -(k : Int)).toNat = k by omega, Nat.mul_comm]
    exact hle

lemma le_wholePart {n m : Nat} {e : Int} (hpos : 0 < n) (hlt : n < 2 ^ 53)
    (hm : 2 ^ 52 ≤ m ∨ e = -1074)
    (h : -(52 - n.log2 : Nat) < e ∨ e = -(52 - n.log2 : Nat) ∧ mantissa n < m) :
    n ≤ wholePart m e := by
  have hhigh := (pow_log2_le hpos hlt).2
  unfold mantissa at h
  generalize hk : 52 - n.log2 = k at h hhigh
  rw [wholePart, Nat.le_div_iff_mul_le (Nat.two_pow_pos _)]
  rcases h with h | ⟨rfl, hle⟩
  · calc n * 2 ^ (-e).toNat ≤ 2 ^ (53 - k) * 2 ^ (-e).toNat :=
          Nat.mul_le_mul_right _ (Nat.le_of_lt hhigh)
      _ = 2 ^ (53 - k + (-e).toNat) := (Nat.pow_add ..).symm
      _ ≤ 2 ^ (52 + e.toNat) := Nat.pow_le_pow_right (by decide) (by omega)
      _ = 2 ^ 52 * 2 ^ e.toNat := Nat.pow_add ..
      _ ≤ m * 2 ^ e.toNat := Nat.mul_le_mul_right _ (by omega)
  · rw [show (- -(k : Int)).toNat = k by omega, show (-(k : Int)).toNat = 0 by omega, Nat.pow_zero,
      Nat.mul_one]
    exact Nat.le_of_lt hle

lemma unpack_bounds {f : Float.Model} {s : Sign} {m : Nat} {e : Int} {hm : 0 < m}
    (h : f.unpack = .finite s m e hm) : m < 2 ^ 53 ∧ (2 ^ 52 ≤ m ∨ e = -1074) := by
  have hstored := stored_lt (w := f.toBits)
  have hbiased := biased_lt (w := f.toBits)
  rcases Nat.eq_zero_or_pos (biased f.toBits) with htiny | hpos
  · rcases unpack_tiny htiny with ⟨-, hf⟩ | ⟨hm', hf⟩
    · cases hf.symm.trans h
    · cases hf.symm.trans h
      omega
  · rcases Nat.lt_or_ge (biased f.toBits) 2047 with hnormal | hspecial
    · obtain ⟨hm', hf⟩ := unpack_normal hpos hnormal
      cases hf.symm.trans h
      omega
    · rcases unpack_special (show biased f.toBits = 2047 by omega) with hf | hf <;> cases hf.symm.trans h

def wholeIndex : UnpackedFloat → Nat
  | .finite .positive m e _ => wholePart m e
  | .infinity .positive => 2 ^ 53
  | _ => 0

lemma toNat_eq (v : Float) :
    toNat v = min (v.toModel.unpack.toInt 0 (2 ^ 64 - 1)).toNat (2 ^ 64 - 1) := by
  change (UInt64.ofNatClamp (v.toModel.unpack.toInt 0 (2 ^ 64 - 1)).toNat).toNat = _
  unfold UInt64.ofNatClamp
  split
  case isTrue h => exact (Nat.min_eq_left (Nat.le_sub_one_of_lt h)).symm
  case isFalse h =>
    have : UInt64.size = 2 ^ 64 := rfl
    rw [UInt64.toNat_ofNatLT]
    omega

lemma toNat_of_unpack {v : Float} {m : Nat} {e : Int} {hm : 0 < m}
    (h : v.toModel.unpack = .finite .positive m e hm) : toNat v = min (wholePart m e) (2 ^ 64 - 1) := by
  rw [toNat_eq, h, UnpackedFloat.toInt, roundToInt_positive, Int.toNat_natCast]

lemma toNat_ofNat {n : Nat} (hlt : n < 2 ^ 53) : toNat (Float.ofNat n) = n := by
  by_cases hpos : 0 < n
  · obtain ⟨hm, h⟩ := unpack_ofNat hpos hlt
    rw [toNat_of_unpack h, wholePart_mantissa]
    omega
  · obtain rfl : n = 0 := by omega
    rfl

lemma lt_iff_compare (a b : Float) :
    a < b ↔ a.toModel.unpack.compare b.toModel.unpack = some .lt := by
  change decide (a.toModel < b.toModel) = true ↔ _
  rw [decide_eq_true_iff]
  change (a.toModel.unpack.compare b.toModel.unpack == some .lt) = true ↔ _
  rw [beq_iff_eq]

lemma ofNat_lt_iff {n : Nat} (hpos : 0 < n) (hlt : n < 2 ^ 53) {v : Float} {m : Nat} {e : Int} {hm : 0 < m}
    (h : v.toModel.unpack = .finite .positive m e hm) : Float.ofNat n < v ↔
      (-(52 - n.log2 : Nat) < e ∨ e = -(52 - n.log2 : Nat) ∧ mantissa n < m) := by
  obtain ⟨hn, hof⟩ := unpack_ofNat hpos hlt
  rw [lt_iff_compare, h, hof, UnpackedFloat.compare, Option.some.injEq, Ordering.then_eq_lt,
    Int.compare_eq_lt, Int.compare_eq_eq, Nat.compare_eq_lt]
  omega

lemma zero_lt_of_unpack {v : Float} {m : Nat} {e : Int} {hm : 0 < m}
    (h : v.toModel.unpack = .finite .positive m e hm) : Float.ofNat 0 < v := by
  rw [lt_iff_compare, h]
  rfl

lemma lt_of_unpack_infinity {n : Nat} (hn : n < 2 ^ 53) {v : Float}
    (h : v.toModel.unpack = .infinity .positive) : Float.ofNat n < v := by
  rw [lt_iff_compare, h]
  by_cases hpos : 0 < n
  · obtain ⟨hm, hof⟩ := unpack_ofNat hpos hn
    rw [hof]
    rfl
  · obtain rfl : n = 0 := by omega
    rfl

lemma wholeIndex_of_neg {v : Float} (h : v < 0) : wholeIndex v.toModel.unpack = 0 := by
  rw [lt_iff_compare, show (0 : Float).toModel.unpack = .zero .positive from rfl] at h
  cases hv : v.toModel.unpack with
  | notANumber => rfl
  | zero s => rfl
  | infinity s =>
    cases s with
    | negative => rfl
    | positive => exact nomatch hv ▸ h
  | finite s m e hm =>
    cases s with
    | negative => rfl
    | positive => exact nomatch hv ▸ h

lemma le_wholeIndex {v : Float} {n : Nat} (hn : n < 2 ^ 53) (h : Float.ofNat n < v) :
    n ≤ wholeIndex v.toModel.unpack := by
  by_cases hpos : 0 < n
  · obtain ⟨hm, hof⟩ := unpack_ofNat hpos hn
    have hcompare := (lt_iff_compare _ _).mp h
    rw [hof] at hcompare
    cases hv : v.toModel.unpack with
    | notANumber => exact nomatch hv ▸ hcompare
    | zero s => exact nomatch hv ▸ hcompare
    | infinity s =>
      cases s with
      | negative => exact nomatch hv ▸ hcompare
      | positive => exact Nat.le_of_lt hn
    | finite s m e hm =>
      cases s with
      | negative => exact nomatch hv ▸ hcompare
      | positive => exact le_wholePart hpos hn (unpack_bounds hv).2 ((ofNat_lt_iff hpos hn hv).mp h)
  · omega

lemma toNat_of_between {v : Float} {n : Nat} (hn : n < 2 ^ 53) (hlow : ¬ v < 0)
    (hhigh : ¬ Float.ofNat n < v) :
    toNat v = wholeIndex v.toModel.unpack ∧ wholeIndex v.toModel.unpack ≤ n := by
  rw [lt_iff_compare, show (0 : Float).toModel.unpack = .zero .positive from rfl] at hlow
  cases hv : v.toModel.unpack with
  | notANumber =>
    rw [toNat_eq, hv]
    exact ⟨rfl, Nat.zero_le n⟩
  | zero s =>
    rw [toNat_eq, hv]
    exact ⟨rfl, Nat.zero_le n⟩
  | infinity s =>
    cases s with
    | negative => exact absurd (hv ▸ rfl) hlow
    | positive => exact absurd (lt_of_unpack_infinity hn hv) hhigh
  | finite s m e hm =>
    cases s with
    | negative => exact absurd (hv ▸ rfl) hlow
    | positive =>
      have hpos : 0 < n := Nat.pos_of_ne_zero fun h => hhigh (h ▸ zero_lt_of_unpack hv)
      rw [ofNat_lt_iff hpos hn hv] at hhigh
      have hle := wholePart_le hpos hn (unpack_bounds hv).1 (e := e) (by omega)
      rw [toNat_of_unpack hv]
      exact ⟨by simp only [wholeIndex]; omega, hle⟩

theorem indexUpTo_eq_min (v : Float) {last : Nat} (hlast : last < 2 ^ 53) :
    indexUpTo last v = min (wholeIndex v.toModel.unpack) last := by
  simp only [indexUpTo]
  split
  case isTrue hneg =>
    rw [wholeIndex_of_neg hneg, Nat.zero_min]
    rfl
  case isFalse hneg =>
    split
    case isTrue hgt => rw [toNat_ofNat hlast, Nat.min_eq_right (le_wholeIndex hlast hgt)]
    case isFalse hle =>
      obtain ⟨htoNat, hbound⟩ := toNat_of_between hlast hneg hle
      rw [htoNat, Nat.min_eq_left hbound]

end VideoRemap.Number

namespace VideoRemap

instance : LawfulScalar Float32 where
  index_eq_min v := ⟨Number.wholeIndex (Number.floor (Number.widen v)).toModel.unpack,
    fun _ hlast => Number.indexUpTo_eq_min _ (Nat.lt_trans hlast (by decide))⟩

end VideoRemap

import VideoRemap.Proofs.Number.Index

namespace VideoRemap.Number

open Float.Model Float.Model.UnpackedFloat

def rational? (x : Float) : Option ℚ :=
  match x.toModel.unpack with
  | .finite s m e _ => some ((s.apply m : ℤ) * 2 ^ e)
  | .zero _ => some 0
  | _ => none

def towardZero (q : ℚ) : ℤ := if 0 ≤ q then ⌊q⌋ else ⌈q⌉

section Whole

lemma floor_scaled (m : Nat) (e : Int) : ⌊(m : ℚ) * 2 ^ e⌋ = wholePart m e := by
  rcases Int.le_total 0 e with he | he
  · obtain ⟨k, rfl⟩ := Int.eq_ofNat_of_zero_le he
    have hq : (m : ℚ) * 2 ^ (k : ℤ) = ((m * 2 ^ k : ℕ) : ℚ) := by push_cast; rfl
    rw [hq, Int.floor_natCast, wholePart]
    simp
  · obtain ⟨k, hk⟩ := Int.eq_ofNat_of_zero_le (Int.neg_nonneg.mpr he)
    obtain rfl : e = -(k : ℤ) := by omega
    have hq : (m : ℚ) * 2 ^ (-(k : ℤ)) = (m : ℚ) / ((2 ^ k : ℕ) : ℚ) := by
      rw [zpow_neg, zpow_natCast, div_eq_mul_inv]
      push_cast
      rfl
    rw [hq, Rat.floor_natCast_div_natCast, wholePart]
    simp

lemma towardZero_neg (q : ℚ) : towardZero (-q) = -towardZero q := by
  unfold towardZero
  rcases lt_trichotomy q 0 with hq | rfl | hq
  · rw [if_pos (by linarith), if_neg (by linarith), Int.floor_neg]
  · simp
  · rw [if_neg (by linarith), if_pos hq.le, Int.ceil_neg]

lemma towardZero_scaled (s : Sign) (m : Nat) (e : Int) :
    towardZero ((s.apply m : ℤ) * 2 ^ e) = s.apply (wholePart m e) := by
  have hpos : towardZero ((m : ℚ) * 2 ^ e) = wholePart m e := by
    rw [towardZero, if_pos (by positivity), floor_scaled]
  cases s with
  | positive => exact_mod_cast hpos
  | negative =>
    change towardZero ((-(m : ℤ) : ℤ) * 2 ^ e) = -(wholePart m e : ℤ)
    rw [← hpos, ← towardZero_neg]
    push_cast
    rw [neg_mul]

lemma le_towardZero_iff {b : ℤ} (hb : 0 < b) {q : ℚ} : b ≤ towardZero q ↔ (b : ℚ) ≤ q := by
  have hb' : (0 : ℚ) < b := by exact_mod_cast hb
  unfold towardZero
  split
  · exact Int.le_floor
  case isFalse hneg =>
    have hceil : ⌈q⌉ ≤ 0 := Int.ceil_le.mpr (by push_cast; linarith)
    exact ⟨fun h => absurd h (by omega), fun h => absurd h (by linarith)⟩

end Whole

section

variable {x : Float}

lemma rational?_of_finite (h : biased x.toBits < 2047) : rational? x = some
    (((sign x.toBits).apply (significand x.toBits) : ℤ) * (2 : ℚ) ^ (max (biased x.toBits) 1 - 1075 : ℤ)) := by
  have hunpack : x.toModel.unpack = UnpackedFloat.unpack Format.binary64 x.toBits.toBitVec := rfl
  unfold rational? significand
  rw [hunpack]
  rcases Nat.eq_zero_or_pos (biased x.toBits) with hzero | hpos
  · rw [if_pos hzero, hzero]
    rcases unpack_tiny hzero with ⟨hstored, hx⟩ | ⟨hm, hx⟩
    · rw [hx, hstored]
      cases sign x.toBits <;> simp [Sign.apply]
    · rw [hx]
      rfl
  · obtain ⟨hm, hx⟩ := unpack_normal hpos h
    rw [if_neg hpos.ne', hx, max_eq_left (by omega)]

lemma rational?_of_special (h : biased x.toBits = 2047) : rational? x = none := by
  have hunpack : x.toModel.unpack = UnpackedFloat.unpack Format.binary64 x.toBits.toBitVec := rfl
  unfold rational?
  rw [hunpack]
  rcases unpack_special h with hx | hx <;> rw [hx]

lemma truncate_cases (x : Float) :
    (biased x.toBits < 1023 ∧ (truncate x).toModel.unpack = .zero (sign x.toBits)) ∨
    (1075 ≤ biased x.toBits ∧ truncate x = x) ∨
    ∃ k hm, 1 ≤ k ∧ k ≤ 52 ∧ biased x.toBits = 1075 - k ∧ (truncate x).toModel.unpack =
      .finite (sign x.toBits) (significand x.toBits / 2 ^ k * 2 ^ k) (-(k : ℤ)) hm := by
  generalize hw : x.toBits = w
  have hlt (n : UInt64) : ((w >>> 52) &&& 0x7FF) < n ↔ biased w < n.toNat := by
    rw [UInt64.lt_iff_toNat_lt, toNat_biased]
  have hle (n : UInt64) : n ≤ ((w >>> 52) &&& 0x7FF) ↔ n.toNat ≤ biased w := by
    rw [UInt64.le_iff_toNat_le, toNat_biased]
  simp only [truncate, hw]
  by_cases htiny : biased w < 1023
  · rw [if_pos ((hlt 1023).mpr htiny)]
    exact Or.inl ⟨htiny, unpack_ofBits_sign_bit w⟩
  rw [if_neg (mt (hlt 1023).mp htiny)]
  by_cases hlarge : 1075 ≤ biased w
  · exact Or.inr (Or.inl ⟨hlarge, if_pos ((hle 1075).mpr hlarge)⟩)
  rw [if_neg (mt (hle 1075).mp hlarge)]
  have hshift : (((w >>> 52) &&& 0x7FF) - 1023).toNat = biased w - 1023 := by
    rw [UInt64.toNat_sub_of_le _ _ ((hle 1023).mpr (Nat.le_of_not_lt htiny)), toNat_biased]
    rfl
  have hcleared := toNat_cleared (w := w) (n := ((w >>> 52) &&& 0x7FF) - 1023) (by omega)
  obtain ⟨k, hk, hpos, hbound⟩ : ∃ k, biased w = 1075 - k ∧ 1 ≤ k ∧ k ≤ 52 :=
    ⟨1075 - biased w, by omega⟩
  rw [hshift, show 52 - (biased w - 1023) = k by omega] at hcleared
  obtain ⟨hm, hunpack⟩ := unpack_ofBits_cleared hcleared hpos hbound hk
  exact Or.inr (Or.inr ⟨k, hm, hpos, hbound, hk, hunpack⟩)

lemma wholePart_eq_zero {m : Nat} (hm : m < 2 ^ 53) {e : Int} (he : e ≤ -53) : wholePart m e = 0 := by
  rw [wholePart, show e.toNat = 0 by omega, Nat.pow_zero, Nat.mul_one]
  exact Nat.div_eq_of_lt (Nat.lt_of_lt_of_le hm (Nat.pow_le_pow_right (by decide) (by omega)))

lemma scaled_eq_wholePart (s : Sign) {m : Nat} {e : Int} (h : (wholePart m e : ℚ) = m * 2 ^ e) :
    ((s.apply m : ℤ) : ℚ) * 2 ^ e = (s.apply (wholePart m e) : ℤ) := by
  cases s with
  | positive => exact_mod_cast h.symm
  | negative =>
    change ((-(m : ℤ) : ℤ) : ℚ) * 2 ^ e = (-(wholePart m e : ℤ) : ℤ)
    push_cast
    rw [h, neg_mul]

lemma wholePart_of_nonneg (m : Nat) {e : Int} (he : 0 ≤ e) : (wholePart m e : ℚ) = m * 2 ^ e := by
  obtain ⟨k, rfl⟩ := Int.eq_ofNat_of_zero_le he
  simp [wholePart]

lemma wholePart_neg (m k : Nat) : wholePart m (-(k : ℤ)) = m / 2 ^ k := by
  simp [wholePart]

lemma wholePart_cleared (m k : Nat) :
    ((wholePart (m / 2 ^ k * 2 ^ k) (-(k : ℤ)) : Nat) : ℚ) = (m / 2 ^ k * 2 ^ k : Nat) * 2 ^ (-(k : ℤ)) := by
  rw [wholePart_neg, Nat.mul_div_cancel _ (Nat.two_pow_pos k), zpow_neg, zpow_natCast]
  push_cast
  field_simp

theorem rational?_truncate (x : Float) :
    rational? (truncate x) = (rational? x).map fun q => (towardZero q : ℚ) := by
  rcases truncate_cases x with ⟨hsmall, hzero⟩ | ⟨hlarge, hsame⟩ | ⟨k, hm, hpos, hle, hbiased, hcleared⟩
  · have hwhole : wholePart (significand x.toBits) (max (biased x.toBits) 1 - 1075 : ℤ) = 0 :=
      wholePart_eq_zero significand_lt (by omega)
    rw [rational?_of_finite (x := x) (by omega), Option.map_some, towardZero_scaled, hwhole, rational?, hzero]
    cases sign x.toBits <;> simp [Sign.apply]
  · rw [hsame]
    have hbiased := biased_lt (w := x.toBits)
    rcases Nat.lt_or_ge (biased x.toBits) 2047 with hfinite | hspecial
    · have hwhole := wholePart_of_nonneg (significand x.toBits)
        (e := (max (biased x.toBits) 1 - 1075 : ℤ)) (by omega)
      rw [rational?_of_finite hfinite, Option.map_some, towardZero_scaled, scaled_eq_wholePart _ hwhole]
    · rw [rational?_of_special (by omega)]
      rfl
  · rw [rational?_of_finite (x := x) (by omega), Option.map_some, towardZero_scaled, rational?, hcleared,
      show (max (biased x.toBits) 1 - 1075 : ℤ) = -(k : ℤ) by omega]
    simp only
    rw [scaled_eq_wholePart _ (wholePart_cleared _ k), wholePart_neg, wholePart_neg,
      Nat.mul_div_cancel _ (Nat.two_pow_pos k)]

lemma truncate_of_rational?_eq_none (h : rational? x = none) : truncate x = x := by
  have hspecial : ¬ biased x.toBits < 2047 := fun hlt => by
    rw [rational?_of_finite hlt] at h
    exact nomatch h
  rcases truncate_cases x with ⟨hsmall, -⟩ | ⟨-, hsame⟩ | ⟨k, hm, hpos, hle, hbiased, -⟩
  · omega
  · exact hsame
  · omega

lemma rational?_cases (x : Float) : (∃ s, x.toModel.unpack = .zero s ∧ rational? x = some 0) ∨
    (∃ s m e hm, x.toModel.unpack = .finite s m e hm ∧ rational? x = some ((s.apply m : ℤ) * (2 : ℚ) ^ e)) ∨
    (∃ s, x.toModel.unpack = .infinity s ∧ rational? x = none) ∨
    x.toModel.unpack = .notANumber ∧ rational? x = none := by
  unfold rational?
  cases x.toModel.unpack with
  | zero s => exact Or.inl ⟨s, rfl, rfl⟩
  | finite s m e hm => exact Or.inr (Or.inl ⟨s, m, e, hm, rfl, rfl⟩)
  | infinity s => exact Or.inr (Or.inr (Or.inl ⟨s, rfl, rfl⟩))
  | notANumber => exact Or.inr (Or.inr (Or.inr ⟨rfl, rfl⟩))

lemma isNaN_of_rational? {q : ℚ} (h : rational? x = some q) : x.isNaN = false := by
  change x.toModel.unpack.isNaN = false
  rcases rational?_cases x with ⟨s, hx, -⟩ | ⟨s, m, e, hm, hx, -⟩ | ⟨s, hx, -⟩ | ⟨-, hx⟩
  · rw [hx]
    rfl
  · rw [hx]
    rfl
  · rw [hx]
    rfl
  · exact nomatch h.symm.trans hx

lemma scaled_lt_one_iff {m : Nat} {e : Int} (hm : m < 2 ^ 53) (hnormal : 2 ^ 52 ≤ m ∨ e = -1074) :
    (m : ℚ) * 2 ^ e < 1 ↔ e < -52 := by
  have hfloor : (m : ℚ) * 2 ^ e < 1 ↔ wholePart m e = 0 := by
    have hlt := Int.floor_lt (z := 1) (a := (m : ℚ) * 2 ^ e)
    rw [floor_scaled, Int.cast_one] at hlt
    rw [← hlt]
    omega
  rw [hfloor]
  constructor
  · intro hzero
    by_contra hexponent
    have hle : 2 ^ (-e).toNat ≤ m * 2 ^ e.toNat :=
      calc 2 ^ (-e).toNat ≤ 2 ^ 52 := Nat.pow_le_pow_right (by decide) (by omega)
        _ ≤ m := by omega
        _ ≤ m * 2 ^ e.toNat := Nat.le_mul_of_pos_right m (Nat.two_pow_pos _)
    exact (Nat.div_pos hle (Nat.two_pow_pos _)).ne' hzero
  · exact fun hexponent => wholePart_eq_zero hm (by omega)

lemma lt_one_iff {q : ℚ} (h : rational? x = some q) : x < 1 ↔ q < 1 := by
  rw [lt_iff_compare, show (1 : Float).toModel.unpack = .finite .positive (2 ^ 52) (-52) (by decide) from rfl]
  rcases rational?_cases x with ⟨s, hx, hq⟩ | ⟨s, m, e, hm, hx, hq⟩ | ⟨s, -, hx⟩ | ⟨-, hx⟩
  · obtain rfl := Option.some.inj (h.symm.trans hq)
    rw [hx]
    exact ⟨fun _ => one_pos, fun _ => rfl⟩
  · obtain rfl := Option.some.inj (h.symm.trans hq)
    rw [hx]
    cases s with
    | positive =>
      obtain ⟨hlt, hnormal⟩ := unpack_bounds hx
      have hiff := scaled_lt_one_iff hlt hnormal
      change _ ↔ ((m : ℤ) : ℚ) * 2 ^ e < 1
      rw [Int.cast_natCast, hiff, UnpackedFloat.compare, Option.some.injEq, Ordering.then_eq_lt,
        Int.compare_eq_lt, Int.compare_eq_eq, Nat.compare_eq_lt]
      omega
    | negative =>
      refine ⟨fun _ => ?_, fun _ => rfl⟩
      change ((-(m : ℤ) : ℤ) : ℚ) * 2 ^ e < 1
      push_cast
      have : (0 : ℚ) ≤ m * 2 ^ e := by positivity
      linarith
  · cases h.symm.trans hx
  · cases h.symm.trans hx

lemma toNat_of_rational? {q : ℚ} (h : rational? x = some q) (hq : 0 ≤ q) :
    toNat x = min ⌊q⌋.toNat (2 ^ 64 - 1) := by
  rcases rational?_cases x with ⟨s, hx, hzero⟩ | ⟨s, m, e, hm, hx, hfinite⟩ | ⟨s, -, hx⟩ | ⟨-, hx⟩
  · obtain rfl := Option.some.inj (h.symm.trans hzero)
    rw [toNat_eq, hx, Int.floor_zero]
    rfl
  · obtain rfl := Option.some.inj (h.symm.trans hfinite)
    cases s with
    | positive =>
      change _ = min ⌊((m : ℤ) : ℚ) * 2 ^ e⌋.toNat _
      rw [toNat_of_unpack hx, Int.cast_natCast, floor_scaled, Int.toNat_natCast]
    | negative =>
      change 0 ≤ ((-(m : ℤ) : ℤ) : ℚ) * 2 ^ e at hq
      push_cast at hq
      have : (0 : ℚ) < m * 2 ^ e := by positivity
      linarith
  · exact nomatch h.symm.trans hx
  · exact nomatch h.symm.trans hx

end

end VideoRemap.Number

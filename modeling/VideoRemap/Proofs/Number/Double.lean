import VideoRemap.Proofs.Number.Index

namespace VideoRemap.Number

open Float.Model Float.Model.UnpackedFloat

inductive Holds : UnpackedFloat → Int → Prop
  | zero (s : Sign) : Holds (.zero s) 0
  | finite (s : Sign) {n : Nat} (hpos : 0 < n) (hlt : n < 2 ^ 53) (hm : 0 < mantissa n) :
      Holds (.finite s (mantissa n) (-(52 - n.log2 : Nat)) hm) (s.apply n)

inductive AtLeast (c : Int) : UnpackedFloat → Prop
  | infinity (s : Sign) : AtLeast c (.infinity s)
  | finite {s : Sign} {m : Nat} {e : Int} {hm : 0 < m} : Normal m → c ≤ e → AtLeast c (.finite s m e hm)

inductive Rounded (t : Int) : UnpackedFloat → Prop
  | finite {s : Sign} {m : Nat} {e : Int} {hm : 0 < m} : Normal m → t ≤ e → e ≤ t + 1 →
      Rounded t (.finite s m e hm)

lemma Rounded.atLeast {c t : Int} {u : UnpackedFloat} (h : Rounded t u) (hle : c ≤ t) : AtLeast c u := by
  cases h with
  | finite hm he _ => exact .finite hm (Int.le_trans hle he)

section

variable {n : Nat} {s : Sign} {j : Nat}

lemma roundWithAccuracy_whole (hpos : 0 < n) (hlt : n < 2 ^ 53) (s : Sign) (hj : 52 - n.log2 ≤ j) :
    Holds (roundWithAccuracy Format.binary64 s (n * 2 ^ j) (-j) .exact) (s.apply n) := by
  obtain ⟨hm, hround⟩ := roundWithAccuracy_exact (normal_mantissa hpos hlt)
    (e := -(52 - n.log2 : Nat)) (by omega) s (j - (52 - n.log2))
  have hmantissa : mantissa n * 2 ^ (j - (52 - n.log2)) = n * 2 ^ j := by
    rw [mantissa, Nat.mul_assoc, ← Nat.pow_add, Nat.add_sub_cancel' hj]
  rw [hmantissa, show (-(52 - n.log2 : Nat) - (j - (52 - n.log2) : Nat) : Int) = -j by omega] at hround
  rw [hround]
  exact .finite s hpos hlt hm

lemma log2_mul_two_pow (hpos : 0 < n) (j : Nat) : (n * 2 ^ j).log2 = n.log2 + j := by
  have hne : n * 2 ^ j ≠ 0 := Nat.mul_ne_zero (by omega) (Nat.two_pow_pos j).ne'
  rw [Nat.log2_eq_iff hne, Nat.pow_add, Nat.add_right_comm, Nat.pow_add 2 (n.log2 + 1)]
  exact ⟨Nat.mul_le_mul_right _ (Nat.log2_self_le (by omega)),
    Nat.mul_lt_mul_of_pos_right Nat.lt_log2_self (Nat.two_pow_pos j)⟩

lemma round_whole (hpos : 0 < n) (hlt : n < 2 ^ 53) (s : Sign) (j : Nat) :
    Holds (UnpackedFloat.round Format.binary64 s (n * 2 ^ j) (-j)) (s.apply n) := by
  have hlog : n.log2 < 53 := (Nat.log2_lt (by omega)).mpr hlt
  have htarget : Format.binary64.targetExponent (totalExponent (n * 2 ^ j) (-j)) =
      -(52 - n.log2 : Nat) := by
    simp only [Format.targetExponent, totalExponent, Format.mantissaBits, Format.minExponent,
      log2_mul_two_pow hpos]
    omega
  simp only [UnpackedFloat.round, htarget, decreaseExponent, Nat.shiftLeft_eq, Nat.mul_assoc, ← Nat.pow_add]
  generalize hi : j + (-(j : Int) - -(52 - n.log2 : Nat)).toNat = i
  rw [show (-(j : Int) - ((-(j : Int) - -(52 - n.log2 : Nat)).toNat : Nat)) = -(i : Int) by omega]
  exact roundWithAccuracy_whole hpos hlt s (by omega)

lemma roundedMantissa_cases (em : ExtendedMantissa) :
    em.roundedMantissa = em.mantissa ∨ em.roundedMantissa = em.mantissa + 1 := by
  have hmod : em.mantissa % 2 = 0 ∨ em.mantissa % 2 = 1 := by omega
  unfold ExtendedMantissa.roundedMantissa Accuracy.roundToNearestEven
  split <;> omega

end

lemma log2_of_normal {m : Nat} (h : Normal m) : m.log2 = 52 := by simpa using h.log2_mul 0

lemma shiftToTargetExponent_of_normal {m : Nat} (h : m.log2 ≥ 52) {e : Int} (he : -1074 ≤ m.log2 - 52 + e) :
    (shiftToTargetExponent Format.binary64 m e .exact).2 = m.log2 - 52 + e ∧
      (shiftToTargetExponent Format.binary64 m e .exact).1.mantissa = m / 2 ^ (m.log2 - 52) := by
  have htarget : Format.binary64.targetExponent (totalExponent m e) = m.log2 - 52 + e := by
    simp only [Format.targetExponent, totalExponent, Format.mantissaBits, Format.minExponent]
    omega
  simp only [shiftToTargetExponent, htarget, shiftToExponent, shiftRight_mantissa,
    show (((m.log2 : Int) - 52 + e - e).toNat) = m.log2 - 52 by omega]
  exact ⟨by omega, rfl⟩

lemma roundWithAccuracy_rounded {m : Nat} (h : 52 ≤ m.log2) {e : Int} (he : -1074 ≤ m.log2 - 52 + e)
    (s : Sign) : Rounded (m.log2 - 52 + e) (roundWithAccuracy Format.binary64 s m e .exact) := by
  have hne : m ≠ 0 := by
    rintro rfl
    exact absurd h (by decide)
  obtain ⟨hexponent, hmantissa⟩ := shiftToTargetExponent_of_normal h he
  have hlow : 2 ^ 52 ≤ m / 2 ^ (m.log2 - 52) := by
    rw [Nat.le_div_iff_mul_le (Nat.two_pow_pos _), ← Nat.pow_add, Nat.add_sub_cancel' h]
    exact Nat.log2_self_le hne
  have hhigh : m / 2 ^ (m.log2 - 52) < 2 ^ 53 := by
    rw [Nat.div_lt_iff_lt_mul (Nat.two_pow_pos _), ← Nat.pow_add, show 53 + (m.log2 - 52) = m.log2 + 1 by omega]
    exact Nat.lt_log2_self
  unfold roundWithAccuracy
  generalize shiftToTargetExponent Format.binary64 m e .exact = shifted at hexponent hmantissa
  obtain ⟨em, t⟩ := shifted
  simp only at hexponent hmantissa ⊢
  have hrounded : Normal em.roundedMantissa ∨ em.roundedMantissa = 2 ^ 53 := by
    rcases roundedMantissa_cases em with hr | hr
    all_goals
      unfold Normal
      omega
  -- A carry out of the mantissa is shifted out again.
  have hlast : ∃ m' t', Normal m' ∧ t ≤ t' ∧ t' ≤ t + 1 ∧
      (shiftToTargetExponent Format.binary64 em.roundedMantissa t .exact).1.mantissa = m' ∧
      (shiftToTargetExponent Format.binary64 em.roundedMantissa t .exact).2 = t' := by
    rcases hrounded with hnormal | hcarry
    · have hlog := log2_of_normal hnormal
      obtain ⟨hexponent', hmantissa'⟩ := shiftToTargetExponent_of_normal (e := t) (Nat.le_of_eq hlog.symm)
        (by omega)
      rw [hlog, Nat.sub_self, Nat.pow_zero, Nat.div_one] at hmantissa'
      exact ⟨_, _, hnormal, by omega, by omega, hmantissa', rfl⟩
    · have hlog : (2 ^ 53 : Nat).log2 = 53 := by decide
      obtain ⟨hexponent', hmantissa'⟩ := shiftToTargetExponent_of_normal (m := 2 ^ 53) (e := t)
        (by rw [hlog]; decide) (by omega)
      rw [hcarry]
      exact ⟨2 ^ 52, _, ⟨Nat.le_refl _, by decide⟩, by omega, by omega, hmantissa'.trans (by decide), rfl⟩
  obtain ⟨m', t', hnormal, hle, hle', hm', ht'⟩ := hlast
  have hpos : 0 < m' := Nat.lt_of_lt_of_le (by decide) hnormal.1
  simp only [hm', ht', dif_neg (Nat.ne_of_gt hpos)]
  exact .finite hnormal (by omega) (by omega)

lemma round_rounded {m : Nat} (hpos : 0 < m) {e : Int} (he : -1074 ≤ m.log2 - 52 + e) (s : Sign) :
    Rounded (m.log2 - 52 + e) (UnpackedFloat.round Format.binary64 s m e) := by
  have htarget : Format.binary64.targetExponent (totalExponent m e) = m.log2 - 52 + e := by
    simp only [Format.targetExponent, totalExponent, Format.mantissaBits, Format.minExponent]
    omega
  simp only [UnpackedFloat.round, htarget, decreaseExponent, Nat.shiftLeft_eq]
  generalize hi : (e - ((m.log2 : Int) - 52 + e)).toNat = i
  have hlog := log2_mul_two_pow hpos i
  have hround := roundWithAccuracy_rounded (m := m * 2 ^ i) (by omega) (e := e - i) (by omega) s
  rwa [hlog, show ((m.log2 + i : Nat) : Int) - 52 + (e - i) = m.log2 - 52 + e by omega] at hround

lemma normalize_whole {z : Int} (hlt : z.natAbs < 2 ^ 53) (j : Nat) (s : Sign) :
    Holds (UnpackedFloat.normalize Format.binary64 (z * 2 ^ j) (-j) s) z := by
  have hpow : (0 : Int) < 2 ^ j := Int.pow_pos (by decide)
  have hcast : ((2 ^ j : Nat) : Int) = 2 ^ j := Int.natCast_pow 2 j
  unfold UnpackedFloat.normalize
  rcases Int.lt_trichotomy z 0 with hneg | rfl | hpos
  · have hcompare : compare (z * 2 ^ j) 0 = .lt := Int.compare_eq_lt.mpr (Int.mul_neg_of_neg_of_pos hneg hpow)
    have htoNat : (-(z * 2 ^ j)).toNat = z.natAbs * 2 ^ j := by
      rw [← Int.neg_mul, ← Int.ofNat_natAbs_of_nonpos (Int.le_of_lt hneg), ← hcast, ← Int.natCast_mul,
        Int.toNat_natCast]
    rw [hcompare]
    simp only [htoNat]
    have hround := round_whole (n := z.natAbs) (by omega) hlt .negative j
    rwa [show Sign.apply .negative (z.natAbs : Int) = z by simp only [Sign.apply]; omega] at hround
  · rw [Int.zero_mul]
    exact .zero s
  · have hcompare : compare (z * 2 ^ j) 0 = .gt := Int.compare_eq_gt.mpr (Int.mul_pos hpos hpow)
    have htoNat : (z * 2 ^ j).toNat = z.natAbs * 2 ^ j := by
      conv_lhs => rw [← Int.natAbs_of_nonneg (Int.le_of_lt hpos)]
      rw [← hcast, ← Int.natCast_mul, Int.toNat_natCast]
    rw [hcompare]
    simp only [htoNat]
    have hround := round_whole (n := z.natAbs) (by omega) hlt .positive j
    rwa [show Sign.apply .positive (z.natAbs : Int) = z by simp only [Sign.apply]; omega] at hround

lemma normalize_rounded {z : Int} (hne : z ≠ 0) {e : Int} (he : -1074 ≤ z.natAbs.log2 - 52 + e) (s : Sign) :
    Rounded (z.natAbs.log2 - 52 + e) (UnpackedFloat.normalize Format.binary64 z e s) := by
  have hround (s : Sign) := round_rounded (m := z.natAbs) (by omega) he s
  unfold UnpackedFloat.normalize
  rcases Int.lt_or_gt_of_ne hne with hneg | hpos
  · rw [Int.compare_eq_lt.mpr hneg]
    simp only [show (-z).toNat = z.natAbs by omega]
    exact hround .negative
  · rw [Int.compare_eq_gt.mpr hpos]
    simp only [show z.toNat = z.natAbs by omega]
    exact hround .positive

section

variable {u v : UnpackedFloat} {x y : Int}

lemma mantissa_shiftLeft (n : Nat) {j : Nat} (hj : 52 - n.log2 ≤ j) (s : Sign) :
    s.apply (mantissa n <<< (-(52 - n.log2 : Nat) - -(j : Int)).toNat : Nat) = s.apply n * 2 ^ j := by
  have hpow : mantissa n <<< (-(52 - n.log2 : Nat) - -(j : Int)).toNat = n * 2 ^ j := by
    rw [mantissa, Nat.shiftLeft_eq, Nat.mul_assoc, ← Nat.pow_add]
    congr 2
    omega
  rw [hpow, Int.natCast_mul, Int.natCast_pow]
  cases s
  · exact Int.neg_mul .. |>.symm
  · rfl

lemma Holds.add (hu : Holds u x) (hv : Holds v y) (h : (x + y).natAbs < 2 ^ 53) :
    Holds (UnpackedFloat.add Format.binary64 u v) (x + y) := by
  cases hu with
  | zero s =>
    rw [Int.zero_add]
    cases hv with
    | zero s' =>
      simp only [UnpackedFloat.add]
      split
      · exact .zero _
      · exact .zero _
    | finite s' hpos hlt hm => exact .finite s' hpos hlt hm
  | @finite s n hpos hlt hm =>
    cases hv with
    | zero s' =>
      rw [Int.add_zero]
      exact .finite s hpos hlt hm
    | @finite s' n' hpos' hlt' hm' =>
      simp only [UnpackedFloat.add, decreaseExponent]
      generalize hj : max (52 - n.log2) (52 - n'.log2) = j
      rw [show min (-(52 - n.log2 : Nat) : Int) (-(52 - n'.log2 : Nat)) = -(j : Int) by omega,
        mantissa_shiftLeft n (by omega), mantissa_shiftLeft n' (by omega), ← Int.add_mul]
      exact normalize_whole h j .positive

lemma apply_mul (s s' : Sign) (n n' : Nat) : (s * s').apply (n * n' : Nat) = s.apply n * s'.apply n' := by
  have hcast := Int.natCast_mul n n'
  cases s <;> cases s'
  · exact hcast.trans (Int.neg_mul_neg ..).symm
  · exact (congrArg Neg.neg hcast).trans (Int.neg_mul ..).symm
  · exact (congrArg Neg.neg hcast).trans (Int.mul_neg ..).symm
  · exact hcast

lemma natAbs_apply (s : Sign) (n : Nat) : (s.apply (n : Int)).natAbs = n := by
  cases s
  · exact (Int.natAbs_neg _).trans (Int.natAbs_natCast n)
  · exact Int.natAbs_natCast n

lemma Holds.add_atLeast (hu : Holds u x) (hx : x.natAbs ≤ 2 ^ 31) (hv : AtLeast 0 v) :
    AtLeast (-1) (UnpackedFloat.add Format.binary64 u v) := by
  cases hu with
  | zero s =>
    cases hv with
    | infinity s' => exact .infinity s'
    | finite hm he => exact .finite hm (by omega)
  | @finite s n hpos hlt hm =>
    rw [natAbs_apply] at hx
    have hlog : n.log2 < 32 := (Nat.log2_lt (by omega)).mpr (by omega)
    cases hv with
    | infinity s' => exact .infinity s'
    | @finite s' m' e' hm' hnormal he =>
      simp only [UnpackedFloat.add, decreaseExponent]
      obtain ⟨k, hk⟩ : ∃ k, 52 - n.log2 = k + 20 := ⟨32 - n.log2, by omega⟩
      rw [hk, show min (-((k + 20 : Nat) : Int)) e' = -((k + 20 : Nat) : Int) by omega, Int.sub_self,
        Int.toNat_zero, Nat.shiftLeft_zero, Nat.shiftLeft_eq]
      obtain ⟨j, hj⟩ : ∃ j, (e' - -((k + 20 : Nat) : Int)).toNat = k + 20 + j := ⟨e'.toNat, by omega⟩
      rw [hj]
      have hsmall : mantissa n < 2 ^ 53 := (normal_mantissa hpos hlt).2
      have hlarge : 2 ^ (72 + k) ≤ m' * 2 ^ (k + 20 + j) := by
        calc 2 ^ (72 + k) = 2 ^ 52 * 2 ^ (k + 20) := by rw [← Nat.pow_add]; congr 1; omega
          _ ≤ m' * 2 ^ (k + 20 + j) :=
            Nat.mul_le_mul hnormal.1 (Nat.pow_le_pow_right (by decide) (by omega))
      have hpow : (2 : Nat) ^ (72 + k) = 2 * 2 ^ (71 + k) := by rw [← Nat.pow_succ']; congr 1; omega
      have hpow' : (2 : Nat) ^ 53 ≤ 2 ^ (71 + k) := Nat.pow_le_pow_right (by decide) (by omega)
      have hsum : 2 ^ (71 + k) ≤
          (s.apply (mantissa n : Nat) + s'.apply (m' * 2 ^ (k + 20 + j) : Nat)).natAbs := by
        generalize m' * 2 ^ (k + 20 + j) = large at hlarge
        cases s <;> cases s' <;> simp only [Sign.apply] <;> omega
      have hlog := (Nat.le_log2 (by omega)).mpr hsum
      exact (normalize_rounded (by omega) (by omega) .positive).atLeast (by omega)

lemma mantissa_mul (n n' : Nat) :
    mantissa n * mantissa n' = n * n' * 2 ^ (52 - n.log2 + (52 - n'.log2)) := by
  rw [mantissa, mantissa, Nat.pow_add]
  exact Nat.mul_mul_mul_comm ..

lemma Holds.mul (hu : Holds u x) (hv : Holds v y) (h : (x * y).natAbs < 2 ^ 53) :
    Holds (UnpackedFloat.mul Format.binary64 u v) (x * y) := by
  cases hu with
  | zero s =>
    rw [Int.zero_mul]
    cases hv with
    | zero s' => exact .zero (s * s')
    | finite s' _ _ _ => exact .zero (s * s')
  | @finite s n hpos hlt hm =>
    cases hv with
    | zero s' =>
      rw [Int.mul_zero]
      exact .zero (s * s')
    | @finite s' n' hpos' hlt' hm' =>
      rw [← apply_mul, natAbs_apply] at h
      have hlog : n.log2 + n'.log2 ≤ (n * n').log2 := by
        rw [Nat.le_log2 (Nat.mul_pos hpos hpos').ne', Nat.pow_add]
        exact Nat.mul_le_mul (Nat.log2_self_le (by omega)) (Nat.log2_self_le (by omega))
      rw [← apply_mul]
      have hround := roundWithAccuracy_whole (Nat.mul_pos hpos hpos') h (s * s')
        (j := 52 - n.log2 + (52 - n'.log2)) (by omega)
      rw [← mantissa_mul] at hround
      simp only [UnpackedFloat.mul]
      rwa [show (-(52 - n.log2 : Nat) + -(52 - n'.log2 : Nat) : Int) =
        -((52 - n.log2 + (52 - n'.log2) : Nat) : Int) by omega]

lemma Holds.zero_mul (hu : Holds u 0) {t : Int} (hv : Rounded t v) :
    Holds (UnpackedFloat.mul Format.binary64 u v) 0 := by
  generalize hz : (0 : Int) = z at hu
  cases hu with
  | zero s =>
    cases hv with
    | @finite s' _ _ _ _ _ _ => exact .zero (s * s')
  | @finite s n hpos _ _ =>
    have hn := natAbs_apply s n
    omega

lemma Holds.mul_atLeast_of_le (hu : Holds u x) (hv : Holds v y) (h : 2 ^ 52 ≤ (x * y).natAbs) :
    AtLeast 0 (UnpackedFloat.mul Format.binary64 u v) := by
  cases hu with
  | zero s => simp at h
  | @finite s n hpos hlt hm =>
    cases hv with
    | zero s' => simp at h
    | @finite s' n' hpos' hlt' hm' =>
      rw [← apply_mul, natAbs_apply] at h
      have hlog : 52 ≤ (n * n').log2 := (Nat.le_log2 (Nat.mul_pos hpos hpos').ne').mpr h
      have hlog' := log2_mul_two_pow (Nat.mul_pos hpos hpos') (52 - n.log2 + (52 - n'.log2))
      rw [← mantissa_mul] at hlog'
      simp only [UnpackedFloat.mul]
      exact (roundWithAccuracy_rounded (by omega) (by omega) _).atLeast (by omega)

lemma Holds.mul_atLeast (hu : Holds u x) (hx : x ≠ 0) {t : Int} (ht : 0 ≤ t) (hv : Rounded t v) :
    AtLeast 0 (UnpackedFloat.mul Format.binary64 u v) := by
  cases hu with
  | zero s => exact absurd rfl hx
  | @finite s n hpos hlt hm =>
    cases hv with
    | @finite s' m' e' hm' hnormal he _ =>
      have hlow : 2 ^ 104 ≤ mantissa n * m' := by
        calc (2 : Nat) ^ 104 = 2 ^ 52 * 2 ^ 52 := by decide
          _ ≤ mantissa n * m' := Nat.mul_le_mul (normal_mantissa hpos hlt).1 hnormal.1
      have hlog : 104 ≤ (mantissa n * m').log2 := (Nat.le_log2 (by omega)).mpr hlow
      simp only [UnpackedFloat.mul]
      exact (roundWithAccuracy_rounded (by omega) (by omega) _).atLeast (by omega)

lemma compare_mantissa_of_lt {n n' : Nat} (hpos : 0 < n) (hlt : n < n') (hlt' : n' < 2 ^ 53) :
    (compare (-(52 - n.log2 : Nat) : Int) (-(52 - n'.log2 : Nat))).then
      (compare (mantissa n) (mantissa n')) = .lt := by
  have hlog : n.log2 ≤ n'.log2 :=
    (Nat.le_log2 (by omega)).mpr (Nat.le_trans (Nat.log2_self_le (by omega)) (Nat.le_of_lt hlt))
  have hbound : n'.log2 < 53 := (Nat.log2_lt (by omega)).mpr hlt'
  rw [Ordering.then_eq_lt, Int.compare_eq_lt, Int.compare_eq_eq, Nat.compare_eq_lt]
  rcases Nat.lt_or_eq_of_le hlog with hless | hsame
  · exact Or.inl (by omega)
  · refine Or.inr ⟨by rw [hsame], ?_⟩
    rw [mantissa, mantissa, hsame]
    exact Nat.mul_lt_mul_of_pos_right hlt (Nat.two_pow_pos _)

lemma compare_mantissa {n n' : Nat} (hpos : 0 < n) (hlt : n < 2 ^ 53) (hpos' : 0 < n')
    (hlt' : n' < 2 ^ 53) : (compare (-(52 - n.log2 : Nat) : Int) (-(52 - n'.log2 : Nat))).then
      (compare (mantissa n) (mantissa n')) = compare (n : Int) n' := by
  rcases Nat.lt_trichotomy n n' with hless | rfl | hmore
  · have hcompare : compare (n : Int) n' = .lt := Int.compare_eq_lt.mpr (by omega)
    rw [hcompare]
    exact compare_mantissa_of_lt hpos hless hlt'
  · rw [Int.compare_eq_eq.mpr rfl, Nat.compare_eq_eq.mpr rfl, Int.compare_eq_eq.mpr rfl]
    rfl
  · have hcompare : compare (n : Int) n' = .gt := Int.compare_eq_gt.mpr (by omega)
    rw [hcompare, ← Ordering.swap_eq_lt, Ordering.swap_then, Int.compare_swap, Nat.compare_swap]
    exact compare_mantissa_of_lt hpos' hmore hlt

lemma negative_apply_neg {n : Nat} (hpos : 0 < n) : Sign.negative.apply (n : Int) < 0 :=
  Int.neg_neg_of_pos (Int.natCast_pos.mpr hpos)

lemma positive_apply_pos {n : Nat} (hpos : 0 < n) : 0 < Sign.positive.apply (n : Int) :=
  Int.natCast_pos.mpr hpos

lemma compare_neg_neg (a b : Int) : compare (-a) (-b) = compare b a := by
  rcases Int.lt_trichotomy a b with hlt | rfl | hgt
  · rw [Int.compare_eq_gt.mpr hlt, Int.compare_eq_gt.mpr (Int.neg_lt_neg hlt)]
  · rw [Int.compare_eq_eq.mpr rfl, Int.compare_eq_eq.mpr rfl]
  · rw [Int.compare_eq_lt.mpr hgt, Int.compare_eq_lt.mpr (Int.neg_lt_neg hgt)]

lemma compare_of_holds (hu : Holds u x) (hv : Holds v y) :
    u.compare v = some (compare x y) := by
  cases hu with
  | zero s =>
    cases hv with
    | zero s' => rfl
    | @finite s' n hpos hlt hm =>
      cases s' with
      | positive =>
        rw [Int.compare_eq_lt.mpr (positive_apply_pos hpos)]
        rfl
      | negative =>
        rw [Int.compare_eq_gt.mpr (negative_apply_neg hpos)]
        rfl
  | @finite s n hpos hlt hm =>
    cases hv with
    | zero s' =>
      cases s with
      | positive =>
        rw [Int.compare_eq_gt.mpr (positive_apply_pos hpos)]
        rfl
      | negative =>
        rw [Int.compare_eq_lt.mpr (negative_apply_neg hpos)]
        rfl
    | @finite s' n' hpos' hlt' hm' =>
      have hcompare := compare_mantissa hpos hlt hpos' hlt'
      cases s with
      | positive =>
        cases s' with
        | positive => exact congrArg some hcompare
        | negative =>
          have hgt := Int.lt_trans (negative_apply_neg hpos') (positive_apply_pos hpos)
          rw [Int.compare_eq_gt.mpr hgt]
          rfl
      | negative =>
        cases s' with
        | positive =>
          have hlt := Int.lt_trans (negative_apply_neg hpos) (positive_apply_pos hpos')
          rw [Int.compare_eq_lt.mpr hlt]
          rfl
        | negative =>
          have hswap := (congrArg Ordering.swap hcompare).trans (Int.compare_swap _ _)
          exact congrArg some (hswap.trans (compare_neg_neg _ _).symm)

lemma Holds.beq (hu : Holds u x) (hv : Holds v y) : u.beq v = decide (x = y) := by
  change (u.compare v == some .eq) = decide (x = y)
  rw [compare_of_holds hu hv, Bool.eq_iff_iff, beq_iff_eq, Option.some.injEq, Int.compare_eq_eq,
    decide_eq_true_iff]

lemma Holds.beq_atLeast (hu : Holds u x) (hx : x.natAbs ≤ 2 ^ 31) (hv : AtLeast (-1) v) :
    u.beq v = false := by
  rw [Bool.eq_false_iff]
  change ¬ (UnpackedFloat.compare _ _ == some .eq) = true
  rw [beq_iff_eq]
  cases hu with
  | zero s =>
    cases hv with
    | infinity s' => cases s' <;> exact fun h => nomatch h
    | @finite s' _ _ _ _ _ => cases s' <;> exact fun h => nomatch h
  | @finite s n hpos hlt hm =>
    cases hv with
    | infinity s' => cases s <;> cases s' <;> exact fun h => nomatch h
    | @finite s' m' e' hm' hnormal he =>
      rw [natAbs_apply] at hx
      have hlog : n.log2 < 32 := (Nat.log2_lt (by omega)).mpr (by omega)
      cases s <;> cases s'
      all_goals simp only [UnpackedFloat.compare, Option.some.injEq, Ordering.swap_eq_eq,
        Ordering.then_eq_eq, Int.compare_eq_eq, reduceCtorEq, not_false_eq_true]
      all_goals omega

lemma Holds.neg (hu : Holds u x) : Holds u.neg (-x) := by
  cases hu with
  | zero s => exact .zero (-s)
  | @finite s n hpos hlt hm =>
    have hneg := Holds.finite (-s) hpos hlt hm
    cases s
    · rwa [show Sign.apply .negative (n : Int) = -n from rfl, Int.neg_neg]
    · exact hneg

lemma Holds.unpack_pack (hu : Holds u x) : Holds (Float.Model.pack u).unpack x := by
  cases hu with
  | zero s =>
    have hzero : (Float.Model.pack (.zero s)).unpack = .zero s := by cases s <;> rfl
    rw [hzero]
    exact .zero s
  | finite s hpos hlt hm =>
    rw [Number.unpack_pack (normal_mantissa hpos hlt) (by omega) (by omega) s hm]
    exact .finite s hpos hlt hm

lemma Rounded.unpack_pack {t : Int} (ht : -1074 ≤ t) (ht' : t < 970) (hu : Rounded t u) :
    Rounded t (Float.Model.pack u).unpack := by
  cases hu with
  | @finite s m e hm hnormal he he' =>
    rw [Number.unpack_pack hnormal (by omega) (by omega) s hm]
    exact .finite hnormal he he'

lemma AtLeast.unpack_pack {c : Int} (hc : -1074 ≤ c) (hu : AtLeast c u) :
    AtLeast c (Float.Model.pack u).unpack := by
  have hinfinity (s : Sign) : (Float.Model.pack (.infinity s)).unpack = .infinity s := by cases s <;> rfl
  cases hu with
  | infinity s =>
    rw [hinfinity]
    exact .infinity s
  | @finite s m e hm hnormal he =>
    by_cases hle : e ≤ 971
    · rw [Number.unpack_pack hnormal (by omega) hle s hm]
      exact .finite hnormal he
    · have hbiased : 2048 ≤ (e + 1023 + 52).toNat + 1 := by omega
      have hpack : UnpackedFloat.pack Format.binary64 (.finite s m e hm) =
          UnpackedFloat.pack Format.binary64 (.infinity s) := if_pos hbiased
      have hmodel : Float.Model.pack (.finite s m e hm) = Float.Model.pack (.infinity s) := by
        simp only [Float.Model.pack, hpack]
      rw [hmodel, hinfinity]
      exact .infinity s

end

lemma ofUInt64_cases {k : Nat} (hk : k < 2 ^ 64) :
    k < 2 ^ 53 ∧ Holds k.toUInt64.toFloat.toModel.unpack k ∨
    2 ^ 53 ≤ k ∧ Rounded (k.log2 - 52) k.toUInt64.toFloat.toModel.unpack := by
  have htoNat : k.toUInt64.toNat = k := by
    simp only [Nat.toUInt64_eq, UInt64.toNat_ofNat']
    omega
  have hunpack : k.toUInt64.toFloat.toModel.unpack =
      (Float.Model.pack (UnpackedFloat.normalize Format.binary64 k 0 .positive)).unpack := by
    have hof : UnpackedFloat.ofUInt64 Format.binary64 k.toUInt64 =
        UnpackedFloat.normalize Format.binary64 k 0 .positive := by
      simp only [UnpackedFloat.ofUInt64, UnpackedFloat.ofNat, UnpackedFloat.ofInt, htoNat]
    exact congrArg (fun u => (Float.Model.pack u).unpack) hof
  rw [hunpack]
  rcases Nat.lt_or_ge k (2 ^ 53) with hlt | hge
  · have hwhole := normalize_whole (z := k) (by omega) 0 .positive
    rw [Int.pow_zero, Int.mul_one] at hwhole
    exact .inl ⟨hlt, hwhole.unpack_pack⟩
  · have hlog : 53 ≤ k.log2 := (Nat.le_log2 (by omega)).mpr hge
    have hlog' : k.log2 < 64 := (Nat.log2_lt (by omega)).mpr hk
    have hrounded := normalize_rounded (z := k) (by omega) (e := 0) (by rw [Int.natAbs_natCast]; omega) .positive
    rw [Int.natAbs_natCast, Int.add_zero] at hrounded
    exact .inr ⟨hge, hrounded.unpack_pack (by omega) (by omega)⟩

lemma holds_ofInt {z : Int} (hlt : z.natAbs < 2 ^ 53) : Holds (Float.ofInt z).toModel.unpack z := by
  have hnat {n : Nat} (hlt : n < 2 ^ 53) : Holds (Float.ofNat n).toModel.unpack n := by
    rcases Nat.eq_zero_or_pos n with rfl | hpos
    · exact .zero .positive
    · obtain ⟨hm, hn⟩ := unpack_ofNat hpos hlt
      rw [hn]
      exact .finite .positive hpos hlt hm
  cases z with
  | ofNat n => exact hnat hlt
  | negSucc n => exact (hnat hlt).neg.unpack_pack

lemma ofInt_beq_add_mul {w a b : Int} (hw : w.natAbs ≤ 2 ^ 31) (ha : a.natAbs ≤ 2 ^ 31)
    (hb : b.natAbs ≤ 2 ^ 31) {k : Nat} (hk : k < 2 ^ 64) :
    (Float.ofInt w == Float.ofInt a + Float.ofInt b * k.toUInt64.toFloat) = decide (w = a + b * k) := by
  have hholds {z : Int} (hz : z.natAbs ≤ 2 ^ 31) := holds_ofInt (z := z) (by omega)
  let product := UnpackedFloat.mul Format.binary64 (Float.ofInt b).toModel.unpack
    k.toUInt64.toFloat.toModel.unpack
  have hproduct : (b * k).natAbs < 2 ^ 52 ∧ Holds product (b * k) ∨
      2 ^ 52 ≤ (b * k).natAbs ∧ AtLeast 0 product := by
    rcases ofUInt64_cases hk with ⟨-, hcount⟩ | ⟨hge, hcount⟩
    · rcases Nat.lt_or_ge (b * k).natAbs (2 ^ 52) with hlt | hge
      · exact .inl ⟨hlt, (hholds hb).mul hcount (by omega)⟩
      · exact .inr ⟨hge, (hholds hb).mul_atLeast_of_le hcount hge⟩
    · have hlog : 53 ≤ k.log2 := (Nat.le_log2 (by omega)).mpr hge
      by_cases hzero : b = 0
      · subst hzero
        rw [Int.zero_mul]
        exact .inl ⟨by decide, (hholds hb).zero_mul hcount⟩
      · refine .inr ⟨?_, (hholds hb).mul_atLeast hzero (by omega) hcount⟩
        rw [Int.natAbs_mul, Int.natAbs_natCast]
        exact Nat.le_trans (by omega) (Nat.le_mul_of_pos_left k (by omega))
  change UnpackedFloat.beq _ (Float.Model.pack (UnpackedFloat.add _ _ (Float.Model.pack product).unpack)).unpack = _
  rcases hproduct with ⟨hlt, hproduct⟩ | ⟨hge, hproduct⟩
  · exact (hholds hw).beq ((hholds ha).add hproduct.unpack_pack (by omega)).unpack_pack
  · rw [decide_eq_false (by omega)]
    exact (hholds hw).beq_atLeast hw
      (((hholds ha).add_atLeast ha (hproduct.unpack_pack (by decide))).unpack_pack (by decide))

end VideoRemap.Number

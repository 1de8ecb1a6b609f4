import VideoRemap.Proofs.Number.Double

/-!
Rounding to single precision. What is shifted out of a mantissa is remembered in two bits, which are
enough to find the nearest number: every rational in the interval around a number is rounded to it.
-/

namespace VideoRemap.Number

open Float.Model Float.Model.UnpackedFloat

def Represents (em : ExtendedMantissa) (r : ℚ) : Prop :=
  let half : ℚ := em.mantissa + if em.roundBit then 1 / 2 else 0
  if em.stickyBit then half < r ∧ r < half + 1 / 2 else r = half

structure Canonical (m : Nat) (e : Int) : Prop where
  pos : 0 < m
  lt : m < 2 ^ 24
  least : -149 ≤ e
  normal : 2 ^ 23 ≤ m ∨ e = -149

def lowEnd (m : Nat) (e : Int) : ℚ :=
  (if m = 2 ^ 23 ∧ -149 < e then (m : ℚ) - 1 / 4 else (m : ℚ) - 1 / 2) * 2 ^ e

def highEnd (m : Nat) (e : Int) : ℚ := ((m : ℚ) + 1 / 2) * 2 ^ e

/-- `r` lies in the interval that is rounded to `m * 2 ^ e`. The ends belong to it if `m` is even. -/
structure RoundsTo (m : Nat) (e : Int) (r : ℚ) : Prop where
  low : lowEnd m e ≤ r
  high : r ≤ highEnd m e
  ends : m % 2 = 0 ∨ lowEnd m e < r ∧ r < highEnd m e

section

variable {em : ExtendedMantissa} {r : ℚ} {q : Nat}

lemma represents_exact (q : Nat) : Represents (.ofMantissaAndAccuracy q .exact) q := by
  simp [Represents, ExtendedMantissa.ofMantissaAndAccuracy]

lemma represents_fraction (q : Nat) {num den : Nat} (h : num < den) :
    Represents (.ofMantissaAndAccuracy q (accuracyOfFraction num den)) (q + num / den) := by
  have hden : (0 : ℚ) < den := by exact_mod_cast Nat.zero_lt_of_lt h
  have hlt : (num : ℚ) / den < 1 := by rw [div_lt_one hden]; exact_mod_cast h
  unfold accuracyOfFraction
  split
  case isTrue hzero => simpa [hzero] using represents_exact q
  case isFalse hne =>
    have hpos : (0 : ℚ) < num / den := div_pos (by exact_mod_cast Nat.pos_of_ne_zero hne) hden
    -- What a division leaves over is compared with half the divisor.
    rcases lt_trichotomy (2 * num) den with hless | heq | hgreater
    · rw [Nat.compare_eq_lt.mpr hless]
      have hhalf : (num : ℚ) / den < 1 / 2 := by
        rw [div_lt_div_iff₀ hden two_pos]
        exact_mod_cast (by omega : num * 2 < 1 * den)
      simp only [Represents, ExtendedMantissa.ofMantissaAndAccuracy, if_true, Bool.false_eq_true, if_false]
      exact ⟨by linarith, by linarith⟩
    · rw [Nat.compare_eq_eq.mpr heq]
      have hhalf : (num : ℚ) / den = 1 / 2 := by
        rw [div_eq_div_iff hden.ne' two_ne_zero]
        exact_mod_cast (by omega : num * 2 = 1 * den)
      simp [Represents, ExtendedMantissa.ofMantissaAndAccuracy, hhalf]
    · rw [Nat.compare_eq_gt.mpr hgreater]
      have hhalf : (1 : ℚ) / 2 < num / den := by
        rw [div_lt_div_iff₀ two_pos hden]
        exact_mod_cast (by omega : 1 * den < num * 2)
      simp only [Represents, ExtendedMantissa.ofMantissaAndAccuracy, if_true]
      exact ⟨by linarith, by linarith⟩

namespace Represents

lemma bounds (h : Represents em r) : (em.mantissa : ℚ) ≤ r ∧ r < em.mantissa + 1 := by
  obtain ⟨m, round, sticky⟩ := em
  cases round <;> cases sticky <;> simp only [Represents, Bool.false_eq_true, if_false, if_true] at h
  all_goals constructor <;> linarith

lemma shiftRightOne (h : Represents em r) : Represents em.shiftRightOne (r / 2) := by
  obtain ⟨m, round, sticky⟩ := em
  have hsplit : (m : ℚ) = 2 * (m / 2 : Nat) + (m % 2 : Nat) := by exact_mod_cast (Nat.div_add_mod m 2).symm
  rcases Nat.mod_two_eq_zero_or_one m with hmod | hmod
  all_goals
    rw [hmod] at hsplit
    cases round <;> cases sticky
    all_goals
      simp [Represents, ExtendedMantissa.shiftRightOne, hmod] at h ⊢
      first
        | linarith
        | constructor <;> linarith

lemma shiftRight (h : Represents em r) (k : Nat) : Represents (em >>> k) (r / 2 ^ k) := by
  change Represents (k.repeat ExtendedMantissa.shiftRightOne em) _
  induction k with
  | zero => simpa [Nat.repeat] using h
  | succ k ih =>
    rw [pow_succ, ← div_div]
    exact ih.shiftRightOne

lemma roundedMantissa_eq (h : Represents em r) {n : Nat} (hlow : (n : ℚ) - 1 / 2 ≤ r)
    (hhigh : r ≤ n + 1 / 2) (hends : n % 2 = 0 ∨ (n : ℚ) - 1 / 2 < r ∧ r < n + 1 / 2) :
    em.roundedMantissa = n := by
  obtain ⟨m, round, sticky⟩ := em
  obtain ⟨hle, hlt⟩ := h.bounds
  have hnear : n = m ∨ n = m + 1 := by
    have hbelow : (2 * n : ℚ) < 2 * m + 3 := by linarith
    have habove : (2 * m : ℚ) < 2 * n + 2 := by linarith
    have hbelow' : 2 * n < 2 * m + 3 := by exact_mod_cast hbelow
    have habove' : 2 * m < 2 * n + 2 := by exact_mod_cast habove
    omega
  rcases hnear with rfl | rfl
  -- Only in the two cases of a tie is there something to say: `n` must be even.
  all_goals
    push_cast at hlow hhigh hends
    cases round <;> cases sticky <;> simp only [Represents, Bool.false_eq_true, if_false, if_true] at h
    all_goals simp only [ExtendedMantissa.roundedMantissa, ExtendedMantissa.accuracy, Accuracy.roundToNearestEven]
  case inl.true.false =>
    have heven : n % 2 = 0 := hends.resolve_right fun hinside => by linarith [hinside.2]
    rw [heven, Nat.add_zero]
  case inr.true.false =>
    have heven : (m + 1) % 2 = 0 := hends.resolve_right fun hinside => by linarith [hinside.1]
    omega
  all_goals linarith

end Represents

end

lemma targetExponent_single (q : Nat) (e : Int) :
    Format.binary32.targetExponent (totalExponent q e) = max (q.log2 + e - 23) (-149) := by
  simp only [Format.targetExponent, totalExponent, Format.mantissaBits, Format.minExponent]
  omega

namespace Canonical

variable {m : Nat} {e : Int}

lemma shiftToTargetExponent_eq (h : Canonical m e) :
    shiftToTargetExponent Format.binary32 m e .exact = (⟨m, false, false⟩, e) := by
  have hlog : m.log2 < 24 := (Nat.log2_lt h.pos.ne').mpr h.lt
  have hlow : 23 ≤ m.log2 ∨ e = -149 := h.normal.imp_left (Nat.le_log2 h.pos.ne').mpr
  have hleast := h.least
  have htarget : max ((m.log2 : Int) + e - 23) (-149) = e := by omega
  rw [shiftToTargetExponent, targetExponent_single, htarget, shiftToExponent, Int.sub_self]
  simp [ExtendedMantissa.ofMantissaAndAccuracy, HShiftRight.hShiftRight, Nat.repeat]

end Canonical

lemma shiftToTargetExponent_carry {e : Int} (he : -149 ≤ e) :
    shiftToTargetExponent Format.binary32 (2 ^ 24) e .exact = (⟨2 ^ 23, false, false⟩, e + 1) := by
  rw [shiftToTargetExponent, targetExponent_single, Nat.log2_two_pow, shiftToExponent,
    show ((max (((24 : ℕ) : Int) + e - 23) (-149) - e)).toNat = 1 by omega]
  rfl

namespace RoundsTo

variable {m : Nat} {e : Int} {x : ℚ}

lemma sub_half_le_lowEnd (m : Nat) (e : Int) : ((m : ℚ) - 1 / 2) * 2 ^ e ≤ lowEnd m e := by
  unfold lowEnd
  refine mul_le_mul_of_nonneg_right ?_ (by positivity)
  split <;> linarith

lemma two_zpow_le (hc : Canonical m e) (h : RoundsTo m e x) (hnormal : -149 < e) :
    (2 : ℚ) ^ (22 + e) ≤ x ∧ (x < 2 ^ (23 + e) → m = 2 ^ 23) := by
  have hpos : (0 : ℚ) < 2 ^ e := by positivity
  have hm := hc.normal.resolve_right (by omega)
  have hlow := (sub_half_le_lowEnd m e).trans h.low
  rw [zpow_add₀ two_ne_zero, zpow_add₀ two_ne_zero]
  constructor
  · have hm' : (2 : ℚ) ^ 23 ≤ m := by exact_mod_cast hm
    refine (mul_le_mul_of_nonneg_right ?_ hpos.le).trans hlow
    norm_num
    linarith
  · intro hx
    by_contra hne
    have hm' : (2 : ℚ) ^ 23 + 1 ≤ m := by exact_mod_cast Nat.lt_of_le_of_ne hm (Ne.symm hne)
    have hlt := lt_of_mul_lt_mul_right (hlow.trans_lt hx) hpos.le
    norm_num at hlt
    linarith

lemma lt_two_zpow (hc : Canonical m e) (h : RoundsTo m e x) : x < 2 ^ (24 + e) := by
  have hm : (m : ℚ) + 1 ≤ 2 ^ 24 := by exact_mod_cast hc.lt
  rw [zpow_add₀ two_ne_zero]
  refine h.high.trans_lt (mul_lt_mul_of_pos_right ?_ (by positivity))
  norm_num
  linarith

lemma self (m : Nat) (e : Int) : RoundsTo m e (m * 2 ^ e) := by
  have hpos : (0 : ℚ) < 2 ^ e := by positivity
  have hlow : lowEnd m e < m * 2 ^ e := by
    refine mul_lt_mul_of_pos_right ?_ hpos
    split <;> linarith
  have hhigh : m * 2 ^ e < highEnd m e := mul_lt_mul_of_pos_right (by linarith) hpos
  exact ⟨hlow.le, hhigh.le, Or.inr ⟨hlow, hhigh⟩⟩

lemma least_le (hc : Canonical m e) (h : RoundsTo m e x) : 2 ^ (-150 : ℤ) ≤ x := by
  have hm : (1 : ℚ) ≤ m := by exact_mod_cast hc.pos
  have hpow : (2 : ℚ) ^ (-149 : ℤ) ≤ 2 ^ e := zpow_le_zpow_right₀ one_le_two hc.least
  calc (2 : ℚ) ^ (-150 : ℤ) = 1 / 2 * 2 ^ (-149 : ℤ) := by norm_num
    _ ≤ ((m : ℚ) - 1 / 2) * 2 ^ e := mul_le_mul (by linarith) hpow (by positivity) (by linarith)
    _ ≤ x := (sub_half_le_lowEnd m e).trans h.low

lemma scaled (h : RoundsTo m e x) : (m : ℚ) - 1 / 2 ≤ x / 2 ^ e ∧ x / 2 ^ e ≤ m + 1 / 2 ∧
    (m % 2 = 0 ∨ (m : ℚ) - 1 / 2 < x / 2 ^ e ∧ x / 2 ^ e < m + 1 / 2) := by
  have hpos : (0 : ℚ) < 2 ^ e := by positivity
  have hlow := sub_half_le_lowEnd m e
  obtain ⟨hle, hge, hends⟩ := h
  rw [le_div_iff₀ hpos, div_le_iff₀ hpos, lt_div_iff₀ hpos, div_lt_iff₀ hpos]
  exact ⟨hlow.trans hle, hge, hends.imp_right fun hinside => ⟨hlow.trans_lt hinside.1, hinside.2⟩⟩

end RoundsTo

lemma Canonical.highEnd_le_lowEnd {m m' : Nat} {e e' : Int} (h : Canonical m e) (h' : Canonical m' e')
    (hlt : e < e' ∨ e = e' ∧ m < m') : highEnd m e ≤ lowEnd m' e' := by
  have hpos : (0 : ℚ) < 2 ^ e := by positivity
  rcases hlt with hlt | ⟨rfl, hlt⟩
  · have hm : (m : ℚ) + 1 ≤ 2 ^ 24 := by exact_mod_cast h.lt
    have hm' := h'.normal.resolve_right (by have := h.least; omega)
    -- The interval of the first number of a binade reaches less far down than those behind it.
    have hstart : (2 : ℚ) ^ 23 - 1 / 4 ≤ if m' = 2 ^ 23 ∧ -149 < e' then (m' : ℚ) - 1 / 4 else m' - 1 / 2 := by
      split
      case isTrue heq =>
        rw [heq.1]
        norm_num
      case isFalse hne =>
        have hnext : 2 ^ 23 + 1 ≤ m' := by
          have := h.least
          omega
        have hnext' : (2 : ℚ) ^ 23 + 1 ≤ m' := by exact_mod_cast hnext
        linarith
    have hdouble : (2 : ℚ) * 2 ^ e ≤ 2 ^ e' := by
      rw [← zpow_one_add₀ two_ne_zero]
      exact zpow_le_zpow_right₀ one_le_two (by omega)
    calc highEnd m e ≤ (2 ^ 24 - 1 / 2) * 2 ^ e := mul_le_mul_of_nonneg_right (by linarith) hpos.le
      _ = (2 ^ 23 - 1 / 4) * (2 * 2 ^ e) := by ring
      _ ≤ (2 ^ 23 - 1 / 4) * 2 ^ e' := mul_le_mul_of_nonneg_left hdouble (by norm_num)
      _ ≤ lowEnd m' e' := mul_le_mul_of_nonneg_right hstart (by positivity)
  · have hnext : (m : ℚ) + 1 ≤ m' := by exact_mod_cast hlt
    exact (mul_le_mul_of_nonneg_right (by linarith) hpos.le).trans (RoundsTo.sub_half_le_lowEnd m' e)

section

variable {q : Nat} {e : Int} {acc : Accuracy} {r : ℚ} {m : Nat} {t : Int}

lemma mantissa_ofMantissaAndAccuracy (q : Nat) (acc : Accuracy) :
    (ExtendedMantissa.ofMantissaAndAccuracy q acc).mantissa = q := by
  unfold ExtendedMantissa.ofMantissaAndAccuracy
  split <;> rfl

/-- A number with fewer bits than a mantissa takes is not shifted to the left, so that there must be
enough bits to begin with. -/
def EnoughBits (q : Nat) (e : Int) : Prop := e ≤ max (q.log2 + e - 23) (-149)

lemma represents_shiftToTargetExponent (hr : Represents (.ofMantissaAndAccuracy q acc) r)
    (he : EnoughBits q e) (ht : t = max (q.log2 + e - 23) (-149)) :
    ∃ em, shiftToTargetExponent Format.binary32 q e acc = (em, t) ∧ Represents em (r * 2 ^ e / 2 ^ t) := by
  obtain ⟨k, hk⟩ : ∃ k : ℕ, t = e + k := ⟨(t - e).toNat, by unfold EnoughBits at he; omega⟩
  refine ⟨ExtendedMantissa.ofMantissaAndAccuracy q acc >>> k, ?_, ?_⟩
  · rw [shiftToTargetExponent, targetExponent_single, ← ht, shiftToExponent, hk,
      add_sub_cancel_left, Int.toNat_natCast]
  · have hshift := hr.shiftRight k
    have hpos : (2 : ℚ) ^ e ≠ 0 := by positivity
    rwa [hk, zpow_add₀ two_ne_zero, zpow_natCast, mul_comm r, mul_div_mul_left _ _ hpos]

lemma target_cases (hr : Represents (.ofMantissaAndAccuracy q acc) r) {f : Int} (hf : EnoughBits q f)
    (hc : Canonical m e) (h : RoundsTo m e (r * 2 ^ f)) (ht : t = max (q.log2 + f - 23) (-149)) :
    t = e ∨ t + 1 = e ∧ m = 2 ^ 23 ∧ -149 < e ∧ r * 2 ^ f < 2 ^ (23 + e) := by
  have hpos : (0 : ℚ) < 2 ^ f := by positivity
  obtain ⟨hle, hlt⟩ := hr.bounds
  rw [mantissa_ofMantissaAndAccuracy] at hle hlt
  have hleast := hc.least
  have hhigh : t ≤ e := by
    rcases Nat.eq_zero_or_pos q with rfl | hq
    · rw [Nat.log2_zero] at ht
      unfold EnoughBits at hf
      rw [Nat.log2_zero] at hf
      omega
    · have hlog : ((2 ^ q.log2 : ℕ) : ℚ) ≤ q := by exact_mod_cast Nat.log2_self_le hq.ne'
      have hpow : (2 : ℚ) ^ (q.log2 + f) < 2 ^ (24 + e) := by
        refine lt_of_le_of_lt ?_ (h.lt_two_zpow hc)
        rw [zpow_add₀ two_ne_zero, zpow_natCast]
        exact mul_le_mul_of_nonneg_right (by push_cast at hlog; linarith) hpos.le
      have hexponent := (zpow_lt_zpow_iff_right₀ one_lt_two).mp hpow
      omega
  have hbelow : r * 2 ^ f < 2 ^ ((q.log2 : ℤ) + 1 + f) := by
    have hlog : ((q + 1 : ℕ) : ℚ) ≤ ((2 ^ (q.log2 + 1) : ℕ) : ℚ) := by exact_mod_cast Nat.lt_log2_self
    rw [zpow_add₀ two_ne_zero]
    refine mul_lt_mul_of_pos_right ?_ hpos
    push_cast at hlog
    exact_mod_cast hlt.trans_le hlog
  by_cases htiny : e = -149
  · omega
  by_cases heq : t = e
  · exact Or.inl heq
  obtain ⟨hlow, hstart⟩ := h.two_zpow_le hc (by omega)
  have hexponent := (zpow_lt_zpow_iff_right₀ one_lt_two).mp (hlow.trans_lt hbelow)
  have hx : r * 2 ^ f < 2 ^ (23 + e) := by
    refine hbelow.trans_le (zpow_le_zpow_right₀ one_le_two ?_)
    omega
  exact Or.inr ⟨by omega, hstart hx, by omega, hx⟩

lemma roundWithAccuracy_eq_finite (hr : Represents (.ofMantissaAndAccuracy q acc) r) {f : Int}
    (hf : EnoughBits q f) (hc : Canonical m e) (h : RoundsTo m e (r * 2 ^ f)) (s : Sign) :
    roundWithAccuracy Format.binary32 s q f acc = .finite s m e hc.pos := by
  obtain ⟨em, hshift, hem⟩ := represents_shiftToTargetExponent hr hf rfl
  unfold roundWithAccuracy
  rcases target_cases hr hf hc h rfl with ht | ⟨ht, rfl, hnormal, hlt⟩
  · rw [ht] at hshift hem
    obtain ⟨hlow, hhigh, hends⟩ := h.scaled
    simp only [hshift, hem.roundedMantissa_eq hlow hhigh hends, hc.shiftToTargetExponent_eq,
      dif_neg hc.pos.ne']
  · -- The mantissa is rounded up to `2 ^ 24`, and is then shifted once more.
    obtain ⟨t, rfl⟩ : ∃ t, e = t + 1 := ⟨e - 1, by omega⟩
    rw [show max ((q.log2 : ℤ) + f - 23) (-149) = t by omega] at hshift hem
    have hcarry : em.roundedMantissa = 2 ^ 24 := by
      have hpos : (0 : ℚ) < 2 ^ t := by positivity
      have hlow : ((2 ^ 24 : ℕ) : ℚ) - 1 / 2 ≤ r * 2 ^ f / 2 ^ t := by
        have hle := h.low
        rw [lowEnd, if_pos ⟨rfl, hnormal⟩, zpow_add_one₀ two_ne_zero] at hle
        rw [le_div_iff₀ hpos]
        push_cast at hle ⊢
        linarith
      have hhigh : r * 2 ^ f / 2 ^ t < ((2 ^ 24 : ℕ) : ℚ) := by
        rw [show (23 : ℤ) + (t + 1) = 24 + t by omega, zpow_add₀ two_ne_zero] at hlt
        rw [div_lt_iff₀ hpos]
        push_cast
        exact_mod_cast hlt
      exact hem.roundedMantissa_eq hlow (by linarith) (Or.inl rfl)
    simp only [hshift, hcarry, shiftToTargetExponent_carry (show -149 ≤ t by omega)]
    rfl

lemma round_eq_finite (hq : 0 < q) {f : Int} (hc : Canonical m e) (h : RoundsTo m e (q * 2 ^ f)) (s : Sign) :
    UnpackedFloat.round Format.binary32 s q f = .finite s m e hc.pos := by
  simp only [UnpackedFloat.round, targetExponent_single, decreaseExponent, Nat.shiftLeft_eq]
  generalize hj : (f - max ((q.log2 : ℤ) + f - 23) (-149)).toNat = j
  have hbits : EnoughBits (q * 2 ^ j) (f - j) := by
    unfold EnoughBits
    rw [log2_mul_two_pow hq]
    omega
  refine roundWithAccuracy_eq_finite (represents_exact _) hbits hc ?_ s
  rwa [Nat.cast_mul, Nat.cast_pow, Nat.cast_two, mul_assoc, ← zpow_natCast, ← zpow_add₀ two_ne_zero,
    add_sub_cancel]

lemma enoughBits_quotient {a b j : Nat} (ha : 0 < a) (hb : 0 < b) {f : Int}
    (hf : f ≤ -149 ∨ (b.log2 : ℤ) + 24 ≤ a.log2 + j) : EnoughBits (a * 2 ^ j / b) f := by
  rcases hf with htiny | hlog
  · exact htiny.trans (le_max_right _ _)
  have hquotient : 2 ^ 23 ≤ a * 2 ^ j / b := by
    rw [Nat.le_div_iff_mul_le hb]
    calc 2 ^ 23 * b ≤ 2 ^ 23 * 2 ^ (b.log2 + 1) := Nat.mul_le_mul_left _ Nat.lt_log2_self.le
      _ = 2 ^ (b.log2 + 24) := by rw [← Nat.pow_add]; congr 1; omega
      _ ≤ 2 ^ (a.log2 + j) := Nat.pow_le_pow_right two_pos (by omega)
      _ = 2 ^ a.log2 * 2 ^ j := Nat.pow_add ..
      _ ≤ a * 2 ^ j := Nat.mul_le_mul_right _ (Nat.log2_self_le ha.ne')
  have hlog' : 23 ≤ (a * 2 ^ j / b).log2 := (Nat.le_log2 (by omega)).mpr hquotient
  unfold EnoughBits
  omega

lemma represents_quotient (a : Nat) {b : Nat} (hb : 0 < b) :
    Represents (.ofMantissaAndAccuracy (a / b) (accuracyOfFraction (a % b) b)) ((a : ℚ) / b) := by
  have hb' : (b : ℚ) ≠ 0 := by exact_mod_cast hb.ne'
  have hdivision : (a : ℚ) / b = (a / b : ℕ) + (a % b : ℕ) / b := by
    rw [div_eq_iff hb', add_mul, div_mul_cancel₀ _ hb']
    exact_mod_cast (Nat.div_add_mod' a b).symm
  rw [hdivision]
  exact represents_fraction _ (Nat.mod_lt _ hb)

lemma div_eq_finite {a b : Nat} {f g : Int} (ha : 0 < a) (hb : 0 < b) (hc : Canonical m e)
    (h : RoundsTo m e (a * 2 ^ f / (b * 2 ^ g))) (s s' : Sign) :
    UnpackedFloat.div Format.binary32 (.finite s a f ha) (.finite s' b g hb) = .finite (s / s') m e hc.pos := by
  have htarget : Format.binary32.targetExponent (totalExponent a f - totalExponent b g) =
      max ((a.log2 : ℤ) + f - b.log2 - g - 24) (-149) := by
    simp only [Format.targetExponent, totalExponent, Format.mantissaBits, Format.minExponent]
    omega
  simp only [UnpackedFloat.div, divCore, htarget, Nat.shiftLeft_eq]
  generalize ht : min (f - g) (max ((a.log2 : ℤ) + f - b.log2 - g - 24) (-149)) = t
  obtain ⟨j, hj⟩ : ∃ j : ℕ, f - g - t = j := ⟨(f - g - t).toNat, by omega⟩
  rw [hj, Int.toNat_natCast]
  refine roundWithAccuracy_eq_finite (represents_quotient _ hb)
    (enoughBits_quotient ha hb (by omega)) hc ?_ _
  have hvalue : ((a * 2 ^ j : ℕ) : ℚ) / b * 2 ^ t = a * 2 ^ f / (b * 2 ^ g) := by
    obtain rfl : f = g + t + j := by omega
    rw [zpow_add₀ two_ne_zero, zpow_add₀ two_ne_zero, zpow_natCast]
    push_cast
    field_simp
  rwa [hvalue]

end

end VideoRemap.Number

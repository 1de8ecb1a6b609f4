import VideoRemap.Proofs.Interval
import VideoRemap.Proofs.Number.Compare

/-!
Intervals between doubles that hold whole numbers. As long as the endpoints of the result are small
enough, every operation gives the interval that it gives with exact endpoints.
-/

namespace VideoRemap

open Number

namespace Number.IsInt

variable {x y : Float} {a b : Int}

lemma leastNumber (hx : IsInt x a) (hy : IsInt y b) : IsInt (leastNumber x y) (min a b) := by
  have hlt := hx.lt_iff hy
  by_cases h : a < b
  · simp only [VideoRemap.leastNumber, hlt.mpr h, decide_true, Bool.true_or, if_true]
    rw [Int.min_eq_left (Int.le_of_lt h)]
    exact hx
  · simp only [VideoRemap.leastNumber, mt hlt.mp h, hy.isNaN, decide_false, Bool.or_self]
    rw [Int.min_eq_right (Int.le_of_not_gt h)]
    exact hy

lemma greatestNumber (hx : IsInt x a) (hy : IsInt y b) : IsInt (greatestNumber x y) (max a b) := by
  have hlt := hy.lt_iff hx
  by_cases h : b < a
  · simp only [VideoRemap.greatestNumber, hlt.mpr h, decide_true, Bool.true_or, if_true]
    rw [Int.max_eq_left (Int.le_of_lt h)]
    exact hx
  · simp only [VideoRemap.greatestNumber, mt hlt.mp h, hy.isNaN, decide_false, Bool.or_self]
    rw [Int.max_eq_right (Int.le_of_not_gt h)]
    exact hy

lemma leastNumber_infinity (hx : IsInt x a) : VideoRemap.leastNumber positiveInfinity x = x := by
  have hnot : ¬ positiveInfinity < x := by
    have hholds : Holds x.toModel.unpack a := hx
    rw [lt_iff_compare, show positiveInfinity.toModel.unpack = .infinity .positive from rfl]
    generalize x.toModel.unpack = u at hholds
    cases hholds with
    | zero s => exact fun h => nomatch h
    | finite s hpos hlt hm => exact fun h => nomatch h
  simp only [VideoRemap.leastNumber, hnot, hx.isNaN, decide_false, Bool.or_self]
  rfl

lemma greatestNumber_infinity (hx : IsInt x a) :
    VideoRemap.greatestNumber (-positiveInfinity) x = x := by
  have hnot : ¬ x < -positiveInfinity := by
    have hholds : Holds x.toModel.unpack a := hx
    rw [lt_iff_compare, show (-positiveInfinity).toModel.unpack = .infinity .negative from rfl]
    generalize x.toModel.unpack = u at hholds
    cases hholds with
    | zero s => exact fun h => nomatch h
    | finite s hpos hlt hm => cases s <;> exact fun h => nomatch h
  simp only [VideoRemap.greatestNumber, hnot, hx.isNaN, decide_false, Bool.or_self]
  rfl

end Number.IsInt

namespace Interval

def Fits (i : Interval Int) : Prop := i.a.natAbs + 1 < 2 ^ 53 ∧ i.b.natAbs + 1 < 2 ^ 53

instance (i : Interval Int) : Decidable i.Fits := inferInstanceAs (Decidable (_ ∧ _))

/-- The doubles at the ends are exactly the ends of `j`, and so would be the next whole numbers. -/
structure Holds (i : Interval Float) (j : Interval Int) : Prop where
  start : IsInt i.a j.a
  stop : IsInt i.b j.b
  fits : j.Fits

lemma Nested.fits {i j : Interval Int} (h : i.Nested j) (hfits : j.Fits) : i.Fits := by
  obtain ⟨hstart, hordered, hstop⟩ := h
  unfold Fits at hfits ⊢
  omega

section

variable {i i' : Interval Float} {j j' : Interval Int}

lemma isInt_zero : IsInt (Endpoint.ofInt 0 : Float) 0 := IsInt.ofInt (by decide)

lemma holds_point {k : Int} (hk : k.natAbs + 1 < 2 ^ 53) :
    (point (Endpoint.ofInt k : Float)).Holds (point k) where
  start := IsInt.ofInt (Nat.lt_of_succ_lt hk)
  stop := IsInt.ofInt (Nat.lt_of_succ_lt hk)
  fits := ⟨hk, hk⟩

lemma holds_between {x y : Float} {a b : Int} (hx : IsInt x a) (hy : IsInt y b)
    (ha : a.natAbs + 1 < 2 ^ 53) (hb : b.natAbs + 1 < 2 ^ 53) :
    (between x y).Holds (between a b) := by
  have hle := hx.le_iff hy
  by_cases h : a ≤ b
  · rw [between_eq h, between, if_pos (hle.mpr h)]
    exact ⟨hx, hy, ha, hb⟩
  · rw [between, between, if_neg h, if_neg (mt hle.mp h)]
    exact ⟨hy, hx, hb, ha⟩

lemma Holds.add (hi : i.Holds j) (hi' : i'.Holds j') (hfits : (j.add j').Fits) :
    (i.add i').Holds (j.add j') where
  start := hi.start.add hi'.start (Nat.lt_of_succ_lt hfits.1)
  stop := hi.stop.add hi'.stop (Nat.lt_of_succ_lt hfits.2)
  fits := hfits

lemma Holds.scale (hi : i.Holds j) {x : Float} {k : Int} (hx : IsInt x k)
    (hfits : (j.scale k).Fits) : (i.scale x).Holds (j.scale k) := by
  have hle := isInt_zero.le_iff hx
  by_cases hk : 0 ≤ k
  · rw [scale_of_nonneg hk] at hfits ⊢
    rw [Interval.scale, if_pos (hle.mpr hk)]
    exact ⟨hi.start.mul hx (Nat.lt_of_succ_lt hfits.1), hi.stop.mul hx (Nat.lt_of_succ_lt hfits.2), hfits⟩
  · rw [scale_of_neg hk] at hfits ⊢
    rw [Interval.scale, if_neg (mt hle.mp hk)]
    exact ⟨hi.stop.mul hx (Nat.lt_of_succ_lt hfits.1), hi.start.mul hx (Nat.lt_of_succ_lt hfits.2), hfits⟩

lemma Holds.clamp (hi : i.Holds j) {x y : Float} {low high : Int} (hx : IsInt x low)
    (hy : IsInt y high) (hlow : low.natAbs + 1 < 2 ^ 53) (hhigh : high.natAbs + 1 < 2 ^ 53) :
    (i.clamp x y).Holds (j.clamp low high) where
  start := (hi.start.greatestNumber hx).leastNumber hy
  stop := (hi.stop.greatestNumber hx).leastNumber hy
  fits := by
    rw [clamp_eq]
    constructor <;> simp only <;> omega

lemma Holds.mul (hi : i.Holds j) (hi' : i'.Holds j') (hfits : (j.mul j').Fits) :
    (i.mul i').Holds (j.mul j') := by
  have hends := hfits
  rw [mul_eq] at hends
  obtain ⟨hlow, hhigh⟩ := hends
  simp only at hlow hhigh
  have haa := hi.start.mul hi'.start (by omega)
  have hab := hi.start.mul hi'.stop (by omega)
  have hba := hi.stop.mul hi'.start (by omega)
  have hbb := hi.stop.mul hi'.stop (by omega)
  refine ⟨?_, ?_, hfits⟩
  · change IsInt (leastNumber (leastNumber (leastNumber (leastNumber positiveInfinity _) _) _) _) _
    rw [haa.leastNumber_infinity]
    exact ((haa.leastNumber hab).leastNumber hba).leastNumber hbb
  · change IsInt (greatestNumber (greatestNumber (greatestNumber
      (greatestNumber (-positiveInfinity) _) _) _) _) _
    rw [haa.greatestNumber_infinity]
    exact ((haa.greatestNumber hab).greatestNumber hba).greatestNumber hbb

lemma Holds.radius (hi : i.Holds j) : IsInt i.radius j.radius := by
  have hdistance {x : Float} {a : Int} (hx : IsInt x a) :
      IsInt (if Endpoint.ofInt 0 ≤ x then x else -x) (if 0 ≤ a then a else -a) := by
    have hle := isInt_zero.le_iff hx
    by_cases ha : 0 ≤ a
    · rw [if_pos ha, if_pos (hle.mpr ha)]
      exact hx
    · rw [if_neg ha, if_neg (mt hle.mp ha)]
      exact hx.neg
  exact (hdistance hi.start).greatestNumber (hdistance hi.stop)

lemma Holds.remainder (hi : i.Holds j) (hi' : i'.Holds j') :
    (i.remainder i').Holds (j.remainder j') := by
  have hsigns : Endpoint.ofInt 0 ≤ i.a ∧ Endpoint.ofInt 0 < i'.a ↔ 0 ≤ j.a ∧ 0 < j'.a :=
    and_congr (isInt_zero.le_iff hi.start) (isInt_zero.lt_iff hi'.start)
  have hsmall := hi.stop.lt_iff hi'.start
  have hradius : j'.radius.natAbs + 1 < 2 ^ 53 := by
    obtain ⟨hstart, hstop⟩ := hi'.fits
    rw [radius_eq]
    omega
  rw [remainder_eq, Interval.remainder]
  by_cases h : 0 ≤ j.a ∧ 0 < j'.a
  · rw [if_pos h, if_pos (hsigns.mpr h)]
    by_cases h' : j.b < j'.a
    · rw [if_pos h', if_pos (hsmall.mpr h')]
      exact hi
    · rw [if_neg h', if_neg (mt hsmall.mp h')]
      exact holds_between isInt_zero hi'.stop (by decide) hi'.fits.2
  · rw [if_neg h, if_neg (mt hsigns.mp h)]
    exact holds_between hi'.radius.neg hi'.radius ((Int.natAbs_neg _).symm ▸ hradius) hradius

lemma Holds.cover (hi : i.Holds j) {n : Nat} (hn : n < 2 ^ 53) : i.cover n = j.cover n := by
  have hbelow : Endpoint.indexBelow n i.a = min j.a.toNat n := hi.start.floor.indexUpTo hn
  have hone : (j.b + 1).natAbs < 2 ^ 53 := Nat.lt_of_le_of_lt (Int.natAbs_add_le j.b 1) hi.fits.2
  have hpast : Endpoint.indexPast n i.b = min (j.b + 1).toNat n :=
    (hi.stop.ceil.add (IsInt.ofInt (z := 1) (by decide)) hone).indexUpTo hn
  have hnumbers : (Endpoint.isNumber i.a : Bool) = true ∧ (Endpoint.isNumber i.b : Bool) = true :=
    ⟨congrArg not hi.start.isNaN, congrArg not hi.stop.isNaN⟩
  simp only [Interval.cover, if_pos hnumbers, hbelow, hpast]
  rfl

end

end Interval

end VideoRemap

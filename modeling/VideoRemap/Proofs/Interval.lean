import Mathlib.Tactic.Lemma
import VideoRemap.Interval

namespace VideoRemap

structure FrameRange.Nested (r r' : FrameRange) : Prop where
  start_le : r'.start ≤ r.start
  ordered : r.start ≤ r.stop
  stop_le : r.stop ≤ r'.stop

lemma FrameRange.Nested.mem_of_mem {r r' : FrameRange} (h : r.Nested r') {k : Nat} (hk : k ∈ r) : k ∈ r' :=
  ⟨Nat.le_trans h.start_le hk.1, Nat.lt_of_lt_of_le hk.2 h.stop_le⟩

namespace Interval

structure Nested (i j : Interval Int) : Prop where
  start_le : j.a ≤ i.a
  ordered : i.a ≤ i.b
  le_stop : i.b ≤ j.b

section

variable {i i' j j' : Interval Int}

lemma nested_point (v : Int) : (point v).Nested (point v) :=
  ⟨Int.le_refl v, Int.le_refl v, Int.le_refl v⟩

lemma Nested.add (h : i.Nested i') (h' : j.Nested j') : (i.add j).Nested (i'.add j') where
  start_le := Int.add_le_add h.start_le h'.start_le
  ordered := Int.add_le_add h.ordered h'.ordered
  le_stop := Int.add_le_add h.le_stop h'.le_stop

lemma scale_of_nonneg {k : Int} (hk : 0 ≤ k) (i : Interval Int) : i.scale k = ⟨i.a * k, i.b * k⟩ :=
  if_pos hk

lemma scale_of_neg {k : Int} (hk : ¬ 0 ≤ k) (i : Interval Int) : i.scale k = ⟨i.b * k, i.a * k⟩ :=
  if_neg hk

lemma Nested.scale (h : i.Nested j) (k : Int) : (i.scale k).Nested (j.scale k) := by
  by_cases hk : 0 ≤ k
  · rw [scale_of_nonneg hk, scale_of_nonneg hk]
    exact ⟨Int.mul_le_mul_of_nonneg_right h.start_le hk, Int.mul_le_mul_of_nonneg_right h.ordered hk,
      Int.mul_le_mul_of_nonneg_right h.le_stop hk⟩
  · have hk' : k ≤ 0 := by omega
    rw [scale_of_neg hk, scale_of_neg hk]
    exact ⟨Int.mul_le_mul_of_nonpos_right h.le_stop hk', Int.mul_le_mul_of_nonpos_right h.ordered hk',
      Int.mul_le_mul_of_nonpos_right h.start_le hk'⟩

lemma clamp_eq (low high : Int) (i : Interval Int) :
    i.clamp low high = ⟨min (max i.a low) high, min (max i.b low) high⟩ := rfl

lemma Nested.clamp (h : i.Nested j) (low high : Int) : (i.clamp low high).Nested (j.clamp low high) := by
  obtain ⟨hstart, hordered, hstop⟩ := h
  rw [clamp_eq, clamp_eq]
  constructor <;> simp only <;> omega

lemma mul_eq (i j : Interval Int) : i.mul j =
    ⟨min (min (min (i.a * j.a) (i.a * j.b)) (i.b * j.a)) (i.b * j.b),
      max (max (max (i.a * j.a) (i.a * j.b)) (i.b * j.a)) (i.b * j.b)⟩ := rfl

lemma mul_between {u v c d : Int} (hc : c ≤ v) (hd : v ≤ d) :
    min (u * c) (u * d) ≤ u * v ∧ u * v ≤ max (u * c) (u * d) := by
  rcases Int.le_total 0 u with hu | hu
  · have h₁ := Int.mul_le_mul_of_nonneg_left hc hu
    have h₂ := Int.mul_le_mul_of_nonneg_left hd hu
    omega
  · have h₁ := Int.mul_le_mul_of_nonpos_left hu hc
    have h₂ := Int.mul_le_mul_of_nonpos_left hu hd
    omega

lemma mul_bounds {u v : Int} (hu : i.a ≤ u ∧ u ≤ i.b) (hv : j.a ≤ v ∧ v ≤ j.b) :
    (i.mul j).a ≤ u * v ∧ u * v ≤ (i.mul j).b := by
  have hright := mul_between (u := u) hv.1 hv.2
  have hlow := mul_between (u := j.a) hu.1 hu.2
  have hhigh := mul_between (u := j.b) hu.1 hu.2
  rw [Int.mul_comm j.a, Int.mul_comm j.a, Int.mul_comm j.a] at hlow
  rw [Int.mul_comm j.b, Int.mul_comm j.b, Int.mul_comm j.b] at hhigh
  rw [mul_eq]
  simp only
  omega

lemma Nested.mul (h : i.Nested i') (h' : j.Nested j') : (i.mul j).Nested (i'.mul j') := by
  have ha : i'.a ≤ i.a ∧ i.a ≤ i'.b := ⟨h.start_le, Int.le_trans h.ordered h.le_stop⟩
  have hb : i'.a ≤ i.b ∧ i.b ≤ i'.b := ⟨Int.le_trans h.start_le h.ordered, h.le_stop⟩
  have hc : j'.a ≤ j.a ∧ j.a ≤ j'.b := ⟨h'.start_le, Int.le_trans h'.ordered h'.le_stop⟩
  have hd : j'.a ≤ j.b ∧ j.b ≤ j'.b := ⟨Int.le_trans h'.start_le h'.ordered, h'.le_stop⟩
  have hac := mul_bounds ha hc
  have had := mul_bounds ha hd
  have hbc := mul_bounds hb hc
  have hbd := mul_bounds hb hd
  rw [mul_eq i j]
  constructor <;> simp only <;> omega

lemma between_eq {a b : Int} (h : a ≤ b) : between a b = ⟨a, b⟩ := if_pos h

lemma radius_eq (i : Interval Int) :
    i.radius = max (if 0 ≤ i.a then i.a else -i.a) (if 0 ≤ i.b then i.b else -i.b) := rfl

lemma remainder_eq (i j : Interval Int) : i.remainder j =
    if 0 ≤ i.a ∧ 0 < j.a then if i.b < j.a then i else between 0 j.b
    else between (-j.radius) j.radius := rfl

lemma radius_bounds (j : Interval Int) :
    0 ≤ j.radius ∧ -j.radius ≤ j.a ∧ j.a ≤ j.radius ∧ -j.radius ≤ j.b ∧ j.b ≤ j.radius := by
  rw [radius_eq]
  omega

lemma Nested.radius_le (h : j.Nested j') : j.radius ≤ j'.radius := by
  have := radius_bounds j'
  have := h.start_le
  have := h.ordered
  have := h.le_stop
  rw [radius_eq j]
  omega

lemma remainder_cases (i j : Interval Int) (hj : j.a ≤ j.b) :
    (0 ≤ i.a ∧ 0 < j.a ∧ i.b < j.a ∧ i.remainder j = i) ∨
    (0 ≤ i.a ∧ 0 < j.a ∧ j.a ≤ i.b ∧ i.remainder j = ⟨0, j.b⟩) ∨
    (¬ (0 ≤ i.a ∧ 0 < j.a) ∧ i.remainder j = ⟨-j.radius, j.radius⟩) := by
  rw [remainder_eq]
  by_cases hsigns : 0 ≤ i.a ∧ 0 < j.a
  · by_cases hsmall : i.b < j.a
    · exact Or.inl ⟨hsigns.1, hsigns.2, hsmall, by rw [if_pos hsigns, if_pos hsmall]⟩
    · refine Or.inr (Or.inl ⟨hsigns.1, hsigns.2, by omega, ?_⟩)
      rw [if_pos hsigns, if_neg hsmall, between_eq (by omega)]
  · have := radius_bounds j
    exact Or.inr (Or.inr ⟨hsigns, by rw [if_neg hsigns, between_eq (by omega)]⟩)

lemma remainder_nested_radius (hi : i.a ≤ i.b) (hj : j.a ≤ j.b) :
    (i.remainder j).Nested ⟨-j.radius, j.radius⟩ := by
  have hbounds := radius_bounds j
  rcases remainder_cases i j hj with ⟨hsign, _, hsmall, heq⟩ | ⟨_, hsign, _, heq⟩ | ⟨_, heq⟩
  · rw [heq]
    exact ⟨by simp only; omega, hi, by simp only; omega⟩
  · rw [heq]
    exact ⟨by simp only; omega, by simp only; omega, hbounds.2.2.2.2⟩
  · rw [heq]
    exact ⟨Int.le_refl _, by simp only; omega, Int.le_refl _⟩

lemma Nested.remainder (h : i.Nested i') (h' : j.Nested j') :
    (i.remainder j).Nested (i'.remainder j') := by
  have hinner := remainder_cases i j h'.ordered
  have hradius := h'.radius_le
  have hwithin := remainder_nested_radius h.ordered h'.ordered
  obtain ⟨hstart, hordered, hstop⟩ := h
  obtain ⟨hstart', hordered', hstop'⟩ := h'
  rcases remainder_cases i' j' (by omega) with
    ⟨hdividend, hdivisor, hsmall, heq⟩ | ⟨hdividend, hdivisor, hlarge, heq⟩ | ⟨hsigns, heq⟩
  · -- The wider dividend is its own remainder, and so is the narrower one.
    have hself : i.remainder j = i := by
      rcases hinner with ⟨_, _, _, hself⟩ | ⟨_, _, _, _⟩ | ⟨_, _⟩
      · exact hself
      all_goals omega
    rw [hself, heq]
    exact ⟨hstart, hordered, hstop⟩
  · rw [heq]
    rcases hinner with ⟨_, _, _, heq⟩ | ⟨_, _, _, heq⟩ | ⟨_, _⟩
    · rw [heq]
      exact ⟨by simp only; omega, hordered, by simp only; omega⟩
    · rw [heq]
      exact ⟨Int.le_refl 0, by simp only; omega, hstop'⟩
    · omega
  · rw [heq]
    exact ⟨Int.le_trans (Int.neg_le_neg hradius) hwithin.start_le, hwithin.ordered,
      Int.le_trans hwithin.le_stop hradius⟩

lemma cover_eq (n : Nat) (i : Interval Int) : i.cover n =
    ⟨min (min i.a.toNat n) (min (i.b + 1).toNat n), min (i.b + 1).toNat n⟩ := rfl

lemma mem_cover {n k : Nat} (h : i.a ≤ i.b) :
    k ∈ i.cover n ↔ i.a.toNat ≤ k ∧ (k : Int) ≤ i.b ∧ k < n := by
  rw [cover_eq]
  change _ ≤ k ∧ k < _ ↔ _
  simp only
  omega

lemma size_cover_le (n : Nat) (i : Interval Int) : (i.cover n).size ≤ n := by
  have hstop : (i.cover n).stop ≤ n := Nat.min_le_right _ _
  rw [FrameRange.size]
  omega

lemma Nested.cover (h : i.Nested j) (n : Nat) : (i.cover n).Nested (j.cover n) := by
  obtain ⟨hstart, hordered, hstop⟩ := h
  rw [cover_eq, cover_eq]
  constructor <;> simp only <;> omega

end

section

variable {i j : Interval Int} {u v : Int}

instance : Membership Int (Interval Int) := ⟨fun i v => i.a ≤ v ∧ v ≤ i.b⟩

instance (v : Int) (i : Interval Int) : Decidable (v ∈ i) := inferInstanceAs (Decidable (_ ∧ _))

lemma mem_point (v : Int) : v ∈ point v := ⟨Int.le_refl v, Int.le_refl v⟩

lemma mem_add (hu : u ∈ i) (hv : v ∈ j) : u + v ∈ i.add j :=
  ⟨Int.add_le_add hu.1 hv.1, Int.add_le_add hu.2 hv.2⟩

lemma mem_mul (hu : u ∈ i) (hv : v ∈ j) : u * v ∈ i.mul j := mul_bounds hu hv

lemma mem_scale (hu : u ∈ i) (k : Int) : u * k ∈ i.scale k := by
  by_cases hk : 0 ≤ k
  · rw [scale_of_nonneg hk]
    exact ⟨Int.mul_le_mul_of_nonneg_right hu.1 hk, Int.mul_le_mul_of_nonneg_right hu.2 hk⟩
  · have hk' : k ≤ 0 := by omega
    rw [scale_of_neg hk]
    exact ⟨Int.mul_le_mul_of_nonpos_right hu.2 hk', Int.mul_le_mul_of_nonpos_right hu.1 hk'⟩

lemma mem_clamp {low high : Int} (h : low ≤ high) (hu : u ∈ i) :
    max low (min u high) ∈ i.clamp low high := by
  obtain ⟨hstart, hstop⟩ := hu
  rw [clamp_eq]
  constructor <;> simp only <;> omega

lemma tmod_bounds (u : Int) (hv : v ≠ 0) :
    (0 ≤ u → 0 ≤ u.tmod v) ∧ -(v.natAbs : Int) < u.tmod v ∧ u.tmod v < v.natAbs := by
  have hnear : (u.tmod v).natAbs < v.natAbs := by
    rw [Int.natAbs_tmod]
    exact Nat.mod_lt _ (Int.natAbs_pos.mpr hv)
  exact ⟨fun hu => Int.tmod_nonneg v hu, by omega, by omega⟩

lemma mem_remainder (hv₀ : v ≠ 0) (hu : u ∈ i) (hv : v ∈ j) : u.tmod v ∈ i.remainder j := by
  obtain ⟨hsign, hlow, hhigh⟩ := tmod_bounds u hv₀
  have hradius := radius_bounds j
  obtain ⟨hstart, hstop⟩ := hu
  obtain ⟨hstart', hstop'⟩ := hv
  rcases remainder_cases i j (by omega) with
    ⟨hdividend, _, hsmall, heq⟩ | ⟨hdividend, _, _, heq⟩ | ⟨_, heq⟩
  · rw [heq, Int.tmod_eq_of_lt (by omega) (by omega)]
    exact ⟨hstart, hstop⟩
  · rw [heq]
    constructor <;> simp only <;> omega
  · rw [heq]
    constructor <;> simp only <;> omega

end

end Interval

end VideoRemap

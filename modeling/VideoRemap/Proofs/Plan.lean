import Mathlib.Algebra.Group.Nat.Defs
import Mathlib.Data.Set.Operations
import Mathlib.Order.Bounds.Defs
import VideoRemap.Plan
import VideoRemap.Proofs.Expr.Bound

/-!
What a plan keeps. Where more output frames need all source frames that fewer of them need, the
frames kept for later and those loaded for the next batch are never side by side: one range has the
other in it.
-/

namespace VideoRemap

structure FrameRange.Inside (r r' : FrameRange) : Prop where
  start_lt : r.start < r.stop
  start_le : r'.start ≤ r.start
  stop_le : r.stop ≤ r'.stop

namespace Plan

/-- Among the first `n` output frames, more frames need whatever fewer of them need. -/
def Monotone (p : Plan) (n : Nat) : Prop :=
  ∀ r r', r.Inside r' → r'.stop ≤ n → ∀ i ∈ p.cover r, i ∈ p.cover r'

section

variable {r r' : FrameRange}

lemma box_nested (width height : Nat) (h : r.Inside r') :
    (box width height r : Box Int).Nested (box width height r') := by
  obtain ⟨hlt, hstart, hstop⟩ := h
  intro v
  cases v with
  | x =>
    change (Interval.between (0 : Int) (width - 1 : Nat)).Nested (.between 0 (width - 1 : Nat))
    rw [Interval.between_eq (by omega)]
    constructor <;> simp only <;> omega
  | y =>
    change (Interval.between (0 : Int) (height - 1 : Nat)).Nested (.between 0 (height - 1 : Nat))
    rw [Interval.between_eq (by omega)]
    constructor <;> simp only <;> omega
  | t =>
    change (Interval.between (r.start : Int) (max (r.stop - 1) r.start : Nat)).Nested
      (.between r'.start (max (r'.stop - 1) r'.start : Nat))
    rw [Interval.between_eq (by omega), Interval.between_eq (by omega)]
    constructor <;> simp only <;> omega

lemma ofExpr_monotone {e : Expr} (he : e.isExact = true) (width height frameCount budget batch n : Nat) :
    (ofExpr Int e width height frameCount budget batch).Monotone n := by
  intro r r' hinside _ i hi
  exact ((Expr.bound_nested (box_nested width height hinside) he).cover frameCount).mem_of_mem hi

end

variable {p : Plan} {start stop : Nat}

/-- The frames of `m` output frames from `start` on are within the budget, or there is only a batch to
produce. -/
def Suffices (p : Plan) (start m : Nat) : Prop :=
  (p.cover ⟨start, start + m⟩).size ≤ p.budget ∨ m ≤ p.batch

lemma keepWithin_halves (p : Plan) (start : Nat) {n : Nat} (hn : 0 < n) :
    ∃ k, IsLeast {k | p.Suffices start (n / 2 ^ k)} k ∧ 0 < n / 2 ^ k ∧
      p.keepWithin start n = p.cover ⟨start, start + n / 2 ^ k⟩ := by
  fun_induction keepWithin p start n with
  | case1 n frames hwide ih =>
    have hbatch := p.batch_pos
    have hhalf (j : Nat) : n / 2 / 2 ^ j = n / 2 ^ (j + 1) := by
      rw [Nat.div_div_eq_div_mul, Nat.pow_succ']
    obtain ⟨k, ⟨hk, hleast⟩, hpos, hkeep⟩ := ih (by omega)
    rw [hhalf] at hpos hkeep
    refine ⟨k + 1, ⟨?_, fun j hj => ?_⟩, hpos, hkeep⟩
    · rw [Set.mem_ofPred_eq, ← hhalf]
      exact hk
    · -- The whole range is too wide, so that the first half that suffices is no half before.
      cases j with
      | zero =>
        rw [Set.mem_ofPred_eq, Nat.pow_zero, Nat.div_one] at hj
        rcases hj with hbudget | hshort
        · exact absurd hwide.1 (Nat.not_lt_of_le hbudget)
        · exact absurd hwide.2 (Nat.not_lt_of_le hshort)
      | succ j =>
        rw [Set.mem_ofPred_eq, ← hhalf] at hj
        exact Nat.succ_le_succ (hleast hj)
  | case2 n frames h =>
    refine ⟨0, ⟨?_, fun j _ => Nat.zero_le j⟩, ?_, ?_⟩
    · rw [Set.mem_ofPred_eq, Nat.pow_zero, Nat.div_one, Suffices]
      change frames.size ≤ p.budget ∨ n ≤ p.batch
      omega
    · rwa [Nat.pow_zero, Nat.div_one]
    · rw [Nat.pow_zero, Nat.div_one]

lemma keepWithin_cases (p : Plan) (start : Nat) {n : Nat} (hn : 0 < n) :
    ∃ m, 0 < m ∧ m ≤ n ∧ p.keepWithin start n = p.cover ⟨start, start + m⟩ ∧
      ((p.cover ⟨start, start + m⟩).size ≤ p.budget ∨ m ≤ p.batch) := by
  obtain ⟨k, ⟨hk, -⟩, hpos, hkeep⟩ := p.keepWithin_halves start hn
  exact ⟨n / 2 ^ k, hpos, Nat.div_le_self n _, hkeep, hk⟩

lemma keep_of_lt (h : start < stop) :
    p.keep ⟨start, stop⟩ = p.keepWithin start (stop - start) := by
  have hempty : ¬ (⟨start, stop⟩ : FrameRange).IsEmpty := Nat.not_le_of_lt h
  rw [keep, if_neg hempty]
  rfl

lemma keep_of_fits (h : start < stop) (hfits : (p.cover ⟨start, stop⟩).size ≤ p.budget) :
    p.keep ⟨start, stop⟩ = p.cover ⟨start, stop⟩ := by
  rw [keep_of_lt h, keepWithin, Nat.add_sub_cancel' (Nat.le_of_lt h)]
  exact if_neg fun hover => Nat.not_lt_of_le hfits hover.1

/-- What is kept for the rest is what the widest of its repeated halves needs that suffices, and the next
output frame is always in that half. -/
theorem keep_widest (p : Plan) (start n : Nat) (hn : 0 < n) :
    ∃ k, IsLeast {k | p.Suffices start (n / 2 ^ k)} k ∧
      p.keep ⟨start, start + n⟩ = p.cover ⟨start, start + n / 2 ^ k⟩ ∧ 1 ≤ n / 2 ^ k ∧
      start ∈ (⟨start, start + n / 2 ^ k⟩ : FrameRange) := by
  obtain ⟨k, hleast, hpos, hkeep⟩ := p.keepWithin_halves start hn
  have hsize : start + n - start = n := by omega
  refine ⟨k, hleast, ?_, hpos, ?_⟩
  · rw [keep_of_lt (by omega), hsize, hkeep]
  · exact ⟨Nat.le_refl start, Nat.lt_add_of_pos_right hpos⟩

theorem keep_widest_of_double_speed :
    let e : Expr := .scale (.int 2) (.var .t)
    let p := ofExpr Float e 4 3 100 10 4
    0 < 41 ∧ p.keep ⟨3, 44⟩ = ⟨6, 15⟩ ∧
      ∃ k, IsLeast {k | (p.cover ⟨3, 3 + 41 / 2 ^ k⟩).size ≤ 10 ∨ 41 / 2 ^ k ≤ 4} k ∧
        p.keep ⟨3, 44⟩ = (e.bound (box (ε := Float) 4 3 ⟨3, 3 + 41 / 2 ^ k⟩)).cover 100 ∧
        1 ≤ 41 / 2 ^ k := by
  intro e p
  obtain ⟨k, hleast, hkeep, hpos, -⟩ := p.keep_widest 3 41 (by decide)
  exact ⟨by decide, by decide +kernel, k, hleast, hkeep, hpos⟩

lemma Monotone.exists_hull (hp : p.Monotone stop) (h : start < stop) :
    ∃ r : FrameRange, r.size ≤ max p.budget (p.cover ⟨start, min (start + p.batch) stop⟩).size ∧
      (∀ i ∈ p.keep ⟨start, stop⟩, i ∈ r) ∧
      ∀ i ∈ p.cover ⟨start, min (start + p.batch) stop⟩, i ∈ r := by
  have hbatch := p.batch_pos
  obtain ⟨m, hpos, hle, heq, hfits⟩ := p.keepWithin_cases start (n := stop - start) (by omega)
  rw [keep_of_lt h, heq]
  by_cases hshort : m ≤ p.batch
  · -- The horizon ends within the batch.
    refine ⟨_, Nat.le_max_right _ _, fun i hi => ?_, fun i hi => hi⟩
    exact hp ⟨start, start + m⟩ _ ⟨by simp only; omega, Nat.le_refl start, by simp only; omega⟩
      (Nat.min_le_right _ _) i hi
  · refine ⟨p.cover ⟨start, start + m⟩, by omega, fun i hi => hi, fun i hi => ?_⟩
    exact hp _ ⟨start, start + m⟩ ⟨by simp only; omega, Nat.le_refl start, by simp only; omega⟩
      (by simp only; omega) i hi

end Plan

end VideoRemap

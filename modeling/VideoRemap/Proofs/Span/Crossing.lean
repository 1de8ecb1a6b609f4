import Mathlib.Tactic.Lemma
import VideoRemap.Span.Clamp

namespace VideoRemap.Crossing

lemma startingPoint_le (n : Nat) (estimate : Float) : startingPoint n estimate ≤ n := by
  unfold startingPoint
  split
  · exact Nat.zero_le n
  split
  · exact Nat.le_refl n
  · exact Nat.min_le_left ..

lemma stepBack_le (p : Nat → Bool) (k : Nat) : stepBack p k ≤ k := by
  induction k with
  | zero => exact Nat.le_refl 0
  | succ k ih =>
    simp only [stepBack]
    split <;> omega

lemma stepOn_le (p : Nat → Bool) {n k : Nat} (h : k ≤ n) : stepOn p n k ≤ n := by
  fun_induction stepOn p n k with
  | case1 k hk ih => exact ih hk.1
  | case2 k hk => exact h

lemma first_le (p : Nat → Bool) (n : Nat) (estimate : Float) : first p n estimate ≤ n :=
  stepOn_le p (Nat.le_trans (stepBack_le p _) (startingPoint_le n estimate))

variable {p : Nat → Bool} {n : Nat}

lemma stepOn_spec {k : Nat} (hk : ∀ l < k, p l = false) :
    (∀ l < stepOn p n k, p l = false) ∧ (stepOn p n k < n → p (stepOn p n k)) := by
  fun_induction stepOn p n k with
  | case1 k h ih =>
    refine ih fun l hl => ?_
    by_cases heq : l = k
    · subst heq
      simpa using h.2
    · exact hk l (by omega)
  | case2 k h => exact ⟨hk, fun hlt => by simpa [hlt] using h⟩

section

variable (mono : ∀ k l, k ≤ l → l < n → p k → p l)

include mono

lemma lt_stepBack {k l : Nat} (hk : k ≤ n) (hl : l < stepBack p k) : p l = false := by
  induction k with
  | zero => exact absurd hl (Nat.not_lt_zero l)
  | succ k ih =>
    simp only [stepBack] at hl
    split at hl
    case isTrue => exact ih (by omega) hl
    case isFalse hp =>
      rw [Bool.eq_false_iff]
      exact fun hpl => hp (mono l k (by omega) (by omega) hpl)

lemma first_le_iff (estimate : Float) {k : Nat} (hk : k < n) :
    first p n estimate ≤ k ↔ p k := by
  obtain ⟨hbelow, hat⟩ := stepOn_spec
    (fun l hl => lt_stepBack mono (startingPoint_le n estimate) hl)
  constructor
  · intro hle
    exact mono _ k hle hk (hat (Nat.lt_of_le_of_lt hle hk))
  · intro hp
    refine Nat.le_of_not_lt fun hlt => ?_
    have := hbelow k hlt
    simp [hp] at this

end

end VideoRemap.Crossing

import VideoRemap.Proofs.Number.Compare
import VideoRemap.Proofs.Span.Crossing

namespace VideoRemap.Crossing

open Number

lemma startingPoint_eq {n : Nat} (hn : n < 2 ^ 53) (estimate : Float) :
    startingPoint n estimate = if estimate.isNaN || estimate ≤ 0 then 0
      else if Float.ofNat n ≤ estimate then n else toNat estimate := by
  unfold startingPoint
  split
  case isTrue => rfl
  case isFalse hpos =>
    split
    case isTrue => rfl
    case isFalse hbelow =>
      have hlow : ¬ estimate < 0 := fun h => hpos (by simp [le_of_lt h])
      obtain ⟨hwhole, hle⟩ := toNat_of_between hn hlow fun h => hbelow (le_of_lt h)
      rw [hwhole, Nat.min_eq_right hle]

variable {α : Type} [Scalar α]

theorem first_isLeast (r : Ramp α) {n : Nat} (hn : n < 2 ^ 53) (p : α → Bool)
    (mono : ∀ k l, k ≤ l → l < n → p (r.value k) → p (r.value l)) (estimate : Float) :
    IsLeast ({k | k < n ∧ p (r.value k)} ∪ {n}) (first (fun k => p (r.value k)) n estimate) ∧
      first (fun k => p (r.value k)) n estimate =
        stepOn (fun k => p (r.value k)) n (stepBack (fun k => p (r.value k))
          (if estimate.isNaN || estimate ≤ 0 then 0
            else if Float.ofNat n ≤ estimate then n else toNat estimate)) := by
  have hle := first_le (fun k => p (r.value k)) n estimate
  have hiff {k : Nat} (hk : k < n) : first (fun k => p (r.value k)) n estimate ≤ k ↔ p (r.value k) :=
    first_le_iff mono estimate hk
  refine ⟨⟨?_, ?_⟩, ?_⟩
  · rcases Nat.lt_or_eq_of_le hle with hlt | heq
    · exact Or.inl ⟨hlt, (hiff hlt).mp (Nat.le_refl _)⟩
    · exact Or.inr heq
  · rintro k (⟨hk, hp⟩ | rfl)
    · exact (hiff hk).mpr hp
    · exact hle
  · rw [first, startingPoint_eq hn]

theorem first_isLeast_of_falling :
    let r : Ramp Int32 := ⟨10, -3⟩
    6 < 2 ^ 53 ∧ (∀ k l, k ≤ l → l < 6 → decide (r.value k < 0) → decide (r.value l < 0)) ∧
    first (fun k => r.value k < 0) 6 0 = 4 ∧ first (fun k => r.value k < 0) 6 1000 = 4 ∧
    first (fun k => r.value k < 0) 6 (0 / 0) = 4 := by
  intro r
  have hstays : ∀ l < 6, ∀ k < l + 1, decide (r.value k < 0) → decide (r.value l < 0) := by decide
  have mono : ∀ k l, k ≤ l → l < 6 → decide (r.value k < 0) → decide (r.value l < 0) :=
    fun k l hkl hl => hstays l hl k (Nat.lt_succ_of_le hkl)
  have habove : ∀ k < 4, ¬ decide (r.value k < 0) := by decide
  have hcrossing : IsLeast ({k | k < 6 ∧ decide (r.value k < 0)} ∪ {6}) 4 := by
    refine ⟨Or.inl ⟨by decide, by decide⟩, ?_⟩
    rintro k (⟨-, hk⟩ | rfl)
    · exact Nat.le_of_not_lt fun hlt => habove k hlt hk
    · decide
  have hfirst (estimate : Float) : first (fun k => r.value k < 0) 6 estimate = 4 :=
    (first_isLeast r (by decide) (fun v => v < 0) mono estimate).1.unique hcrossing
  exact ⟨by decide, mono, hfirst 0, hfirst 1000, hfirst (0 / 0)⟩

end VideoRemap.Crossing

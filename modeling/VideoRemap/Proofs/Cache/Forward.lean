import VideoRemap.Proofs.Cache.Reel

/-!
Where the source stands after a load. It is rewound only for a frame that it has passed and that is
not at hand, and otherwise it is read up to the last wanted frame and no further.
-/

namespace VideoRemap.Cache

variable {σ : Type} [Source σ]

lemma readUpTo_forward (stop first : Nat) (c : Cache σ) :
    (c.readUpTo stop first).2.position ≤ max c.position stop ∧
      (c.readUpTo stop first).2.counters.rewinds = c.counters.rewinds := by
  fun_induction readUpTo stop first c with
  | case1 => exact ⟨Nat.le_max_left _ _, rfl⟩
  | case2 =>
    simp only [shrink]
    split <;> exact ⟨Nat.le_max_left _ _, rfl⟩
  | case3 c hlt _ _ _ _ ih =>
    obtain ⟨hposition, hrewinds⟩ := ih
    refine ⟨?_, hrewinds⟩
    simp only [skip] at hposition ⊢
    omega
  | case4 c hlt => exact ⟨by simp only; omega, rfl⟩
  | case5 c hlt _ _ _ _ _ ih =>
    obtain ⟨hposition, hrewinds⟩ := ih
    refine ⟨?_, hrewinds⟩
    simp only [keep] at hposition ⊢
    omega
  | case6 => exact ⟨Nat.le_max_left _ _, rfl⟩

lemma rewindFor_of_le {c : Cache σ} {i : Nat} (h : c.position ≤ i) : c.rewindFor i = (.ok (), c) :=
  if_neg (Nat.not_lt_of_le h)

lemma load_forward {c : Cache σ} {r : FrameRange}
    (h : ∀ i ∈ r, i < c.frameCount → i < c.position → c.holds i) :
    (c.load r).2.position ≤ max c.position (min r.stop c.frameCount) ∧
      (c.load r).2.counters.rewinds = c.counters.rewinds := by
  simp only [load]
  generalize hfirst : c.firstMissing (r.below c.frameCount).start (r.below c.frameCount).stop = first
  split
  · exact ⟨Nat.le_max_left _ _, rfl⟩
  case isFalse hlt =>
    have hstart : (r.below c.frameCount).start ≤ first := hfirst ▸ c.le_firstMissing _ _
    obtain ⟨hmem, hcount⟩ := FrameRange.mem_below.mp
      (show first ∈ r.below c.frameCount from ⟨hstart, Nat.lt_of_not_le hlt⟩)
    have hmissing : ¬ c.holds first := by
      subst hfirst
      exact c.not_holds_firstMissing (Nat.lt_of_not_le hlt)
    have hahead : c.position ≤ first :=
      Nat.le_of_not_lt fun hpassed => hmissing (h first hmem hcount hpassed)
    rw [rewindFor_of_le hahead]
    have hread := c.readUpTo_forward (r.below c.frameCount).stop first
    simp only
    rcases hrun : c.readUpTo (r.below c.frameCount).stop first with ⟨_ | ⟨⟩, c'⟩
    all_goals
      rw [hrun] at hread
      exact hread

end VideoRemap.Cache

import Mathlib.Data.List.Perm.Subperm
import VideoRemap.Proofs.Cache.Load

namespace VideoRemap.Cache

variable {σ : Type} {c d : Cache σ}

def gained (c d : Cache σ) : List Nat := d.indices.filter fun i => !c.holds i

lemma mem_indices {i : Nat} : i ∈ c.indices ↔ c.holds i := by
  simp only [holds, frame?, List.lookup_isSome_iff, indices, List.mem_map, beq_iff_eq, @eq_comm _ i]

lemma mem_gained {i : Nat} : i ∈ c.gained d ↔ d.holds i ∧ c.holds i = false := by
  rw [gained, List.mem_filter, mem_indices, Bool.not_eq_true']

lemma gained_eq_nil (h : ∀ i, d.holds i → c.holds i) : c.gained d = [] := by
  apply List.eq_nil_iff_forall_not_mem.mpr
  intro i hi
  obtain ⟨hd, hc⟩ := mem_gained.mp hi
  exact Bool.noConfusion (hc.symm.trans (h i hd))

section

variable {info : SourceInfo} {frames : List Frame} {position : Nat → σ → Prop}

namespace Faithful

lemma nodup_indices (h : Faithful info frames position c) : c.indices.Nodup :=
  (List.pairwise_map.mpr h.ascending).imp Nat.ne_of_lt

lemma length_le_size (h : Faithful info frames position c) {r : FrameRange}
    (hr : ∀ i, c.holds i → i ∈ r) : c.frames.length ≤ r.size := by
  have hsub : c.indices ⊆ List.range' r.start r.size := by
    intro i hi
    obtain ⟨hstart, hstop⟩ := hr i (mem_indices.mp hi)
    rw [List.mem_range'_1, FrameRange.size]
    omega
  have hle := (List.subperm_of_subset h.nodup_indices hsub).length_le
  rwa [indices, List.length_map, List.length_range'] at hle

lemma nodup_gained (h : Faithful info frames position d) : (c.gained d).Nodup :=
  h.nodup_indices.filter _

lemma length_gained (h : Faithful info frames position c) (h' : Faithful info frames position d)
    (hsub : ∀ i, c.holds i → d.holds i) : d.frames.length = c.frames.length + (c.gained d).length := by
  have hkept : (d.indices.filter c.holds).Perm c.indices := by
    apply (List.perm_ext_iff_of_nodup (h'.nodup_indices.filter _) h.nodup_indices).mpr
    intro i
    rw [List.mem_filter, mem_indices, mem_indices]
    exact ⟨And.right, fun hi => ⟨hsub i hi, hi⟩⟩
  have hsplit := @List.length_eq_length_filter_add _ d.indices c.holds
  rw [hkept.length_eq, indices, indices, List.length_map, List.length_map] at hsplit
  exact hsplit

end Faithful

lemma Fetched.of_mem_gained {wanted : Nat → Prop} (h : Fetched info frames position wanted c d) {i : Nat}
    (hi : i ∈ c.gained d) : wanted i ∧ i < d.frameCount := by
  obtain ⟨hheld, hmissing⟩ := mem_gained.mp hi
  rcases h.holds_iff.mp hheld with hold | hnew
  · exact Bool.noConfusion (hmissing.symm.trans hold)
  · exact hnew

end

variable [Source σ]

lemma readUpTo_counters (stop first : Nat) (c : Cache σ) :
    (c.readUpTo stop first).2.counters.evicted = c.counters.evicted ∧
      (c.readUpTo stop first).2.counters.peak = c.counters.peak := by
  fun_induction readUpTo stop first c with
  | case1 => exact ⟨rfl, rfl⟩
  | case2 => simp only [shrink]; split <;> exact ⟨rfl, rfl⟩
  | case3 _ _ _ _ _ _ ih => exact ih
  | case4 => exact ⟨rfl, rfl⟩
  | case5 _ _ _ _ _ _ _ ih => exact ih
  | case6 => exact ⟨rfl, rfl⟩

lemma rewindFor_counters (i : Nat) (c : Cache σ) :
    (c.rewindFor i).2.counters.evicted = c.counters.evicted ∧
      (c.rewindFor i).2.counters.peak = c.counters.peak := by
  simp only [rewindFor]
  split
  · rcases Source.rewind c.source with ⟨_ | ⟨⟩, s⟩ <;> exact ⟨rfl, rfl⟩
  · exact ⟨rfl, rfl⟩

lemma load_counters (r : FrameRange) (c : Cache σ) :
    (c.load r).2.counters.evicted = c.counters.evicted ∧
      (c.load r).2.counters.peak ≤ max c.counters.peak (c.load r).2.frames.length := by
  simp only [load]
  generalize c.firstMissing (r.below c.frameCount).start (r.below c.frameCount).stop = first
  split
  · exact ⟨rfl, Nat.le_max_left _ _⟩
  obtain ⟨hevicted, hpeak⟩ := rewindFor_counters first c
  rcases hrewind : c.rewindFor first with ⟨_ | ⟨⟩, c₁⟩
  all_goals rw [hrewind] at hevicted hpeak
  · exact ⟨hevicted, hpeak ▸ Nat.le_max_left _ _⟩
  obtain ⟨hevicted₁, hpeak₁⟩ := readUpTo_counters (r.below c.frameCount).stop first c₁
  simp only
  rcases hread : c₁.readUpTo (r.below c.frameCount).stop first with ⟨_ | ⟨⟩, c₂⟩
  all_goals rw [hread] at hevicted₁ hpeak₁
  · exact ⟨hevicted₁.trans hevicted, (hpeak₁.trans hpeak) ▸ Nat.le_max_left _ _⟩
  · exact ⟨hevicted₁.trans hevicted, (hpeak₁.trans hpeak) ▸ Nat.le_refl _⟩

lemma load_decoded {info : SourceInfo} {frames : List Frame} {position : Nat → σ → Prop}
    {wanted : Nat → Prop} {r : FrameRange} (h : Faithful info frames position c)
    (hrun : c.load r = (.ok (), d)) (hd : Fetched info frames position wanted c d) :
    d.counters.decoded = c.counters.decoded + (c.gained d).length := by
  have hevicted : d.counters.evicted = c.counters.evicted := by
    rw [← (load_counters r c).1, hrun]
  rw [hd.faithful.decoded, h.decoded, h.length_gained hd.faithful fun i hi => hd.holds_iff.mpr (Or.inl hi)]
  omega

end VideoRemap.Cache

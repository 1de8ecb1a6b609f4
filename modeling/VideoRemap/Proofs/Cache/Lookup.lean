import VideoRemap.Cache
import VideoRemap.Proofs.Lookup

namespace VideoRemap.Cache

variable {σ : Type}

lemma lookup_insertFrame (i k : Nat) (f : Frame) (fs : List (Nat × Frame)) :
    (insertFrame i f fs).lookup k = if k = i then some f else fs.lookup k := by
  induction fs with
  | nil => simp only [insertFrame, lookup_cons_ite]
  | cons p rest ih =>
    obtain ⟨j, g⟩ := p
    simp only [insertFrame]
    split
    · simp only [lookup_cons_ite]
    split
    · subst i
      simp only [lookup_cons_ite]
      split <;> rfl
    · simp only [lookup_cons_ite, ih]
      split <;> split <;> first | rfl | omega

lemma mem_insertFrame {i : Nat} {f : Frame} {p : Nat × Frame} {fs : List (Nat × Frame)}
    (h : p ∈ insertFrame i f fs) : p.1 = i ∨ p ∈ fs := by
  induction fs with
  | nil => simp_all [insertFrame]
  | cons q rest ih =>
    simp only [insertFrame] at h
    split at h
    · rcases List.mem_cons.mp h with rfl | h
      · exact Or.inl rfl
      · exact Or.inr h
    split at h
    · rcases List.mem_cons.mp h with rfl | h
      · exact Or.inl rfl
      · exact Or.inr (List.mem_cons_of_mem _ h)
    · rcases List.mem_cons.mp h with rfl | h
      · exact Or.inr List.mem_cons_self
      · exact (ih h).imp_right (List.mem_cons_of_mem _)

lemma insertFrame_ascending {i : Nat} {f : Frame} {fs : List (Nat × Frame)}
    (h : fs.Pairwise (·.1 < ·.1)) : (insertFrame i f fs).Pairwise (·.1 < ·.1) := by
  induction fs with
  | nil => simp [insertFrame]
  | cons q rest ih =>
    obtain ⟨hq, hrest⟩ := List.pairwise_cons.mp h
    simp only [insertFrame]
    split
    · refine List.pairwise_cons.mpr ⟨fun p hp => ?_, h⟩
      rcases List.mem_cons.mp hp with rfl | hp
      · assumption
      · have := hq p hp
        omega
    split
    · exact List.pairwise_cons.mpr ⟨fun p hp => by have := hq p hp; omega, hrest⟩
    · refine List.pairwise_cons.mpr ⟨fun p hp => ?_, ih hrest⟩
      rcases mem_insertFrame hp with heq | hp
      · omega
      · exact hq p hp

lemma length_insertFrame {i : Nat} {f : Frame} {fs : List (Nat × Frame)}
    (h : fs.lookup i = none) : (insertFrame i f fs).length = fs.length + 1 := by
  induction fs with
  | nil => rfl
  | cons q rest ih =>
    obtain ⟨j, g⟩ := q
    rw [lookup_cons_ite] at h
    split at h
    · simp at h
    · simp only [insertFrame]
      split <;> simp_all

lemma holds_iff {c : Cache σ} {i : Nat} : c.holds i ↔ ∃ f, c.frame? i = some f :=
  Option.isSome_iff_exists

lemma frame?_eq_none {c : Cache σ} {i : Nat} : c.frame? i = none ↔ c.holds i = false := by
  simp [holds]

lemma frame?_keep (c : Cache σ) (f : Frame) (i : Nat) :
    (c.keep f).frame? i = if i = c.position then some f else c.frame? i :=
  lookup_insertFrame _ _ _ _

lemma frame?_evictOutside (c : Cache σ) (r : FrameRange) (i : Nat) :
    (c.evictOutside r).frame? i = if i ∈ r then c.frame? i else none := by
  have h := lookup_filter (fun j => decide (j ∈ r)) i c.frames
  simp only [decide_eq_true_eq] at h
  exact h

lemma holds_keep (c : Cache σ) (f : Frame) (i : Nat) :
    (c.keep f).holds i ↔ i = c.position ∨ c.holds i := by
  by_cases h : i = c.position <;> simp [holds, frame?_keep, h]

lemma holds_evictOutside (c : Cache σ) (r : FrameRange) (i : Nat) :
    (c.evictOutside r).holds i ↔ c.holds i ∧ i ∈ r := by
  by_cases h : i ∈ r <;> simp [holds, frame?_evictOutside, h]

lemma le_firstMissing (c : Cache σ) (i stop : Nat) : i ≤ c.firstMissing i stop := by
  fun_induction firstMissing c i stop <;> omega

lemma holds_of_lt_firstMissing (c : Cache σ) (i stop : Nat) {j : Nat} (hi : i ≤ j)
    (hj : j < c.firstMissing i stop) : c.holds j := by
  fun_induction firstMissing c i stop with
  | case1 i h ih =>
    by_cases heq : i = j
    · exact heq ▸ h.2
    · exact ih (by omega) hj
  | case2 i h => omega

lemma not_holds_firstMissing (c : Cache σ) {i stop : Nat} (h : c.firstMissing i stop < stop) :
    ¬ c.holds (c.firstMissing i stop) := by
  fun_induction firstMissing c i stop with
  | case1 i _ ih => exact ih h
  | case2 i hstop => exact fun hheld => hstop ⟨h, hheld⟩

end VideoRemap.Cache

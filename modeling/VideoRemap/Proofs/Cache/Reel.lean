import VideoRemap.Proofs.Cache.Lookup
import VideoRemap.Source.Reel

/-!
A cache in front of a reel. Every frame at hand is the frame of the reel, the cache knows where the
source stands, and bringing frames to hand brings exactly those that exist.
-/

namespace VideoRemap

lemma FrameRange.mem_below {r : FrameRange} {n i : Nat} : i ∈ r.below n ↔ i ∈ r ∧ i < n := by
  change min r.start (min r.stop n) ≤ i ∧ i < min r.stop n ↔ (r.start ≤ i ∧ i < r.stop) ∧ i < n
  omega

namespace Cache

variable {σ : Type}

structure Faithful (info : SourceInfo) (frames : List Frame) (position : Nat → σ → Prop)
    (c : Cache σ) : Prop where
  source : position c.position c.source
  position_le : c.position ≤ frames.length
  frame {i f} : c.frame? i = some f → frames[i]? = some f
  below {i} : c.holds i → i < c.frameCount
  frameCount : c.frameCount = info.frameCount ∨
    frames.length < info.frameCount ∧ c.frameCount = frames.length
  extent : c.extent = info.extent
  ascending : c.frames.Pairwise (·.1 < ·.1)
  decoded : c.counters.decoded = c.frames.length + c.counters.evicted

structure Fetched (info : SourceInfo) (frames : List Frame) (position : Nat → σ → Prop)
    (wanted : Nat → Prop) (c c' : Cache σ) : Prop where
  faithful : Faithful info frames position c'
  holds_iff {i} : c'.holds i ↔ c.holds i ∨ wanted i ∧ i < c'.frameCount
  count_eq : (∀ i, wanted i → i < c.frameCount → i < frames.length) →
    c'.frameCount = c.frameCount
  count_shrunk {i} : wanted i → i < c.frameCount → frames.length ≤ i →
    c'.frameCount = frames.length

section

variable {info : SourceInfo} {frames : List Frame} {position : Nat → σ → Prop} {c : Cache σ}

namespace Faithful

lemma lt_length (h : Faithful info frames position c) {i : Nat} (hi : c.holds i) :
    i < frames.length := by
  obtain ⟨f, hf⟩ := holds_iff.mp hi
  exact (List.getElem?_eq_some_iff.mp (h.frame hf)).1

lemma skip (h : Faithful info frames position c) {s : σ} (hs : position (c.position + 1) s)
    (hlt : c.position < frames.length) :
    Faithful info frames position { c with source := s }.skip where
  source := hs
  position_le := hlt
  frame := h.frame
  below := h.below
  frameCount := h.frameCount
  extent := h.extent
  ascending := h.ascending
  decoded := h.decoded

lemma keep (h : Faithful info frames position c) {s : σ} {f : Frame}
    (hs : position (c.position + 1) s) (hf : frames[c.position]? = some f)
    (hnew : c.holds c.position = false) (hcount : c.position < c.frameCount) :
    Faithful info frames position ({ c with source := s }.keep f) where
  source := hs
  position_le := (List.getElem?_eq_some_iff.mp hf).1
  frame {i g} hg := by
    rw [frame?_keep] at hg
    split at hg
    · simp_all
    · exact h.frame hg
  below {i} hi := by
    rcases (holds_keep _ f i).mp hi with rfl | hi
    · exact hcount
    · exact h.below hi
  frameCount := h.frameCount
  extent := h.extent
  ascending := insertFrame_ascending h.ascending
  decoded := by
    have hlen := length_insertFrame (f := f) (frame?_eq_none.mpr hnew)
    have hdec := h.decoded
    simp only [Cache.keep, hlen]
    omega

lemma shrink (h : Faithful info frames position c) {s : σ} (hs : position frames.length s)
    (hend : c.position = frames.length) :
    Faithful info frames position { c with source := s }.shrink := by
  have hs : position c.position s := hend ▸ hs
  unfold Cache.shrink
  split
  case isFalse => exact { h with source := hs }
  case isTrue hlt =>
    refine { h with source := hs, below := fun hi => ?_, frameCount := ?_ }
    · simpa only [hend] using h.lt_length hi
    · have := h.frameCount
      simp only at hlt ⊢
      omega

lemma notePeak (h : Faithful info frames position c) : Faithful info frames position c.notePeak :=
  { h with }

lemma evictOutside (h : Faithful info frames position c) (r : FrameRange) :
    Faithful info frames position (c.evictOutside r) where
  source := h.source
  position_le := h.position_le
  frame {i f} hf := by
    rw [frame?_evictOutside] at hf
    split at hf
    · exact h.frame hf
    · simp at hf
  below hi := h.below ((holds_evictOutside c r _).mp hi).1
  frameCount := h.frameCount
  extent := h.extent
  ascending := h.ascending.filter _
  decoded := by
    have hle := List.length_filter_le (fun p => decide (p.1 ∈ r)) c.frames
    have hdec := h.decoded
    simp only [Cache.evictOutside]
    omega

end Faithful

namespace Fetched

variable {c' c'' : Cache σ} {wanted wanted' : Nat → Prop}

lemma refl (h : Faithful info frames position c)
    (hw : ∀ i, wanted i → i < c.frameCount → c.holds i) :
    Fetched info frames position wanted c c where
  faithful := h
  holds_iff {i} := ⟨Or.inl, fun hi => hi.elim id fun hi => hw i hi.1 hi.2⟩
  count_eq _ := rfl
  count_shrunk {i} hi hlt hle := by
    have := h.lt_length (hw i hi hlt)
    omega

lemma count_cases (h : Fetched info frames position wanted c c') :
    c'.frameCount = c.frameCount ∨
      frames.length < c.frameCount ∧ c'.frameCount = frames.length := by
  by_cases hw : ∀ i, wanted i → i < c.frameCount → i < frames.length
  · exact Or.inl (h.count_eq hw)
  · simp only [Classical.not_forall] at hw
    obtain ⟨i, hi, hlt, hle⟩ := hw
    exact Or.inr ⟨by omega, h.count_shrunk hi hlt (by omega)⟩

lemma count_le (h : Fetched info frames position wanted c c') : c'.frameCount ≤ c.frameCount := by
  have := h.count_cases
  omega

lemma count_known (h : Fetched info frames position wanted c c')
    (hend : c.frameCount = frames.length) : c'.frameCount = frames.length := by
  have := h.count_cases
  omega

lemma trans (h : Fetched info frames position wanted c c')
    (h' : Fetched info frames position wanted' c' c'') :
    Fetched info frames position (fun i => wanted i ∨ wanted' i) c c'' where
  faithful := h'.faithful
  holds_iff {i} := by
    have hbelow : c''.holds i → i < c''.frameCount := h'.faithful.below
    have hle := h'.count_le
    have h₁ := h.holds_iff (i := i)
    have h₂ := h'.holds_iff (i := i)
    grind
  count_eq hw := by
    have h₁ := h.count_eq fun i hi => hw i (Or.inl hi)
    rw [← h₁, h'.count_eq fun i hi hlt => hw i (Or.inr hi) (h₁ ▸ hlt)]
  count_shrunk {i} hi hlt hle := by
    rcases hi with hi | hi
    · exact h'.count_known (h.count_shrunk hi hlt hle)
    · rcases h.count_cases with heq | ⟨_, hend⟩
      · exact h'.count_shrunk hi (heq ▸ hlt) hle
      · exact h'.count_known hend

lemma widen (h : Fetched info frames position wanted c c') (hc : Faithful info frames position c)
    (hsub : ∀ i, wanted i → wanted' i)
    (hheld : ∀ i, wanted' i → i < c.frameCount → wanted i ∨ c.holds i) :
    Fetched info frames position wanted' c c' where
  faithful := h.faithful
  holds_iff {i} := by
    have hle := h.count_le
    have hbelow := hc.below (i := i)
    rw [h.holds_iff]
    grind
  count_eq hw := h.count_eq fun i hi => hw i (hsub i hi)
  count_shrunk {i} hi hlt hle := by
    rcases hheld i hi hlt with hi | hi
    · exact h.count_shrunk hi hlt hle
    · have := hc.lt_length hi
      omega

lemma of_same {d : Cache σ} (h : Fetched info frames position wanted d c')
    (hframes : d.frames = c.frames) (hcount : d.frameCount = c.frameCount) :
    Fetched info frames position wanted c c' where
  faithful := h.faithful
  holds_iff {i} := by
    rw [h.holds_iff, holds, holds, frame?, frame?, hframes]
  count_eq hw := (h.count_eq fun i hi hlt => hw i hi (hcount ▸ hlt)).trans hcount
  count_shrunk hi hlt hle := h.count_shrunk hi (hcount ▸ hlt) hle

lemma notePeak (h : Fetched info frames position wanted c c') :
    Fetched info frames position wanted c c'.notePeak :=
  { h with faithful := h.faithful.notePeak }

end Fetched

end

end Cache

end VideoRemap

import Mathlib.Tactic.Lemma
import VideoRemap.Source.Reel
import VideoRemap.Source.Stored

namespace VideoRemap

variable {σ : Type} [Source σ] {info : SourceInfo} {frames : List Frame} {position : Nat → σ → Prop}

lemma IsReel.next_cases (reel : IsReel info frames position) {i : Nat} {s : σ}
    (hs : position i s) (hi : i ≤ frames.length) :
    (∃ f s', frames[i]? = some f ∧ Source.next s = (.ok (some f), s') ∧ position (i + 1) s') ∨
      (i = frames.length ∧ ∃ s', Source.next s = (.ok none, s') ∧ position frames.length s') := by
  by_cases hlt : i < frames.length
  · obtain ⟨s', hnext, hs'⟩ := reel.next_frame hlt hs
    exact Or.inl ⟨_, s', List.getElem?_eq_getElem hlt, hnext, hs'⟩
  · obtain rfl : i = frames.length := by omega
    exact Or.inr ⟨rfl, reel.next_end hs⟩

lemma MemorySource.isReel (info : SourceInfo) (frames : List Frame) :
    IsReel info frames fun i (s : MemorySource) =>
      s.info = info ∧ s.frames = frames ∧ s.position = i where
  info_eq h := h.1
  next_frame {i s} hi h := by
    obtain ⟨rfl, rfl, rfl⟩ := h
    exact ⟨{ s with position := s.position + 1 }, by simp [Source.next, hi], rfl, rfl, rfl⟩
  next_end {s} h := by
    obtain ⟨rfl, rfl, hs⟩ := h
    exact ⟨s, by simp [Source.next, hs], rfl, rfl, hs⟩
  rewind {i s} h :=
    ⟨{ s with position := 0, rewinds := s.rewinds + 1 }, rfl, h.1, h.2.1, rfl⟩

def MemorySource.shades (n frameCount : Nat) : MemorySource where
  info := ⟨1, 1, .standard, frameCount, rgbFormat⟩
  frames := (List.range n).map fun i => ⟨1, 1, Array.replicate 3 (UInt8.ofNat i)⟩
  position := 0
  rewinds := 0

lemma MemorySource.shades_even {n frameCount : Nat} {f : Frame}
    (h : f ∈ (shades n frameCount).frames) :
    f.extent = (shades n frameCount).info.extent ∧ f.WellFormed := by
  obtain ⟨i, _, rfl⟩ := List.mem_map.mp h
  exact ⟨rfl, Array.size_replicate⟩

lemma StillSource.isReel (f : Frame) :
    IsReel ⟨f.width, f.height, .standard, 1, rgbFormat⟩ [f] fun i (s : StillSource) =>
      s.frame = f ∧ s.consumed = decide (i = 1) where
  info_eq {i s} h := by rw [← h.1]; rfl
  next_frame {i s} hi h := by
    obtain rfl : i = 0 := by simpa using hi
    obtain ⟨rfl, hs⟩ := h
    exact ⟨{ s with consumed := true }, by simp [Source.next, hs], rfl, by simp⟩
  next_end {s} h := ⟨s, by simp [Source.next, h.2], h⟩
  rewind {i s} h := ⟨{ s with consumed := false }, rfl, h.1, by simp⟩

end VideoRemap

import VideoRemap.Proofs.Cache.Reel
import VideoRemap.Proofs.Source.Reel

namespace VideoRemap.Cache

variable {σ : Type} {info : SourceInfo} {frames : List Frame} {position : Nat → σ → Prop}
  {c c' : Cache σ} {stop first : Nat}

inductive Advance (frames : List Frame) (position : Nat → σ → Prop) (first : Nat) (c : Cache σ) :
    Cache σ → Prop
  | skip {s : σ} : c.position < frames.length → position (c.position + 1) s →
      c.position < first ∨ c.holds c.position →
      Advance frames position first c { c with source := s }.skip
  | keep {s : σ} {f : Frame} : frames[c.position]? = some f → position (c.position + 1) s →
      first ≤ c.position → c.holds c.position = false →
      Advance frames position first c ({ c with source := s }.keep f)

namespace Advance

lemma faithful (h : Advance frames position first c c') (hc : Faithful info frames position c)
    (hcount : c.position < c.frameCount) : Faithful info frames position c' := by
  cases h with
  | skip hlt hs _ => exact hc.skip hs hlt
  | keep hf hs _ hnew => exact hc.keep hs hf hnew hcount

lemma lt_length (h : Advance frames position first c c') : c.position < frames.length := by
  cases h with
  | skip hlt _ _ => exact hlt
  | keep hf _ _ _ => exact (List.getElem?_eq_some_iff.mp hf).1

lemma position_eq (h : Advance frames position first c c') : c'.position = c.position + 1 := by
  cases h <;> rfl

lemma frameCount_eq (h : Advance frames position first c c') : c'.frameCount = c.frameCount := by
  cases h <;> rfl

lemma holds_iff (h : Advance frames position first c c') {i : Nat} :
    c'.holds i ↔ c.holds i ∨ i = c.position ∧ first ≤ i := by
  cases h with
  | skip _ _ hheld =>
    change c.holds i ↔ _
    grind
  | keep _ _ hfirst _ =>
    rw [holds_keep]
    change i = c.position ∨ c.holds i ↔ _
    grind

end Advance

variable [Source σ]

lemma start_faithful (reel : IsReel info frames position) {s : σ} (hs : position 0 s) :
    Faithful info frames position (start s) where
  source := hs
  position_le := Nat.zero_le _
  frame hf := by simp [start, frame?] at hf
  below hi := by simp [start, holds, frame?] at hi
  frameCount := Or.inl (by simp only [start, reel.info_eq hs])
  extent := by simp only [start, reel.info_eq hs]
  ascending := List.Pairwise.nil
  decoded := rfl

section

variable (reel : IsReel info frames position) (even : ∀ f ∈ frames, f.extent = info.extent)

include reel even

lemma readUpTo_cases (stop first : Nat) (h : Faithful info frames position c)
    (hlt : c.position < stop) :
    (∃ c', Advance frames position first c c' ∧
      c.readUpTo stop first = c'.readUpTo stop first) ∨
    (c.position = frames.length ∧ ∃ s, position frames.length s ∧
      c.readUpTo stop first = (.ok (), { c with source := s }.shrink)) := by
  rw [readUpTo]
  rcases reel.next_cases h.source h.position_le with ⟨f, s, hf, hnext, hs⟩ | ⟨hend, s, hnext, hs⟩
  · refine Or.inl ?_
    have hext : f.extent = c.extent := (even f (List.mem_of_getElem? hf)).trans h.extent.symm
    by_cases hskip : c.position < first ∨ c.holds c.position
    · refine ⟨_, .skip (List.getElem?_eq_some_iff.mp hf).1 hs hskip, ?_⟩
      simp [hlt, hnext, hskip]
    · obtain ⟨hfirst, hnew⟩ := not_or.mp hskip
      refine ⟨_, .keep hf hs (by omega) (by simpa using hnew), ?_⟩
      simp [hlt, hnext, hfirst, hnew, hext]
  · exact Or.inr ⟨hend, s, hs, by simp [hlt, hnext]⟩

lemma readUpTo_fetched (h : Faithful info frames position c) (hstop : stop ≤ c.frameCount)
    (hfirst : first < stop) : ∃ c', c.readUpTo stop first = (.ok (), c') ∧
      Fetched info frames position (fun i => first ≤ i ∧ c.position ≤ i ∧ i < stop) c c' := by
  induction hn : stop - c.position generalizing c with
  | zero =>
    refine ⟨c, ?_, .refl h fun i hi => by omega⟩
    rw [readUpTo, dif_neg (by omega)]
  | succ n ih =>
    rcases readUpTo_cases reel even stop first h (by omega) with
      ⟨c', hstep, hrun⟩ | ⟨hend, s, hs, hrun⟩
    · have hpos := hstep.position_eq
      have hcount := hstep.frameCount_eq
      have hlen := hstep.lt_length
      obtain ⟨c'', hrun', hc''⟩ := ih (hstep.faithful h (by omega)) (by omega) (by omega)
      refine ⟨c'', hrun.trans hrun', hc''.faithful, ?_, fun hw => ?_, fun {i} hi hlt hle => ?_⟩
      · intro i
        have hbelow := hc''.faithful.below (i := i)
        rw [hc''.holds_iff, hstep.holds_iff] at *
        grind
      · rw [hc''.count_eq fun i hi => hcount ▸ hw i (by omega), hcount]
      · exact hc''.count_shrunk (i := i) (by omega) (by omega) hle
    · have hlt : c.position < c.frameCount := by omega
      have hshrunk : ({ c with source := s }.shrink : Cache σ).frameCount = frames.length := by
        rw [shrink, if_pos hlt]
        exact hend
      have hholds (i) : ({ c with source := s }.shrink : Cache σ).holds i = c.holds i := by
        simp only [shrink]
        split <;> rfl
      refine ⟨_, hrun, h.shrink hs hend, ?_, fun hw => ?_, fun _ _ _ => hshrunk⟩
      · intro i
        rw [hshrunk, hholds]
        grind
      · have := hw (max first c.position) (by omega) (by omega)
        omega

omit even in
lemma rewindFor_faithful (h : Faithful info frames position c) (i : Nat) :
    ∃ c', c.rewindFor i = (.ok (), c') ∧ Faithful info frames position c' ∧ c'.position ≤ i ∧
      c'.frames = c.frames ∧ c'.frameCount = c.frameCount := by
  unfold rewindFor
  split
  · obtain ⟨s, hrewind, hs⟩ := reel.rewind h.source
    simp only [hrewind]
    exact ⟨_, rfl, { h with source := hs, position_le := Nat.zero_le _ }, Nat.zero_le _, rfl, rfl⟩
  · exact ⟨c, rfl, h, by omega, rfl, rfl⟩

lemma load_fetched (h : Faithful info frames position c) (r : FrameRange) :
    ∃ c', c.load r = (.ok (), c') ∧ Fetched info frames position (· ∈ r) c c' := by
  have hmem (i) : i ∈ r → i < c.frameCount → i ∈ r.below c.frameCount :=
    fun hi hlt => FrameRange.mem_below.mpr ⟨hi, hlt⟩
  have hstop : (r.below c.frameCount).stop ≤ c.frameCount := Nat.min_le_right _ _
  unfold load
  generalize hbelow : r.below c.frameCount = r' at hmem hstop
  generalize hfirst : c.firstMissing r'.start r'.stop = first
  have hheld (i) (hi : i ∈ r') (hlt : i < first) : c.holds i :=
    c.holds_of_lt_firstMissing _ _ hi.1 (hfirst ▸ hlt)
  by_cases hdone : r'.stop ≤ first
  · refine ⟨c, by simp only [hfirst, if_pos hdone], .refl h fun i hi hlt => ?_⟩
    exact hheld i (hmem i hi hlt) (Nat.lt_of_lt_of_le (hmem i hi hlt).2 hdone)
  obtain ⟨c₁, hrewind, h₁, hpos, hframes, hcount⟩ := rewindFor_faithful reel h first
  obtain ⟨c₂, hrun, h₂⟩ := readUpTo_fetched reel even h₁ (hcount ▸ hstop) (Nat.lt_of_not_le hdone)
  refine ⟨c₂.notePeak, by simp only [hfirst, if_neg hdone, hrewind, hrun], ?_⟩
  have hstart : r'.start ≤ first := hfirst ▸ c.le_firstMissing _ _
  refine ((h₂.of_same hframes hcount).widen h ?_ ?_).notePeak
  · rintro i ⟨hle, _, hlt⟩
    exact (FrameRange.mem_below.mp (hbelow ▸ (show i ∈ r' from ⟨by omega, hlt⟩))).1
  · intro i hi hlt
    have hi := hmem i hi hlt
    by_cases hle : first ≤ i
    · exact Or.inl ⟨hle, by omega, hi.2⟩
    · exact Or.inr (hheld i hi (by omega))

lemma loadFrame_fetched (h : Faithful info frames position c) (i : Nat) :
    ∃ c', c.loadFrame i = (.ok (), c') ∧ Fetched info frames position (· = i) c c' := by
  obtain ⟨c', hrun, hc'⟩ := load_fetched reel even h ⟨i, i + 1⟩
  have hmem (j : Nat) : j ∈ (⟨i, i + 1⟩ : FrameRange) ↔ j = i := by
    change i ≤ j ∧ j < i + 1 ↔ j = i
    omega
  exact ⟨c', hrun, hc'.widen h (fun j hj => (hmem j).mp hj) fun j hj _ => .inl ((hmem j).mpr hj)⟩

end

end VideoRemap.Cache

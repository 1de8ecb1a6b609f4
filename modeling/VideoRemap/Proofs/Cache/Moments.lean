import VideoRemap.Proofs.Cache.Counters
import VideoRemap.Proofs.Cache.Forward

/-!
What a cache is like in the middle of a load, and what its counters say of that. Frames only come to
hand during a load, so there are never more of them than at the end of it, when the peak is noted.
-/

namespace VideoRemap.Cache

variable {σ : Type}

lemma length_le_insertFrame (i : Nat) (f : Frame) (fs : List (Nat × Frame)) :
    fs.length ≤ (insertFrame i f fs).length := by
  induction fs with
  | nil => exact Nat.zero_le _
  | cons q rest ih =>
    simp only [insertFrame]
    split
    · exact Nat.le_succ _
    split
    · exact Nat.le_refl _
    · exact Nat.succ_le_succ ih

variable [Source σ] {c c' d : Cache σ} {r : FrameRange}

/-- On the way through a load of `r` the cache is like `d`. Reading stands at frame `k` when it has done
what it takes to read up to `k`. -/
inductive Passes (c : Cache σ) (r : FrameRange) : Cache σ → Prop
  | before : Passes c r c
  | reading {k first : Nat} : c.firstMissing (r.below c.frameCount).start (r.below c.frameCount).stop = first →
      first < (r.below c.frameCount).stop → k ≤ (r.below c.frameCount).stop →
      Passes c r ((c.rewindFor first).2.readUpTo k first).2
  | after : Passes c r (c.load r).2

lemma readUpTo_of_ge {stop first : Nat} (h : ¬ c.position < stop) : c.readUpTo stop first = (.ok (), c) := by
  rw [readUpTo, dif_neg h]

lemma readUpTo_step (first : Nat) (c : Cache σ) :
    (∃ r, c.frames.length ≤ r.2.frames.length ∧
      ∀ stop, c.position < stop → c.readUpTo stop first = r) ∨
    ∃ c' : Cache σ, c.frames.length ≤ c'.frames.length ∧ c'.position = c.position + 1 ∧
      ∀ stop, c.position < stop → c.readUpTo stop first = c'.readUpTo stop first := by
  rcases hnext : Source.next c.source with ⟨e | _ | f, s⟩
  · refine .inl ⟨(.error e, { c with source := s }), Nat.le_refl _, fun stop hlt => ?_⟩
    rw [readUpTo, dif_pos hlt, hnext]
  · refine .inl ⟨(.ok (), { c with source := s }.shrink), ?_, fun stop hlt => ?_⟩
    · simp only [shrink]
      split <;> exact Nat.le_refl _
    · rw [readUpTo, dif_pos hlt, hnext]
  · by_cases hskip : (c.position < first || c.holds c.position) = true
    · refine .inr ⟨{ c with source := s }.skip, Nat.le_refl _, rfl, fun stop hlt => ?_⟩
      rw [readUpTo, dif_pos hlt, hnext]
      exact if_pos hskip
    · by_cases hextent : f.extent = c.extent
      · refine .inr ⟨{ c with source := s }.keep f, length_le_insertFrame _ _ _, rfl, fun stop hlt => ?_⟩
        rw [readUpTo, dif_pos hlt, hnext]
        exact (if_neg hskip).trans (if_neg fun h => h hextent)
      · refine .inl ⟨(.error (.frameExtent c.position f.extent c.extent),
          { c with source := s, position := c.position + 1 }), Nat.le_refl _, fun stop hlt => ?_⟩
        rw [readUpTo, dif_pos hlt, hnext]
        exact (if_neg hskip).trans (if_pos hextent)

lemma length_le_readUpTo (stop first : Nat) (c : Cache σ) :
    c.frames.length ≤ (c.readUpTo stop first).2.frames.length := by
  induction hn : stop - c.position generalizing c with
  | zero =>
    exact Nat.le_of_eq (by rw [readUpTo_of_ge (by omega)])
  | succ n ih =>
    have hlt : c.position < stop := by omega
    rcases c.readUpTo_step first with ⟨r, hle, hr⟩ | ⟨c', hle, hposition, hc'⟩
    · rw [hr stop hlt]
      exact hle
    · rw [hc' stop hlt]
      exact Nat.le_trans hle (ih c' (by omega))

lemma length_readUpTo_mono {k stop : Nat} (h : k ≤ stop) (first : Nat) (c : Cache σ) :
    (c.readUpTo k first).2.frames.length ≤ (c.readUpTo stop first).2.frames.length := by
  induction hn : k - c.position generalizing c with
  | zero =>
    rw [readUpTo_of_ge (by omega : ¬ c.position < k)]
    exact length_le_readUpTo stop first c
  | succ n ih =>
    rcases c.readUpTo_step first with ⟨r, -, hr⟩ | ⟨c', -, hposition, hc'⟩
    · exact Nat.le_of_eq (by rw [hr k (by omega), hr stop (by omega)])
    · rw [hc' k (by omega), hc' stop (by omega)]
      exact ih c' (by omega)

lemma rewindFor_frames (i : Nat) (c : Cache σ) : (c.rewindFor i).2.frames = c.frames := by
  unfold rewindFor
  split
  · rcases Source.rewind c.source with ⟨_ | ⟨⟩, s⟩ <;> rfl
  · rfl

lemma load_cases (h : c.load r = (.ok (), c')) :
    (c' = c ∧ ¬ c.firstMissing (r.below c.frameCount).start (r.below c.frameCount).stop <
      (r.below c.frameCount).stop) ∨
    ∃ first c₁ c₂, c.firstMissing (r.below c.frameCount).start (r.below c.frameCount).stop = first ∧
      c.rewindFor first = (.ok (), c₁) ∧ c₁.readUpTo (r.below c.frameCount).stop first = (.ok (), c₂) ∧
      c' = c₂.notePeak := by
  simp only [load] at h
  split at h
  case isTrue hdone => exact .inl ⟨(Prod.mk.inj h).2.symm, Nat.not_lt_of_le hdone⟩
  rcases hrewind : c.rewindFor _ with ⟨_ | ⟨⟩, c₁⟩ <;> rw [hrewind] at h
  · cases h
  simp only at h
  rcases hread : c₁.readUpTo _ _ with ⟨_ | ⟨⟩, c₂⟩ <;> rw [hread] at h
  · cases h
  · exact .inr ⟨_, c₁, c₂, rfl, hrewind, hread, (Prod.mk.inj h).2.symm⟩

lemma Passes.length_le (hd : c.Passes r d) (h : c.load r = (.ok (), c')) :
    d.frames.length ≤ c'.frames.length := by
  rcases load_cases h with ⟨rfl, hdone⟩ | ⟨first, c₁, c₂, hfirst, hrewind, hread, rfl⟩
  · cases hd with
    | before => exact Nat.le_refl _
    | reading hfirst hlt _ => exact (hdone (hfirst ▸ hlt)).elim
    | after => exact Nat.le_of_eq (by rw [h])
  · have hframes : c₁.frames = c.frames := by rw [← rewindFor_frames first c, hrewind]
    cases hd with
    | before =>
      have hle := length_le_readUpTo (r.below c.frameCount).stop first c₁
      rwa [hread, hframes] at hle
    | reading hfirst' _ hk =>
      obtain rfl := hfirst.symm.trans hfirst'
      have hle := length_readUpTo_mono hk first c₁
      rw [hread] at hle
      rwa [hrewind]
    | after => exact Nat.le_of_eq (by rw [h])

lemma readUpTo_reads (stop first : Nat) (c : Cache σ) :
    let d := (c.readUpTo stop first).2
    c.counters.decoded ≤ d.counters.decoded ∧ d.counters.rewinds = c.counters.rewinds ∧
      d.counters.decoded + d.counters.skipped + c.position ≤
        c.counters.decoded + c.counters.skipped + d.position := by
  fun_induction readUpTo stop first c with
  | case1 => exact ⟨Nat.le_refl _, rfl, Nat.le_refl _⟩
  | case2 =>
    simp only [shrink]
    split <;> exact ⟨Nat.le_refl _, rfl, Nat.le_refl _⟩
  | case3 _ _ _ _ _ _ ih =>
    simp only [skip] at ih ⊢
    omega
  | case4 =>
    refine ⟨Nat.le_refl _, rfl, ?_⟩
    simp only
    omega
  | case5 _ _ _ _ _ _ _ ih =>
    simp only [keep] at ih ⊢
    omega
  | case6 => exact ⟨Nat.le_refl _, rfl, Nat.le_refl _⟩

lemma rewindFor_cases {i : Nat} (h : c.rewindFor i = (.ok (), c')) : c' = c ∨
    c'.counters = { c.counters with rewinds := c.counters.rewinds + 1 } ∧ c'.position = 0 := by
  simp only [rewindFor] at h
  split at h
  · rcases hrewind : Source.rewind c.source with ⟨_ | ⟨⟩, s⟩ <;> rw [hrewind] at h
    · cases h
    · obtain rfl := (Prod.mk.inj h).2
      exact .inr ⟨rfl, rfl⟩
  · exact .inl (Prod.mk.inj h).2.symm

structure Peaks (moments : Cache σ → Prop) (c c' : Cache σ) : Prop where
  mono : c.counters.peak ≤ c'.counters.peak
  resident_le : ∀ d, moments d → d.frames.length ≤ c'.counters.peak
  attained : c'.counters.peak = c.counters.peak ∨ ∃ d, moments d ∧ d.frames.length = c'.counters.peak

section

variable {info : SourceInfo} {frames : List Frame} {position : Nat → σ → Prop}

structure Accounted (info : SourceInfo) (frames : List Frame) (position : Nat → σ → Prop) (c : Cache σ) :
    Prop where
  faithful : Faithful info frames position c
  read : c.counters.decoded + c.counters.skipped ≤ c.counters.rewinds * frames.length + c.position
  resident : c.frames.length ≤ c.counters.peak
  peak_le_count : c.counters.peak ≤ info.frameCount
  peak_le_length : c.counters.peak ≤ frames.length
  peak_le_decoded : c.counters.peak ≤ c.counters.decoded

omit [Source σ] in
lemma Faithful.length_le (h : Faithful info frames position c) :
    c.frames.length ≤ info.frameCount ∧ c.frames.length ≤ frames.length := by
  have hcount : c.frames.length ≤ c.frameCount :=
    h.length_le_size (r := ⟨0, c.frameCount⟩) fun i hi => ⟨Nat.zero_le i, h.below hi⟩
  have hlength : c.frames.length ≤ frames.length :=
    h.length_le_size (r := ⟨0, frames.length⟩) fun i hi => ⟨Nat.zero_le i, h.lt_length hi⟩
  have := h.frameCount
  omega

namespace Accounted

omit [Source σ] in
lemma evictOutside (h : Accounted info frames position c) (r : FrameRange) :
    Accounted info frames position (c.evictOutside r) :=
  { h with
    faithful := h.faithful.evictOutside r
    resident := Nat.le_trans (List.length_filter_le _ _) h.resident }

omit [Source σ] in
lemma notePeak (h : Faithful info frames position c)
    (hread : c.counters.decoded + c.counters.skipped ≤ c.counters.rewinds * frames.length + c.position)
    (hcount : c.counters.peak ≤ info.frameCount) (hlength : c.counters.peak ≤ frames.length)
    (hdecoded : c.counters.peak ≤ c.counters.decoded) : Accounted info frames position c.notePeak where
  faithful := h.notePeak
  read := hread
  resident := Nat.le_max_right _ _
  peak_le_count := Nat.max_le.mpr ⟨hcount, h.length_le.1⟩
  peak_le_length := Nat.max_le.mpr ⟨hlength, h.length_le.2⟩
  peak_le_decoded := by
    have hdec := h.decoded
    exact Nat.max_le.mpr ⟨hdecoded, hdec ▸ Nat.le_add_right _ _⟩

lemma rewindFor (h : Accounted info frames position c) {i : Nat} (hrewind : c.rewindFor i = (.ok (), c')) :
    c'.counters.decoded + c'.counters.skipped ≤ c'.counters.rewinds * frames.length + c'.position ∧
      c'.counters.decoded = c.counters.decoded := by
  rcases rewindFor_cases hrewind with rfl | ⟨hcounters, hposition⟩
  · exact ⟨h.read, rfl⟩
  · have hread := h.read
    have hle := h.faithful.position_le
    simp only [hcounters, hposition, Nat.add_mul, Nat.one_mul, and_true]
    omega

lemma load (h : Accounted info frames position c) (hload : c.load r = (.ok (), c'))
    (hfaithful : Faithful info frames position c') :
    Accounted info frames position c' ∧ Peaks (c.Passes r) c c' := by
  rcases load_cases hload with ⟨rfl, hdone⟩ | ⟨first, c₁, c₂, -, hrewind, hread, rfl⟩
  · refine ⟨h, Nat.le_refl _, fun d hd => ?_, .inl rfl⟩
    exact Nat.le_trans (hd.length_le hload) h.resident
  · obtain ⟨hreads, hdecoded⟩ := h.rewindFor hrewind
    obtain ⟨hmore, hrewinds, htotal⟩ := readUpTo_reads (r.below c.frameCount).stop first c₁
    have hpeak : c₂.counters.peak = c.counters.peak := by
      rw [← (rewindFor_counters first c).2, hrewind,
        ← (readUpTo_counters (r.below c.frameCount).stop first c₁).2, hread]
    rw [hread] at hmore hrewinds htotal
    simp only at hmore hrewinds htotal
    refine ⟨notePeak { hfaithful with } ?_ (hpeak ▸ h.peak_le_count) (hpeak ▸ h.peak_le_length) ?_,
      hpeak ▸ Nat.le_max_left _ _, fun d hd => ?_, ?_⟩
    · rw [hrewinds]
      omega
    · have := h.peak_le_decoded
      omega
    · exact Nat.le_trans (hd.length_le hload) (Nat.le_max_right _ _)
    · rcases Nat.le_total c₂.counters.peak c₂.frames.length with hle | hle
      · exact .inr ⟨_, .after, by rw [hload]; exact (Nat.max_eq_right hle).symm⟩
      · exact .inl ((Nat.max_eq_left hle).trans hpeak)

end Accounted

lemma start_accounted (reel : IsReel info frames position) {input : σ} (h : position 0 input) :
    Accounted info frames position (start input) where
  faithful := start_faithful reel h
  read := Nat.zero_le _
  resident := Nat.le_refl _
  peak_le_count := Nat.zero_le _
  peak_le_length := Nat.zero_le _
  peak_le_decoded := Nat.le_refl _

end

end VideoRemap.Cache

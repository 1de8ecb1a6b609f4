import Mathlib.Data.List.Induction
import VideoRemap.Proofs.Cache.Calls
import VideoRemap.Proofs.Cache.Moments

/-!
The counters of a cache in front of any source at all, also behind calls that failed. Every frame that
was kept is at hand or was dropped. The peak is noted only where a load comes to its end, so a load that
fails on the way leaves frames at hand that the peak does not know of.
-/

namespace VideoRemap.Cache

variable {σ : Type}

def Lacks (c : Cache σ) (r : FrameRange) : Prop := ∃ i ∈ r, i < c.frameCount ∧ c.holds i = false

lemma lacks_iff (c : Cache σ) (r : FrameRange) : c.Lacks r ↔
    c.firstMissing (r.below c.frameCount).start (r.below c.frameCount).stop <
      (r.below c.frameCount).stop := by
  constructor
  · rintro ⟨i, hi, hlt, hmissing⟩
    obtain ⟨hstart, hstop⟩ := FrameRange.mem_below.mpr ⟨hi, hlt⟩
    refine Nat.lt_of_not_le fun hdone => ?_
    have hheld := c.holds_of_lt_firstMissing _ _ hstart (Nat.lt_of_lt_of_le hstop hdone)
    exact Bool.noConfusion (hmissing.symm.trans hheld)
  · intro hlt
    obtain ⟨hmem, hcount⟩ := FrameRange.mem_below.mp
      (show c.firstMissing _ _ ∈ r.below c.frameCount from ⟨c.le_firstMissing _ _, hlt⟩)
    exact ⟨_, hmem, hcount, Bool.eq_false_iff.mpr (c.not_holds_firstMissing hlt)⟩

structure Balanced (c : Cache σ) : Prop where
  ascending : c.frames.Pairwise (·.1 < ·.1)
  decoded : c.counters.decoded = c.frames.length + c.counters.evicted

lemma Balanced.evictOutside {c : Cache σ} (h : c.Balanced) (r : FrameRange) :
    (c.evictOutside r).Balanced where
  ascending := h.ascending.filter _
  decoded := by
    have hle := List.length_filter_le (fun p => decide (p.1 ∈ r)) c.frames
    have hdecoded := h.decoded
    simp only [Cache.evictOutside]
    omega

lemma Balanced.keep {c : Cache σ} (h : c.Balanced) {s : σ} (f : Frame)
    (hnew : c.holds c.position = false) : ({ c with source := s }.keep f).Balanced where
  ascending := insertFrame_ascending h.ascending
  decoded := by
    have hlength := length_insertFrame (f := f) (frame?_eq_none.mpr hnew)
    have hdecoded := h.decoded
    simp only [Cache.keep, hlength]
    omega

variable [Source σ]

lemma Balanced.readUpTo {c : Cache σ} (h : c.Balanced) (stop first : Nat) :
    (c.readUpTo stop first).2.Balanced := by
  fun_induction Cache.readUpTo stop first c with
  | case1 => exact { h with }
  | case2 =>
    simp only [shrink]
    split <;> exact { h with }
  | case3 _ _ _ _ _ _ ih => exact ih { h with }
  | case4 => exact { h with }
  | case5 c _ f s _ hskip _ ih => exact ih (h.keep f (by simp_all))
  | case6 => exact h

lemma Balanced.rewindFor {c : Cache σ} (h : c.Balanced) (i : Nat) : (c.rewindFor i).2.Balanced := by
  simp only [Cache.rewindFor]
  split
  · rcases Source.rewind c.source with ⟨_ | ⟨⟩, s⟩ <;> exact { h with }
  · exact h

lemma load_outcome (c : Cache σ) (r : FrameRange) :
    (¬ c.Lacks r ∧ c.load r = (.ok (), c)) ∨
    c.Lacks r ∧ ∃ stop first,
      (∃ e, c.load r = (.error e, ((c.rewindFor first).2.readUpTo stop first).2)) ∨
      c.load r = (.ok (), ((c.rewindFor first).2.readUpTo stop first).2.notePeak) := by
  rw [lacks_iff]
  simp only [load]
  generalize c.firstMissing (r.below c.frameCount).start (r.below c.frameCount).stop = first
  by_cases hdone : (r.below c.frameCount).stop ≤ first
  · exact .inl ⟨Nat.not_lt_of_le hdone, if_pos hdone⟩
  refine .inr ⟨Nat.lt_of_not_le hdone, ?_⟩
  simp only [if_neg hdone]
  rcases hrewind : c.rewindFor first with ⟨e | ⟨⟩, c₁⟩
  · refine ⟨0, first, .inl ⟨e, ?_⟩⟩
    rw [hrewind, readUpTo_of_ge (Nat.not_lt_zero _)]
  · refine ⟨(r.below c.frameCount).stop, first, ?_⟩
    rw [hrewind]
    simp only
    rcases c₁.readUpTo (r.below c.frameCount).stop first with ⟨e | ⟨⟩, c₂⟩
    · exact .inl ⟨e, rfl⟩
    · exact .inr rfl

lemma Balanced.load {c : Cache σ} (h : c.Balanced) (r : FrameRange) : (c.load r).2.Balanced := by
  rcases c.load_outcome r with ⟨-, hload⟩ | ⟨-, stop, first, ⟨e, hload⟩ | hload⟩
  · rw [hload]
    exact h
  all_goals
    rw [hload]
    exact { (h.rewindFor first).readUpTo stop first with }

def Completes (c : Cache σ) (r : FrameRange) : Prop := c.Lacks r ∧ (c.load r).1 = .ok ()

lemma load_peak (c : Cache σ) (r : FrameRange) :
    (c.Completes r ∧ (c.load r).2.counters.peak = max c.counters.peak (c.load r).2.frames.length) ∨
    (¬ c.Completes r ∧ (c.load r).2.counters.peak = c.counters.peak ∧
      ((c.load r).1 = .ok () → (c.load r).2 = c)) := by
  have hpeak (stop first : Nat) :
      ((c.rewindFor first).2.readUpTo stop first).2.counters.peak = c.counters.peak :=
    (readUpTo_counters stop first _).2.trans (rewindFor_counters first c).2
  unfold Completes
  rcases c.load_outcome r with ⟨hnone, hload⟩ | ⟨hlacks, stop, first, ⟨e, hload⟩ | hload⟩
  all_goals rw [hload]
  · exact .inr ⟨fun h => hnone h.1, rfl, fun _ => rfl⟩
  · exact .inr ⟨fun h => (nomatch h.2), hpeak stop first, nofun⟩
  · refine .inl ⟨⟨hlacks, rfl⟩, ?_⟩
    simp only [notePeak, hpeak]

namespace Call

def Completes (c : Cache σ) : Call → Prop
  | load r => c.Completes r
  | loadFrame i => c.Completes ⟨i, i + 1⟩
  | evictOutside _ => False

lemma perform_balanced {c : Cache σ} (h : c.Balanced) (call : Call) : (call.perform c).2.Balanced := by
  cases call with
  | load r => exact h.load r
  | loadFrame i => exact h.load ⟨i, i + 1⟩
  | evictOutside r => exact h.evictOutside r

lemma perform_peak (c : Cache σ) (call : Call) :
    (call.Completes c ∧
      (call.perform c).2.counters.peak = max c.counters.peak (call.perform c).2.frames.length) ∨
    (¬ call.Completes c ∧ (call.perform c).2.counters.peak = c.counters.peak ∧
      ((call.perform c).1 = .ok () → (call.perform c).2.frames.length ≤ c.frames.length)) := by
  have hshrunk {r : FrameRange} (h : (c.load r).1 = .ok () → (c.load r).2 = c) (hok : (c.load r).1 = .ok ()) :
      (c.load r).2.frames.length ≤ c.frames.length := Nat.le_of_eq (by rw [h hok])
  cases call with
  | load r => exact (c.load_peak r).imp_right (.imp_right (.imp_right hshrunk))
  | loadFrame i => exact (c.load_peak ⟨i, i + 1⟩).imp_right (.imp_right (.imp_right hshrunk))
  | evictOutside r => exact .inr ⟨id, rfl, fun _ => List.length_filter_le _ _⟩

end Call

lemma after_concat (c : Cache σ) (calls : List Call) (call : Call) :
    c.after (calls ++ [call]) = (call.perform (c.after calls)).2 := by
  rw [after, List.foldl_concat]
  rfl

lemma after_balanced (s : σ) (calls : List Call) : ((start s).after calls).Balanced := by
  induction calls using List.reverseRecOn with
  | nil => exact ⟨.nil, rfl⟩
  | append_singleton calls call ih =>
    rw [after_concat]
    exact Call.perform_balanced ih call

/-- At the end of one of the calls, a load that completed, `n` frames or more were at hand. -/
def Noted (s : σ) (calls : List Call) (n : Nat) : Prop :=
  ∃ earlier call, earlier ++ [call] <+: calls ∧ call.Completes ((start s).after earlier) ∧
    n ≤ ((start s).after (earlier ++ [call])).frames.length

lemma noted_concat (s : σ) (calls : List Call) (call : Call) (n : Nat) :
    Noted s (calls ++ [call]) n ↔ Noted s calls n ∨ call.Completes ((start s).after calls) ∧
      n ≤ ((start s).after (calls ++ [call])).frames.length := by
  unfold Noted
  constructor
  · rintro ⟨earlier, call', hpre, h⟩
    rcases List.prefix_concat_iff.mp hpre with heq | hpre
    · obtain ⟨rfl, rfl⟩ := List.append_singleton_inj.mp heq
      exact .inr h
    · exact .inl ⟨earlier, call', hpre, h⟩
  · rintro (⟨earlier, call', hpre, h⟩ | h)
    · exact ⟨earlier, call', hpre.trans (List.prefix_append _ _), h⟩
    · exact ⟨calls, call, List.prefix_rfl, h⟩

lemma le_peak_after (s : σ) (calls : List Call) (n : Nat) :
    n ≤ ((start s).after calls).counters.peak ↔ n = 0 ∨ Noted s calls n := by
  induction calls using List.reverseRecOn with
  | nil =>
    have hnot : ¬ Noted s [] n := fun ⟨earlier, call, hpre, _⟩ =>
      List.concat_ne_nil call earlier (List.prefix_nil.mp hpre)
    simp [after, start, hnot]
  | append_singleton calls call ih =>
    rw [noted_concat, ← or_assoc, ← ih]
    rcases Call.perform_peak ((start s).after calls) call with ⟨hcompletes, hpeak⟩ | ⟨hnot, hpeak, -⟩
    · rw [after_concat, hpeak]
      simp only [hcompletes, true_and]
      omega
    · rw [after_concat, hpeak]
      simp only [hnot, false_and, or_false]

def Clean (s : σ) (calls : List Call) : Prop :=
  ∀ earlier call, earlier ++ [call] <+: calls → (call.perform ((start s).after earlier)).1 = .ok ()

lemma Clean.length_le_peak {s : σ} {calls : List Call} (h : Clean s calls) :
    ((start s).after calls).frames.length ≤ ((start s).after calls).counters.peak := by
  induction calls using List.reverseRecOn with
  | nil => exact Nat.le_refl 0
  | append_singleton calls call ih =>
    have hbefore := ih fun earlier call' hpre => h earlier call' (hpre.trans (List.prefix_append _ _))
    rw [after_concat]
    rcases Call.perform_peak ((start s).after calls) call with ⟨-, hpeak⟩ | ⟨-, hpeak, hshrunk⟩
    · rw [hpeak]
      exact Nat.le_max_right _ _
    · rw [hpeak]
      exact Nat.le_trans (hshrunk (h calls call List.prefix_rfl)) hbefore

/-- The peak knows of the frames at hand exactly if a load has completed with that many, and so at least
as long as no call has failed. -/
theorem counters_behind_failures (s : σ) (calls : List Call) :
    let c := (start s).after calls
    c.indices.Pairwise (· < ·) ∧ c.counters.decoded = c.frames.length + c.counters.evicted ∧
    (c.frames.length ≤ c.counters.peak ↔ c.frames.length = 0 ∨ Noted s calls c.frames.length) ∧
    (Clean s calls → c.frames.length ≤ c.counters.peak) := by
  obtain ⟨hascending, hdecoded⟩ := after_balanced s calls
  exact ⟨List.pairwise_map.mpr hascending, hdecoded, le_peak_after s calls _, Clean.length_le_peak⟩

def breaking : ScriptedSource :=
  ⟨⟨1, 1, .standard, 2, rgbFormat⟩, [.ok (.black 1 1), .error (.reported .io "broken")], none, 0⟩

theorem peak_misses_frame_before_failure :
    let c := (start breaking).after [.load ⟨0, 2⟩]
    let d := c.after [.load ⟨0, 1⟩]
    ((start breaking).load ⟨0, 2⟩).1.isOk = false ∧
    ¬ (c.counters.decoded = c.frames.length + c.counters.evicted ∧ c.frames.length ≤ c.counters.peak) ∧
    (c.load ⟨0, 1⟩).1.isOk = true ∧ d.frames.length = 1 ∧ d.counters.peak = 0 :=
  ⟨by decide +kernel, by decide +kernel, by decide +kernel, by decide +kernel, by decide +kernel⟩

theorem counters_behind_broken_load :
    let calls : List Call := [.load ⟨0, 1⟩, .load ⟨0, 2⟩]
    let c := (start breaking).after calls
    c.counters.decoded = 1 ∧ c.frames.length = 1 ∧ Noted breaking calls 1 ∧
    Clean breaking [.load ⟨0, 1⟩] ∧ ((start breaking).after [.load ⟨0, 1⟩]).frames.length ≤
      ((start breaking).after [.load ⟨0, 1⟩]).counters.peak := by
  intro calls c
  have hlength : c.frames.length = 1 := by decide +kernel
  have hevicted : c.counters.evicted = 0 := by decide +kernel
  have hpeak : c.frames.length ≤ c.counters.peak := by decide +kernel
  have hclean : Clean breaking [.load ⟨0, 1⟩] := by
    intro earlier call hpre
    change earlier ++ [call] <+: [] ++ [.load ⟨0, 1⟩] at hpre
    rcases List.prefix_concat_iff.mp hpre with heq | hpre
    · obtain ⟨rfl, rfl⟩ := List.append_singleton_inj.mp heq
      have hok : ((start breaking).load ⟨0, 1⟩).1.isOk = true := by decide +kernel
      change ((start breaking).load ⟨0, 1⟩).1 = .ok ()
      revert hok
      cases ((start breaking).load ⟨0, 1⟩).1 with
      | ok => exact fun _ => rfl
      | error e => exact nofun
    · exact absurd (List.prefix_nil.mp hpre) (List.concat_ne_nil call earlier)
  obtain ⟨-, hdecoded, hiff, -⟩ := counters_behind_failures breaking calls
  obtain ⟨-, -, -, hfirst⟩ := counters_behind_failures breaking [.load ⟨0, 1⟩]
  refine ⟨?_, hlength, ?_, hclean, hfirst hclean⟩
  · rw [hdecoded]
    exact hlength ▸ hevicted ▸ rfl
  · rcases hiff.mp hpeak with hzero | hnoted
    · exact absurd (hlength.symm.trans hzero) (by decide)
    · exact hlength ▸ hnoted

end VideoRemap.Cache

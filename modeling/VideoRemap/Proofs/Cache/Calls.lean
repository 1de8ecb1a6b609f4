import VideoRemap.Proofs.Cache.Load

namespace VideoRemap.Cache

inductive Call where
  | load (r : FrameRange)
  | loadFrame (i : Nat)
  | evictOutside (r : FrameRange)

variable {σ : Type} [Source σ]

def Call.perform (c : Cache σ) : Call → Step (Cache σ) Unit
  | .load r => c.load r
  | .loadFrame i => c.loadFrame i
  | .evictOutside r => (.ok (), c.evictOutside r)

def after (c : Cache σ) (calls : List Call) : Cache σ :=
  calls.foldl (fun c call => (call.perform c).2) c

variable {info : SourceInfo} {frames : List Frame} {position : Nat → σ → Prop}

section

variable (reel : IsReel info frames position) (even : ∀ f ∈ frames, f.extent = info.extent)

include reel even

lemma perform_faithful {c : Cache σ} (h : Faithful info frames position c) (call : Call) :
    (call.perform c).1 = .ok () ∧ Faithful info frames position (call.perform c).2 := by
  cases call with
  | load r =>
    obtain ⟨c', hrun, hc'⟩ := load_fetched reel even h r
    simp only [Call.perform, hrun]
    exact ⟨trivial, hc'.faithful⟩
  | loadFrame i =>
    obtain ⟨c', hrun, hc'⟩ := loadFrame_fetched reel even h i
    simp only [Call.perform, hrun]
    exact ⟨trivial, hc'.faithful⟩
  | evictOutside r => exact ⟨rfl, h.evictOutside r⟩

lemma after_faithful {c : Cache σ} (h : Faithful info frames position c) (calls : List Call) :
    Faithful info frames position (c.after calls) := by
  induction calls generalizing c with
  | nil => exact h
  | cons call calls ih => exact ih (perform_faithful reel even h call).2

theorem calls_on_reel {s : σ} (hs : position 0 s) (calls : List Call) :
    let c := (start s).after calls
    (∀ i f, c.frame? i = some f → frames[i]? = some f) ∧
    position c.position c.source ∧
    (c.frameCount = info.frameCount ∨
      frames.length < info.frameCount ∧ c.frameCount = frames.length) ∧
    c.indices.Pairwise (· < ·) ∧
    c.counters.decoded = c.indices.length + c.counters.evicted ∧
    (∀ call : Call, (call.perform c).1 = .ok ()) ∧
    (∀ r i, (c.load r).2.holds i ↔ c.holds i ∨ i ∈ r ∧ i < (c.load r).2.frameCount) ∧
    (∀ j i, (c.loadFrame j).2.holds i ↔
      c.holds i ∨ i = j ∧ i < (c.loadFrame j).2.frameCount) ∧
    (∀ r i, (c.evictOutside r).holds i ↔ c.holds i ∧ i ∈ r) := by
  intro c
  have h : Faithful info frames position c :=
    after_faithful reel even (start_faithful reel hs) calls
  refine ⟨fun i f => h.frame, h.source, h.frameCount, List.pairwise_map.mpr h.ascending, ?_,
    fun call => (perform_faithful reel even h call).1, fun r i => ?_, fun j i => ?_,
    holds_evictOutside c⟩
  · rw [indices, List.length_map]
    exact h.decoded
  · obtain ⟨c', hrun, hc'⟩ := load_fetched reel even h r
    rw [hrun]
    exact hc'.holds_iff
  · obtain ⟨c', hrun, hc'⟩ := loadFrame_fetched reel even h j
    rw [hrun]
    exact hc'.holds_iff

end

theorem calls_on_shades :
    let c := (start (MemorySource.shades 3 5)).after [.load ⟨1, 3⟩, .evictOutside ⟨2, 9⟩, .loadFrame 4]
    c.source.position = c.position ∧ c.frameCount = 3 ∧ c.indices = [2] ∧
    c.counters.decoded = c.indices.length + c.counters.evicted ∧
    (c.load ⟨0, 9⟩).1 = .ok () ∧
    ((c.load ⟨0, 9⟩).2.holds 1 ↔
      c.holds 1 ∨ 1 ∈ (⟨0, 9⟩ : FrameRange) ∧ 1 < (c.load ⟨0, 9⟩).2.frameCount) := by
  intro c
  obtain ⟨_, hpos, _, _, hdecoded, hok, hload, _, _⟩ := calls_on_reel
    (MemorySource.isReel (MemorySource.shades 3 5).info (MemorySource.shades 3 5).frames)
    (fun f hf => (MemorySource.shades_even hf).1) (s := MemorySource.shades 3 5) ⟨rfl, rfl, rfl⟩
    [.load ⟨1, 3⟩, .evictOutside ⟨2, 9⟩, .loadFrame 4]
  exact ⟨hpos.2.2, by decide +kernel, by decide +kernel, hdecoded, hok (.load ⟨0, 9⟩), hload _ _⟩

end VideoRemap.Cache

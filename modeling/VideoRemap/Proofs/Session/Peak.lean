import Mathlib.Data.Finset.Lattice.Fold
import Mathlib.Order.Lattice.Nat
import VideoRemap.Proofs.Cache.Counters
import VideoRemap.Proofs.Session.Planned
import VideoRemap.Proofs.Source.Reel
import VideoRemap.Sink.Memory

namespace VideoRemap.Session

variable {σ τ : Type} {info : SourceInfo} {frames : List Frame} {position : Nat → σ → Prop}

def largestLoad (s : Session) (p : Plan) : Nat :=
  (Finset.range s.size.frames).sup fun f => (p.cover (s.batchOf p f)).size

inductive Bounded (s : Session) (p : Plan) (n : Nat) : Stage σ τ → Prop
  | batch {f w} : w.cache.counters.peak ≤ n →
      (∀ i, w.cache.holds i → i ∈ p.keep ⟨f, s.size.frames⟩) → Bounded s p n (.batch f w)
  | frame {stop f w} : w.cache.counters.peak ≤ n → Bounded s p n (.frame stop f w)

variable {s : Session} {p : Plan}

lemma size_cover_le_largestLoad {f : Nat} (hf : f < s.size.frames) (hdvd : p.batch ∣ f) :
    (p.cover (s.batchAt p f)).size ≤ s.largestLoad p := by
  have hbatch := p.batch_pos
  have hstop : f < (s.batchAt p f).stop := by
    simp only [batchAt]
    omega
  rw [← batchOf_eq hdvd (Nat.le_refl f) hstop]
  exact Finset.le_sup (f := fun f => (p.cover (s.batchOf p f)).size) (Finset.mem_range.mpr hf)

variable {n : Nat} {a b : Stage σ τ}

lemma Bounded.peak_le (h : s.Bounded p n a) : a.cache.counters.peak ≤ n := by
  cases h with
  | batch hpeak _ => exact hpeak
  | frame hpeak => exact hpeak

variable [Source σ] [Sink τ]

section

variable (reel : IsReel info frames position) (even : ∀ f ∈ frames, f.extent = info.extent)
  (hcount : info.frameCount ≤ frames.length) (hplanned : s.Planned p info.frameCount)
  (hmonotone : p.Monotone s.size.frames)

include reel even hcount hplanned hmonotone

lemma Bounded.advance (h : s.Bounded p (max p.budget (s.largestLoad p)) a)
    (hsteady : s.Steady p info frames position a) (hstep : s.Advances p a b) :
    s.Bounded p (max p.budget (s.largestLoad p)) b := by
  cases hstep with
  | @load f w c hf hload =>
    obtain ⟨-, hc, -⟩ := hsteady.load reel even hcount hf hload
    cases h with
    | batch hpeak hkept =>
      cases hsteady with
      | batch hstart _ =>
        obtain ⟨r, hsize, hkeep, hcover⟩ := hmonotone.exists_hull hf
        have hlength : c.frames.length ≤ r.size := by
          apply hc.faithful.length_le_size
          intro i hi
          rcases hc.holds_iff.mp hi with hold | ⟨hnew, -⟩
          · exact hkeep i (hkept i hold)
          · exact hcover i hnew
        have hlargest := size_cover_le_largestLoad hf (hstart.resolve_right (Nat.not_le_of_lt hf))
        have hpeak' := (w.cache.load_counters (p.cover (s.batchAt p f))).2
        rw [hload] at hpeak'
        refine .frame ?_
        simp only [batchAt] at hlargest hpeak' ⊢
        omega
  | @write stop f w w' hf hwrite =>
    have hcache := hsteady.write_cache hplanned hf hwrite
    exact .frame (hcache ▸ h.peak_le)
  | @evict stop f w hf =>
    exact .batch h.peak_le fun i hi => ((w.cache.holds_evictOutside _ i).mp hi).2

lemma Bounded.reaches (h : s.Bounded p (max p.budget (s.largestLoad p)) a)
    (hsteady : s.Steady p info frames position a)
    (hreach : Relation.ReflTransGen (s.Advances p) a b) :
    s.Bounded p (max p.budget (s.largestLoad p)) b := by
  induction hreach with
  | refl => exact h
  | tail hreach hstep ih =>
    exact ih.advance reel even hcount hplanned hmonotone
      (hsteady.reaches reel even hcount hplanned hreach) hstep

end

omit [Sink τ] in
lemma start_bounded (input : σ) (begun : τ) (n : Nat) :
    s.Bounded p n (.batch 0 ⟨.start input, begun, #[]⟩) := by
  refine .batch (Nat.zero_le n) fun i hi => ?_
  exact Bool.noConfusion hi

lemma runWith_peak_le (reel : IsReel info frames position) (even : ∀ f ∈ frames, f.extent = info.extent)
    (hcount : info.frameCount ≤ frames.length) (hplanned : s.Planned p info.frameCount)
    (hmonotone : p.Monotone s.size.frames) {input : σ} (hinput : position 0 input) (sink : τ) :
    (s.runWith p input sink).2.cache.counters.peak ≤ max p.budget (s.largestLoad p) := by
  obtain ⟨begun, b, hreach, hlast⟩ := s.runWith_last reel even hcount hplanned hinput sink
  rw [hlast]
  apply Bounded.peak_le
  exact (start_bounded input begun _).reaches reel even hcount hplanned hmonotone
    (start_steady reel hinput begun) hreach

theorem peak_le_budget_or_load (reel : IsReel info frames position)
    (even : ∀ f ∈ frames, f.extent = info.extent) (hcount : info.frameCount ≤ frames.length)
    {input : σ} (hinput : position 0 input) {source : SourceInfo} {coords : Triplet}
    {size : OutputSize} {o : Options} (hs : ofCoords source coords size o = .ok s)
    (ht : coords.t.isExact = true) (hplan : s.PlansExactly p)
    (hplanned : s.Planned p info.frameCount) (sink : τ) {stats : Stats}
    (hstats : (s.runWith p input sink).1 = .ok stats) :
    stats.peakResident ≤ max (o.maxFrames.getD source.frameCount) (s.largestLoad p) := by
  have hmonotone := hplan.monotone (isExact_of_ofCoords hs ht)
  rw [stats_of_runWith hstats, ← PlansExactly.budget_eq hs hplan]
  exact runWith_peak_le reel even hcount hplanned hmonotone hinput sink

theorem peak_of_reversal :
    let coords : Triplet := ⟨.var .x, .var .y, .sum [.literal (.int 3), .negate (.var .t)]⟩
    let input := MemorySource.shades 4 4
    ∃ s, ofCoords input.info coords ⟨1, 1, 4⟩ ⟨2, some 1⟩ = .ok s ∧ s.largestLoad s.plan = 2 ∧
      ∃ stats, (s.run input MemorySink.empty).1 = .ok stats ∧
        stats.peakResident ≤ max 1 (s.largestLoad s.plan) := by
  intro coords input
  have hs : ofCoords input.info coords ⟨1, 1, 4⟩ ⟨2, some 1⟩ = .ok _ := rfl
  refine ⟨_, hs, by decide +kernel, ⟨4, 4, 2, 1, 4, 2⟩, toOption_eq_some.mp (by decide +kernel), ?_⟩
  exact peak_le_budget_or_load (MemorySource.isReel input.info input.frames)
    (fun f hf => (MemorySource.shades_even hf).1) (Nat.le_refl 4)
    (show _ ∧ _ ∧ input.position = 0 from ⟨rfl, rfl, rfl⟩) hs rfl
    (by decide +kernel) (by decide +kernel) MemorySink.empty (toOption_eq_some.mp (by decide +kernel))

end VideoRemap.Session

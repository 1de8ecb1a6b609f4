import VideoRemap.Proofs.Cache.Forward
import VideoRemap.Proofs.Session.Once

namespace VideoRemap.Session

section

variable (s : Session) (p : Plan)

def Ascends : Prop :=
  ∀ f, p.batch ∣ f → f + p.batch < s.size.frames →
    (p.cover (s.batchAt p f)).start ≤ (p.cover (s.batchAt p (f + p.batch))).start

instance : Decidable (s.Ascends p) :=
  decidable_of_iff (∀ f < s.size.frames, p.batch ∣ f → f + p.batch < s.size.frames →
      (p.cover (s.batchAt p f)).start ≤ (p.cover (s.batchAt p (f + p.batch))).start)
    ⟨fun h f hdvd hlt => h f (Nat.lt_of_le_of_lt (Nat.le_add_right _ _) hlt) hdvd hlt,
      fun h f _ => h f⟩

end

variable {s : Session} {p : Plan}

lemma Ascends.start_le (h : s.Ascends p) {f g : Nat} (hf : p.batch ∣ f) (hg : p.batch ∣ g)
    (hle : f ≤ g) (hlt : g < s.size.frames) :
    (p.cover (s.batchAt p f)).start ≤ (p.cover (s.batchAt p g)).start := by
  obtain ⟨k, hk⟩ := Nat.dvd_sub hg hf
  obtain rfl : g = f + p.batch * k := by omega
  clear hk hg hle
  induction k with
  | zero => exact Nat.le_refl _
  | succ k ih =>
    rw [Nat.mul_succ, ← Nat.add_assoc] at hlt ⊢
    have hdvd : p.batch ∣ f + p.batch * k := Nat.dvd_add hf (Nat.dvd_mul_right _ _)
    exact Nat.le_trans (ih (by omega)) (h _ hdvd hlt)

variable {σ τ : Type} {info : SourceInfo} {frames : List Frame} {position : Nat → σ → Prop}

structure Onward (s : Session) (p : Plan) (a : Stage σ τ) : Prop where
  rewinds : a.cache.counters.rewinds = 0
  passed : ∀ i < a.cache.position, a.cache.holds i ∨
    ∀ f, p.batch ∣ f → a.next ≤ f → f < s.size.frames → i ∉ p.cover (s.batchAt p f)

lemma Onward.of_same {a b : Stage σ τ} (h : s.Onward p a) (hcache : b.cache = a.cache)
    (hnext : b.next = a.next) : s.Onward p b := by
  obtain ⟨hrewinds, hpassed⟩ := h
  rw [← hcache] at hrewinds hpassed
  rw [← hnext] at hpassed
  exact ⟨hrewinds, hpassed⟩

variable [Source σ] [Sink τ] {a b : Stage σ τ}

section

variable (reel : IsReel info frames position) (even : ∀ f ∈ frames, f.extent = info.extent)
  (hcount : info.frameCount ≤ frames.length) (hascends : s.Ascends p)

include reel even hcount hascends

omit [Sink τ] in
lemma Onward.load {f : Nat} {w : Work σ τ} (h : s.Onward p (.batch f w))
    (hsteady : s.Steady p info frames position (.batch f w)) (hf : f < s.size.frames) {c : Cache σ}
    (hload : w.cache.load (p.cover (s.batchAt p f)) = (.ok (), c)) :
    s.Onward p (.frame (s.batchAt p f).stop f { w with cache := c }) := by
  obtain ⟨-, hstop, -⟩ := s.batchAt_start_add_size hf p
  obtain ⟨-, hc, hsteady'⟩ := hsteady.load reel even hcount hf hload
  have hsame : c.frameCount = w.cache.frameCount :=
    hsteady'.counts.2.trans hsteady.counts.2.symm
  cases hsteady with
  | batch hstart hw =>
    have hdvd : p.batch ∣ f := hstart.resolve_right (Nat.not_le_of_lt hf)
    obtain ⟨hposition, hrewinds⟩ := Cache.load_forward (c := w.cache) (r := p.cover (s.batchAt p f))
      fun i hi _ hpassed =>
        (h.passed i hpassed).resolve_right fun hspent => hspent f hdvd (Nat.le_refl f) hf hi
    rw [hload] at hposition hrewinds
    refine ⟨hrewinds.trans h.rewinds, fun i hi => ?_⟩
    by_cases hpassed : i < w.cache.position
    · rcases h.passed i hpassed with hheld | hspent
      · exact Or.inl (hc.holds_iff.mpr (Or.inl hheld))
      · exact Or.inr fun g hg hle => hspent g hg (Nat.le_trans (Nat.le_of_lt hstop) hle)
    · -- The frame has been read just now, and in front of the load nothing is needed any more.
      have hread : i < min (p.cover (s.batchAt p f)).stop w.cache.frameCount := by
        change i < c.position at hi
        simp only at hposition
        omega
      by_cases hwanted : (p.cover (s.batchAt p f)).start ≤ i
      · exact Or.inl (hc.holds_iff.mpr (Or.inr ⟨⟨hwanted, by omega⟩, by omega⟩))
      · refine Or.inr fun g hg hle hlt hmem => hwanted ?_
        have hfg : f ≤ g := Nat.le_trans (Nat.le_of_lt hstop) hle
        exact Nat.le_trans (hascends.start_le hdvd hg hfg hlt) hmem.1

variable (hplanned : s.Planned p info.frameCount) (hmonotone : p.Monotone s.size.frames)
  (hfits : ∀ f < s.size.frames, (p.cover ⟨f, s.size.frames⟩).size ≤ p.budget)

include hplanned hmonotone hfits

lemma Onward.advance (h : s.Onward p a) (hsteady : s.Steady p info frames position a)
    (hstep : s.Advances p a b) : s.Onward p b := by
  cases hstep with
  | load hf hload => exact h.load reel even hcount hascends hsteady hf hload
  | @write stop f w w' hf hwrite =>
    have hcache := hsteady.write_cache hplanned hf hwrite
    exact h.of_same hcache rfl
  | @evict stop f w hf =>
    refine ⟨h.rewinds, fun i hi => ?_⟩
    rcases h.passed i hi with hheld | hspent
    · by_cases hkept : i ∈ p.keep ⟨stop, s.size.frames⟩
      · exact Or.inl ((w.cache.holds_evictOutside _ i).mpr ⟨hheld, hkept⟩)
      · exact Or.inr fun f _ hle hlt hmem => hkept (mem_keep_of_mem_cover hmonotone hfits hle hlt hmem)
    · exact Or.inr hspent

lemma Onward.reaches (h : s.Onward p a) (hsteady : s.Steady p info frames position a)
    (hreach : Relation.ReflTransGen (s.Advances p) a b) : s.Onward p b := by
  induction hreach with
  | refl => exact h
  | tail hreach hstep ih =>
    exact ih.advance reel even hcount hascends hplanned hmonotone hfits
      (hsteady.reaches reel even hcount hplanned hreach) hstep

end

omit [Sink τ] in
lemma start_onward (input : σ) (begun : τ) : s.Onward p (.batch 0 ⟨.start input, begun, #[]⟩) :=
  ⟨rfl, fun _ hi => absurd hi (Nat.not_lt_zero _)⟩

theorem ascending_loads_never_rewind (reel : IsReel info frames position)
    (even : ∀ f ∈ frames, f.extent = info.extent) (hcount : info.frameCount ≤ frames.length)
    {input : σ} (hinput : position 0 input) {source : SourceInfo} {coords : Triplet}
    {size : OutputSize} {o : Options} (hs : ofCoords source coords size o = .ok s)
    (hmax : ∀ m, o.maxFrames = some m → source.frameCount ≤ m) (ht : coords.t.isExact = true)
    (hplan : s.PlansExactly p) (hascends : s.Ascends p) (hplanned : s.Planned p info.frameCount)
    (sink : τ) :
    (s.runWith p input sink).2.cache.counters.rewinds = 0 ∧
    ∀ stats, (s.runWith p input sink).1 = .ok stats → stats.rewinds = 0 := by
  have hmonotone := hplan.monotone (isExact_of_ofCoords hs ht)
  have hfits : ∀ f < s.size.frames, (p.cover ⟨f, s.size.frames⟩).size ≤ p.budget :=
    fun f hf => hplan.size_cover_le_budget hs hmax hf (Nat.le_refl _)
  have hrewinds : (s.runWith p input sink).2.cache.counters.rewinds = 0 := by
    obtain ⟨begun, b, hreach, hlast⟩ := s.runWith_last reel even hcount hplanned hinput sink
    have hb := (start_onward (s := s) (p := p) input begun).reaches reel even hcount hascends hplanned
      hmonotone hfits (start_steady reel hinput begun) hreach
    rw [hlast]
    exact hb.rewinds
  refine ⟨hrewinds, fun stats hstats => ?_⟩
  rw [stats_of_runWith hstats]
  exact hrewinds

theorem ascending_loads_of_slit_scan :
    let coords : Triplet := ⟨.var .x, .literal (.int 0), .sum [.var .t, .negate (.var .y)]⟩
    let input := MemorySource.shades 4 4
    ∃ s, ofCoords input.info coords ⟨1, 2, 4⟩ ⟨2, none⟩ = .ok s ∧
      s.plan.cover ⟨0, 2⟩ = ⟨0, 2⟩ ∧ s.plan.cover ⟨2, 4⟩ = ⟨1, 4⟩ ∧
      ∃ stats, (s.run input MemorySink.empty).1 = .ok stats ∧ stats.rewinds = 0 := by
  intro coords input
  have hs : ofCoords input.info coords ⟨1, 2, 4⟩ ⟨2, none⟩ = .ok _ := rfl
  have hrun {s : Session} (hs : ofCoords input.info coords ⟨1, 2, 4⟩ ⟨2, none⟩ = .ok s)
      (hplan : s.PlansExactly s.plan) (hascends : s.Ascends s.plan) (hplanned : s.Planned s.plan 4) :=
    ascending_loads_never_rewind (MemorySource.isReel input.info input.frames)
      (fun f hf => (MemorySource.shades_even hf).1) (Nat.le_refl 4)
      (show _ ∧ _ ∧ input.position = 0 from ⟨rfl, rfl, rfl⟩) hs nofun rfl hplan hascends hplanned
      MemorySink.empty
  refine ⟨_, hs, by decide +kernel, by decide +kernel, ⟨4, 4, 0, 0, 4, 3⟩,
    toOption_eq_some.mp (by decide +kernel), ?_⟩
  exact (hrun hs (by decide +kernel) (by decide +kernel) (by decide +kernel)).2 _
    (toOption_eq_some.mp (by decide +kernel))

end VideoRemap.Session

import Mathlib.Data.List.Nodup
import VideoRemap.Proofs.Cache.Counters
import VideoRemap.Proofs.Session.Planned
import VideoRemap.Proofs.Source.Reel
import VideoRemap.Sink.Memory

/-!
Runs with a budget for the whole source. Whatever a later batch needs is kept until then, so that no
source frame is brought to hand twice.
-/

namespace VideoRemap

variable {σ τ : Type} {info : SourceInfo} {frames : List Frame} {position : Nat → σ → Prop}

def Stage.next : Stage σ τ → Nat
  | batch f _ => f
  | frame stop _ _ => stop

namespace Session

section

variable [Source σ] [Sink τ] (s : Session) (p : Plan)

inductive Collects (a : Stage σ τ) : List Nat → Stage σ τ → Prop
  | refl : Collects a [] a
  | tail {log b c} : Collects a log b → s.Advances p b c →
      Collects a (log ++ b.cache.gained c.cache) c

end

/-- The frames brought to hand so far are different ones out of `n`, and those that have been
dropped are not needed any more. -/
structure Fresh (s : Session) (p : Plan) (n : Nat) (log : List Nat) (a : Stage σ τ) : Prop where
  nodup : log.Nodup
  decoded : a.cache.counters.decoded = log.length
  lt : ∀ i ∈ log, i < n
  mem_log : ∀ i, a.cache.holds i → i ∈ log
  spent : ∀ i ∈ log, a.cache.holds i ∨
    ∀ f, a.next ≤ f → f < s.size.frames → i ∉ p.cover (s.batchAt p f)

variable {s : Session} {p : Plan} {n : Nat} {log : List Nat}

lemma Fresh.length_le {a : Stage σ τ} (h : s.Fresh p n log a) : log.length ≤ n := by
  have hsub : log ⊆ List.range n := fun i hi => List.mem_range.mpr (h.lt i hi)
  have hle := (List.subperm_of_subset h.nodup hsub).length_le
  rwa [List.length_range] at hle

lemma Fresh.of_same {a b : Stage σ τ} (h : s.Fresh p n log a) (hcache : b.cache = a.cache)
    (hnext : b.next = a.next) : s.Fresh p n log b where
  nodup := h.nodup
  decoded := by rw [hcache, h.decoded]
  lt := h.lt
  mem_log := by
    rw [hcache]
    exact h.mem_log
  spent := by
    rw [hcache, hnext]
    exact h.spent

lemma mem_keep_of_mem_cover (hmonotone : p.Monotone s.size.frames)
    (hfits : ∀ f < s.size.frames, (p.cover ⟨f, s.size.frames⟩).size ≤ p.budget) {stop f i : Nat}
    (hle : stop ≤ f) (hf : f < s.size.frames) (hi : i ∈ p.cover (s.batchAt p f)) :
    i ∈ p.keep ⟨stop, s.size.frames⟩ := by
  have hbatch := p.batch_pos
  rw [Plan.keep_of_fits (by omega) (hfits stop (by omega))]
  exact hmonotone _ ⟨stop, s.size.frames⟩
    ⟨by simp only [batchAt]; omega, hle, Nat.min_le_right _ _⟩ (Nat.le_refl _) i hi

variable [Source σ] [Sink τ] {a b : Stage σ τ}

lemma exists_collects (h : Relation.ReflTransGen (s.Advances p) a b) : ∃ log, s.Collects p a log b := by
  induction h with
  | refl => exact ⟨[], .refl⟩
  | tail _ hstep ih =>
    obtain ⟨log, hlog⟩ := ih
    exact ⟨_, .tail hlog hstep⟩

lemma Collects.reaches (h : s.Collects p a log b) : Relation.ReflTransGen (s.Advances p) a b := by
  induction h with
  | refl => exact .refl
  | tail _ hstep ih => exact ih.tail hstep

section

variable (reel : IsReel info frames position) (even : ∀ f ∈ frames, f.extent = info.extent)
  (hcount : info.frameCount ≤ frames.length) (hplanned : s.Planned p info.frameCount)
  (hmonotone : p.Monotone s.size.frames)
  (hfits : ∀ f < s.size.frames, (p.cover ⟨f, s.size.frames⟩).size ≤ p.budget)

include reel even hcount

omit [Sink τ] in
lemma Fresh.load {f : Nat} {w : Work σ τ} (h : s.Fresh p info.frameCount log (.batch f w))
    (hsteady : s.Steady p info frames position (.batch f w)) (hf : f < s.size.frames) {c : Cache σ}
    (hload : w.cache.load (p.cover (s.batchAt p f)) = (.ok (), c)) :
    s.Fresh p info.frameCount (log ++ w.cache.gained c)
      (.frame (s.batchAt p f).stop f { w with cache := c }) := by
  obtain ⟨-, hstop, -⟩ := s.batchAt_start_add_size hf p
  obtain ⟨-, hc, hsteady'⟩ := hsteady.load reel even hcount hf hload
  have hnew {i : Nat} (hi : i ∈ w.cache.gained c) :
      w.cache.holds i = false ∧ i ∈ p.cover (s.batchAt p f) ∧ i < info.frameCount := by
    obtain ⟨hcover, hlt⟩ := hc.of_mem_gained hi
    exact ⟨(Cache.mem_gained.mp hi).2, hcover, hsteady'.counts.2 ▸ hlt⟩
  refine { nodup := ?nodup, decoded := ?decoded, lt := ?lt, mem_log := ?mem_log, spent := ?spent }
  case nodup =>
    -- A frame of the log that is needed now has not been dropped, so it is not new.
    apply h.nodup.append hc.faithful.nodup_gained
    intro i hi hgained
    obtain ⟨hmissing, hcover, -⟩ := hnew hgained
    rcases h.spent i hi with hheld | hspent
    · exact Bool.noConfusion (hmissing.symm.trans hheld)
    · exact hspent f (Nat.le_refl f) hf hcover
  case decoded =>
    rw [List.length_append, ← h.decoded]
    exact Cache.load_decoded hsteady.counts.1 hload hc
  case lt =>
    intro i hi
    rcases List.mem_append.mp hi with hi | hi
    · exact h.lt i hi
    · exact (hnew hi).2.2
  case mem_log =>
    intro i hi
    rw [List.mem_append, Cache.mem_gained]
    by_cases hold : w.cache.holds i
    · exact Or.inl (h.mem_log i hold)
    · exact Or.inr ⟨hi, Bool.eq_false_iff.mpr hold⟩
  case spent =>
    intro i hi
    rcases List.mem_append.mp hi with hi | hi
    · rcases h.spent i hi with hheld | hspent
      · exact Or.inl (hc.holds_iff.mpr (Or.inl hheld))
      · exact Or.inr fun g hle => hspent g (Nat.le_trans (Nat.le_of_lt hstop) hle)
    · exact Or.inl (Cache.mem_gained.mp hi).1

include hplanned hmonotone hfits

lemma Fresh.advance (h : s.Fresh p info.frameCount log a)
    (hsteady : s.Steady p info frames position a) (hstep : s.Advances p a b) :
    s.Fresh p info.frameCount (log ++ a.cache.gained b.cache) b := by
  cases hstep with
  | load hf hload => exact h.load reel even hcount hsteady hf hload
  | @write stop f w w' hf hwrite =>
    have hcache := hsteady.write_cache hplanned hf hwrite
    change s.Fresh p info.frameCount (log ++ w.cache.gained w'.cache) _
    rw [hcache, Cache.gained_eq_nil fun i hi => hi, List.append_nil]
    exact h.of_same hcache rfl
  | @evict stop f w hf =>
    have hholds (i : Nat) := w.cache.holds_evictOutside (p.keep ⟨stop, s.size.frames⟩) i
    change s.Fresh p info.frameCount
      (log ++ w.cache.gained (w.cache.evictOutside (p.keep ⟨stop, s.size.frames⟩))) _
    rw [Cache.gained_eq_nil fun i hi => ((hholds i).mp hi).1, List.append_nil]
    refine ⟨h.nodup, h.decoded, h.lt, fun i hi => h.mem_log i ((hholds i).mp hi).1, fun i hi => ?_⟩
    rcases h.spent i hi with hheld | hspent
    · by_cases hkept : i ∈ p.keep ⟨stop, s.size.frames⟩
      · exact Or.inl ((hholds i).mpr ⟨hheld, hkept⟩)
      · exact Or.inr fun f hle hlt hmem => hkept (mem_keep_of_mem_cover hmonotone hfits hle hlt hmem)
    · exact Or.inr hspent

lemma Collects.fresh (h : s.Collects p a log b) (hsteady : s.Steady p info frames position a)
    (ha : s.Fresh p info.frameCount [] a) : s.Fresh p info.frameCount log b := by
  induction h with
  | refl => exact ha
  | tail h hstep ih =>
    exact ih.advance reel even hcount hplanned hmonotone hfits
      (hsteady.reaches reel even hcount hplanned h.reaches) hstep

end

omit [Sink τ] in
lemma start_fresh (input : σ) (begun : τ) (n : Nat) :
    s.Fresh p n [] (.batch 0 ⟨.start input, begun, #[]⟩) :=
  ⟨List.nodup_nil, rfl, nofun, nofun, nofun⟩

theorem each_frame_once (reel : IsReel info frames position)
    (even : ∀ f ∈ frames, f.extent = info.extent) (hcount : info.frameCount ≤ frames.length)
    {input : σ} (hinput : position 0 input) {source : SourceInfo} {coords : Triplet}
    {size : OutputSize} {o : Options} (hs : ofCoords source coords size o = .ok s)
    (hmax : ∀ m, o.maxFrames = some m → source.frameCount ≤ m)
    (ht : coords.t.isExact = true) (hplan : s.PlansExactly p)
    (hplanned : s.Planned p info.frameCount) (sink : τ) :
    (∀ (begun : τ) log b, s.Collects p (.batch 0 ⟨.start input, begun, #[]⟩) log b →
      log.Nodup ∧ b.cache.counters.decoded = log.length) ∧
    (s.runWith p input sink).2.cache.counters.decoded ≤ info.frameCount ∧
    ∀ stats, (s.runWith p input sink).1 = .ok stats → stats.framesDecoded ≤ info.frameCount := by
  have hmonotone := hplan.monotone (isExact_of_ofCoords hs ht)
  have hfits : ∀ f < s.size.frames, (p.cover ⟨f, s.size.frames⟩).size ≤ p.budget := by
    intro f hf
    rw [PlansExactly.budget_eq hs hplan]
    apply Nat.le_trans (hplan.size_cover_le hf (Nat.le_refl _))
    rw [source_of_ofCoords hs]
    cases hm : o.maxFrames with
    | none => exact Nat.le_refl _
    | some m => exact hmax m hm
  have hfresh (begun : τ) {log : List Nat} {b : Stage σ τ}
      (h : s.Collects p (.batch 0 ⟨.start input, begun, #[]⟩) log b) :
      s.Fresh p info.frameCount log b :=
    h.fresh reel even hcount hplanned hmonotone hfits (start_steady reel hinput begun)
      (start_fresh input begun _)
  have hdecoded : (s.runWith p input sink).2.cache.counters.decoded ≤ info.frameCount := by
    obtain ⟨begun, b, hreach, hlast⟩ := s.runWith_last reel even hcount hplanned hinput sink
    obtain ⟨log, hlog⟩ := exists_collects hreach
    rw [hlast, (hfresh begun hlog).decoded]
    exact (hfresh begun hlog).length_le
  refine ⟨fun begun log b h => ⟨(hfresh begun h).nodup, (hfresh begun h).decoded⟩, hdecoded, ?_⟩
  intro stats hstats
  rw [stats_of_runWith hstats]
  exact hdecoded

theorem each_frame_once_of_remainder :
    let coords : Triplet :=
      ⟨.var .x, .var .y, .quotient .remainder (.var .t) (.literal (.int 2))⟩
    let input := MemorySource.shades 3 3
    ∃ s, ofCoords input.info coords ⟨1, 1, 4⟩ ⟨1, none⟩ = .ok s ∧
      (∀ (begun : MemorySink) log b,
        s.Collects s.plan (.batch 0 ⟨.start input, begun, #[]⟩) log b → log.Nodup) ∧
      ∃ stats, (s.run input MemorySink.empty).1 = .ok stats ∧ stats.framesDecoded ≤ 3 := by
  intro coords input
  have hs : ofCoords input.info coords ⟨1, 1, 4⟩ ⟨1, none⟩ = .ok _ := rfl
  have honce {s : Session} (hs : ofCoords input.info coords ⟨1, 1, 4⟩ ⟨1, none⟩ = .ok s)
      (hplan : s.PlansExactly s.plan) (hplanned : s.Planned s.plan 3) :=
    each_frame_once (MemorySource.isReel input.info input.frames)
      (fun f hf => (MemorySource.shades_even hf).1) (Nat.le_refl 3)
      (show _ ∧ _ ∧ input.position = 0 from ⟨rfl, rfl, rfl⟩) hs nofun rfl hplan hplanned MemorySink.empty
  obtain ⟨hcollects, -, hdecoded⟩ := honce hs (by decide +kernel) (by decide +kernel)
  refine ⟨_, hs, fun begun log b h => (hcollects begun log b h).1, ⟨4, 3, 0, 0, 3, 3⟩, ?_, ?_⟩
  · exact toOption_eq_some.mp (by decide +kernel)
  · exact hdecoded _ (toOption_eq_some.mp (by decide +kernel))

end Session

end VideoRemap

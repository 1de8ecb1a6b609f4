import VideoRemap.Proofs.Plan
import VideoRemap.Proofs.Session.Basic
import VideoRemap.Proofs.Session.Missing
import VideoRemap.Proofs.Session.Stage

namespace VideoRemap

variable {σ τ : Type} {info : SourceInfo} {frames : List Frame} {position : Nat → σ → Prop}

lemma Cache.loadMissing_of_held [Source σ] {c : Cache σ} {is : List Nat} (h : ∀ i ∈ is, c.holds i) :
    c.loadMissing is = (.ok (), c) := by
  induction is with
  | nil => rfl
  | cons i is ih =>
    rw [loadMissing, if_pos (h i List.mem_cons_self)]
    exact ih fun j hj => h j (List.mem_cons_of_mem _ hj)

namespace Session

section

variable {s : Session} {f n : Nat} {is : List Nat}

lemma lt_of_neededIn {α β : Type} [Scalar α] [Scalar β] (h : s.neededIn α β f n = .ok is) {i : Nat}
    (hi : i ∈ is) : i < n := by
  simp only [neededIn] at h
  cases hcoords : s.coordsIn α β f with
  | error e =>
    rw [hcoords] at h
    cases h
  | ok spans =>
    rw [hcoords] at h
    obtain rfl := Except.ok.inj h
    exact (mem_referencedFrames.mp hi).1

lemma lt_of_needed (h : s.needed f n = .ok is) {i : Nat} (hi : i ∈ is) : i < n := by
  cases hxy : s.xy <;> cases ht : s.t <;> simp only [needed, hxy, ht] at h <;>
    exact lt_of_neededIn h hi

variable [Source σ] {c : Cache σ}

lemma renderIn_of_held {α β : Type} [Scalar α] [Scalar β]
    (h : ∀ is, s.neededIn α β f c.frameCount = .ok is → ∀ i ∈ is, c.holds i) :
    (s.renderIn α β f c).2 = c := by
  cases hcoords : s.coordsIn α β f with
  | error e => rw [renderIn_of_error hcoords]
  | ok spans =>
    obtain ⟨xs, ys, ts⟩ := spans
    have hheld : ∀ i ∈ referencedFrames ts c.frameCount, c.holds i := by
      apply h
      rw [neededIn, hcoords]
      rfl
    simp only [coordsIn] at hcoords
    simp only [renderIn, hcoords, Cache.loadMissing_of_held hheld]

lemma render_of_held (h : ∀ is, s.needed f c.frameCount = .ok is → ∀ i ∈ is, c.holds i) :
    (s.render f c).2 = c := by
  cases hxy : s.xy <;> cases ht : s.t <;> simp only [render, needed, hxy, ht] at h ⊢ <;>
    exact renderIn_of_held h

end

section

variable (s : Session) (p : Plan)

def batchOf (f : Nat) : FrameRange := s.batchAt p (f / p.batch * p.batch)

/-- Out of `n` source frames, an output frame reads only those that are planned for its batch. -/
def Planned (n : Nat) : Prop :=
  ∀ f < s.size.frames, ∀ is, s.needed f n = .ok is → ∀ i ∈ is, i ∈ p.cover (s.batchOf p f)

/-- On the output of `s` the plan is the one with exact endpoints. -/
structure PlansExactly : Prop where
  budget : p.budget = (s.planIn Int).budget
  batch : p.batch = (s.planIn Int).batch
  cover r : r.start < r.stop → r.stop ≤ s.size.frames → p.cover r = (s.planIn Int).cover r

instance (n : Nat) : Decidable (s.Planned p n) :=
  decidable_of_iff (∀ f < s.size.frames, ∀ is ∈ (s.needed f n).toOption, ∀ i ∈ is,
    i ∈ p.cover (s.batchOf p f)) (by simp only [Planned, Option.mem_def, toOption_eq_some])

instance : Decidable (s.PlansExactly p) :=
  decidable_of_iff (p.budget = (s.planIn Int).budget ∧ p.batch = (s.planIn Int).batch ∧
      ∀ stop < s.size.frames + 1, ∀ start < stop,
        p.cover ⟨start, stop⟩ = (s.planIn Int).cover ⟨start, stop⟩)
    ⟨fun ⟨hbudget, hbatch, hcover⟩ =>
      ⟨hbudget, hbatch, fun r hlt hstop => hcover r.stop (Nat.lt_succ_of_le hstop) r.start hlt⟩,
    fun h => ⟨h.budget, h.batch, fun stop hstop start hlt =>
      h.cover ⟨start, stop⟩ hlt (Nat.le_of_lt_succ hstop)⟩⟩

inductive Steady (info : SourceInfo) (frames : List Frame) (position : Nat → σ → Prop) :
    Stage σ τ → Prop
  | batch {f w} : p.batch ∣ f ∨ s.size.frames ≤ f →
      w.Counts info frames position info.frameCount → Steady info frames position (.batch f w)
  | frame {g f w} : p.batch ∣ g → g < s.size.frames → g ≤ f →
      w.Counts info frames position info.frameCount →
      (∀ i ∈ p.cover (s.batchAt p g), i < info.frameCount → w.cache.holds i) →
      Steady info frames position (.frame (s.batchAt p g).stop f w)

end

variable {s : Session} {p : Plan}

lemma batchOf_eq {f g : Nat} (hg : p.batch ∣ g) (hle : g ≤ f) (hf : f < (s.batchAt p g).stop) :
    s.batchOf p f = s.batchAt p g := by
  obtain ⟨k, rfl⟩ := hg
  have hlt : f < p.batch * k + p.batch := Nat.lt_of_lt_of_le hf (Nat.min_le_left _ _)
  have hdiv : f / p.batch = k := by
    apply Nat.div_eq_of_lt_le
    · rw [Nat.mul_comm]
      exact hle
    · rw [Nat.add_mul, Nat.one_mul, Nat.mul_comm]
      exact hlt
  rw [batchOf, hdiv, Nat.mul_comm]

section

variable {source : SourceInfo} {coords : Triplet} {size : OutputSize} {o : Options}
  (hs : ofCoords source coords size o = .ok s)

include hs

lemma source_of_ofCoords : s.source = source := by
  obtain ⟨c, hadmits⟩ := admits_of_ofCoords hs
  rw [hadmits.eq]

lemma isExact_of_ofCoords (ht : coords.t.isExact = true) : s.coords.t.isExact = true := by
  obtain ⟨c, hadmits⟩ := admits_of_ofCoords hs
  rw [hadmits.eq]
  simpa only [clampTo, Expr.isExact] using ht

lemma PlansExactly.budget_eq (h : s.PlansExactly p) : p.budget = o.maxFrames.getD source.frameCount := by
  obtain ⟨c, hadmits⟩ := admits_of_ofCoords hs
  have hbudget : p.budget = max (o.maxFrames.getD source.frameCount) 1 := by
    rw [h.budget, hadmits.eq]
    rfl
  rw [hbudget, Nat.max_eq_left (budget_pos hs)]

end

namespace PlansExactly

lemma monotone (h : s.PlansExactly p) (ht : s.coords.t.isExact = true) : p.Monotone s.size.frames := by
  intro r r' hinside hstop i hi
  have hle := hinside.stop_le
  have hstart := hinside.start_le
  have hlt := hinside.start_lt
  rw [h.cover r hlt (by omega)] at hi
  rw [h.cover r' (by omega) hstop]
  exact Plan.ofExpr_monotone ht _ _ _ _ _ s.size.frames r r' hinside hstop i hi

lemma size_cover_le (h : s.PlansExactly p) {r : FrameRange} (hlt : r.start < r.stop)
    (hstop : r.stop ≤ s.size.frames) : (p.cover r).size ≤ s.source.frameCount := by
  rw [h.cover r hlt hstop]
  exact Interval.size_cover_le _ _

lemma size_cover_le_budget {source : SourceInfo} {coords : Triplet} {size : OutputSize} {o : Options}
    (h : s.PlansExactly p) (hs : ofCoords source coords size o = .ok s)
    (hmax : ∀ m, o.maxFrames = some m → source.frameCount ≤ m) {r : FrameRange}
    (hlt : r.start < r.stop) (hstop : r.stop ≤ s.size.frames) : (p.cover r).size ≤ p.budget := by
  rw [budget_eq hs h]
  apply Nat.le_trans (h.size_cover_le hlt hstop)
  rw [source_of_ofCoords hs]
  cases hm : o.maxFrames with
  | none => exact Nat.le_refl _
  | some m => exact hmax m hm

end PlansExactly

variable [Source σ] [Sink τ] {a b : Stage σ τ}

namespace Steady

omit [Source σ] [Sink τ] in
lemma counts (h : s.Steady p info frames position a) :
    a.cache.Faithful info frames position ∧ a.cache.frameCount = info.frameCount := by
  cases h with
  | batch _ hw => exact ⟨hw.faithful, hw.count⟩
  | frame _ _ _ hw _ => exact ⟨hw.faithful, hw.count⟩

lemma write_cache (hplanned : s.Planned p info.frameCount) {stop f : Nat} {w w' : Work σ τ}
    {outcome : Except Fault Unit} (h : s.Steady p info frames position (.frame stop f w))
    (hf : f < stop) (hwrite : s.write f w = (outcome, w')) : w'.cache = w.cache := by
  have hcache : w'.cache = (s.render f w.cache).2 := by rw [← s.write_cache, hwrite]
  cases h with
  | @frame g _ _ hg hlt hle hw hheld =>
    rw [hcache]
    apply render_of_held
    intro is his i hi
    rw [hw.count] at his
    have hmem := hplanned f (Nat.lt_of_lt_of_le hf (Nat.min_le_right _ _)) is his i hi
    rw [batchOf_eq hg hle hf] at hmem
    exact hheld i hmem (lt_of_needed his hi)

section

variable (reel : IsReel info frames position) (even : ∀ f ∈ frames, f.extent = info.extent)
  (hcount : info.frameCount ≤ frames.length) (hplanned : s.Planned p info.frameCount)

include reel even hcount

omit [Sink τ] in
lemma load {f : Nat} {w : Work σ τ} (h : s.Steady p info frames position (.batch f w))
    (hf : f < s.size.frames) {outcome : Except Fault Unit} {c : Cache σ}
    (hload : w.cache.load (p.cover (s.batchAt p f)) = (outcome, c)) :
    outcome = .ok () ∧
      Cache.Fetched info frames position (· ∈ p.cover (s.batchAt p f)) w.cache c ∧
      s.Steady p info frames position (.frame (s.batchAt p f).stop f { w with cache := c } : Stage σ τ) := by
  cases h with
  | batch hstart hw =>
    obtain ⟨c', hrun, hc⟩ := Cache.load_fetched reel even hw.faithful (p.cover (s.batchAt p f))
    obtain ⟨rfl, rfl⟩ := Prod.mk.inj (hrun.symm.trans hload)
    have hsame : c'.frameCount = info.frameCount := by
      rw [hc.count_eq fun i _ hlt => by have := hw.count; omega, hw.count]
    refine ⟨rfl, hc, .frame (by omega) hf (Nat.le_refl f) ⟨hc.faithful, hsame⟩ fun i hi hlt => ?_⟩
    exact hc.holds_iff.mpr (Or.inr ⟨hi, hsame ▸ hlt⟩)

include hplanned

lemma advance (h : s.Steady p info frames position a) (hstep : s.Advances p a b) :
    s.Steady p info frames position b := by
  cases hstep with
  | load hf hload => exact (h.load reel even hcount hf hload).2.2
  | @write stop f w w' hf hwrite =>
    have hcache := h.write_cache hplanned hf hwrite
    cases h with
    | frame hg hlt hle hw hheld =>
      refine .frame hg hlt (by omega) ⟨?_, ?_⟩ ?_
      · exact hcache ▸ hw.faithful
      · exact hcache ▸ hw.count
      · exact hcache ▸ hheld
  | @evict stop f w hf =>
    cases h with
    | @frame g _ _ hg hlt hle hw hheld =>
      refine .batch ?_ ⟨hw.faithful.evictOutside _, hw.count⟩
      rcases Nat.le_total (g + p.batch) s.size.frames with hmore | hlast
      · rw [batchAt, Nat.min_eq_left hmore]
        exact Or.inl (Nat.dvd_add hg (Nat.dvd_refl _))
      · rw [batchAt, Nat.min_eq_right hlast]
        exact Or.inr (Nat.le_refl _)

lemma reaches (h : s.Steady p info frames position a)
    (hreach : Relation.ReflTransGen (s.Advances p) a b) : s.Steady p info frames position b := by
  induction hreach with
  | refl => exact h
  | tail _ hstep ih => exact ih.advance reel even hcount hplanned hstep

lemma exists_last (h : s.Steady p info frames position a) :
    ∃ b, Relation.ReflTransGen (s.Advances p) a b ∧ (s.rest p a).2.cache = b.cache := by
  obtain ⟨b, hreach, hlast⟩ := s.exists_last_stage (p := p) a
  have hb := h.reaches reel even hcount hplanned hreach
  refine ⟨b, hreach, ?_⟩
  rw [rest_eq_of_reaches hreach]
  rcases hlast with ⟨f, w, rfl, hf⟩ | ⟨e, hfails⟩
  · rw [rest, s.writeFrom_of_ge hf]
    rfl
  cases b with
  | batch f w =>
    rcases hload : w.cache.load (p.cover (s.batchAt p f)) with ⟨outcome, c⟩
    obtain ⟨hf, hfail⟩ := hfails
    rw [hload] at hfail
    cases (hb.load reel even hcount hf hload).1.symm.trans hfail
  | frame stop f w =>
    rcases hwrite : s.write f w with ⟨outcome, w'⟩
    obtain ⟨hf, hfail⟩ := hfails
    rw [hwrite] at hfail
    obtain rfl : outcome = .error e := hfail
    rw [rest_of_write hf hwrite]
    exact hb.write_cache hplanned hf hwrite

end

end Steady

omit [Sink τ] in
lemma start_steady (reel : IsReel info frames position) {input : σ} (hinput : position 0 input)
    (begun : τ) : s.Steady p info frames position (.batch 0 ⟨.start input, begun, #[]⟩) := by
  refine .batch (Or.inl (Nat.dvd_zero _)) ⟨Cache.start_faithful reel hinput, ?_⟩
  rw [Cache.start, reel.info_eq hinput]

lemma runWith_last (reel : IsReel info frames position) (even : ∀ f ∈ frames, f.extent = info.extent)
    (hcount : info.frameCount ≤ frames.length) (hplanned : s.Planned p info.frameCount) {input : σ}
    (hinput : position 0 input) (sink : τ) :
    ∃ (begun : τ) (b : Stage σ τ),
      Relation.ReflTransGen (s.Advances p) (.batch 0 ⟨.start input, begun, #[]⟩) b ∧
      (s.runWith p input sink).2.cache = b.cache := by
  rcases s.runWith_cache p input sink with hstart | ⟨begun, hrest⟩
  · exact ⟨sink, _, .refl, hstart⟩
  · obtain ⟨b, hreach, hlast⟩ :=
      (start_steady reel hinput begun).exists_last reel even hcount hplanned
    exact ⟨begun, b, hreach, hrest.trans hlast⟩

end Session

end VideoRemap

import Mathlib.Logic.Relation
import VideoRemap.Proofs.Session.Deliver

/-!
A run step by step. A run stands before a batch or before a frame of a batch, and it fails exactly
if it reaches a stage from which it cannot go on.
-/

namespace VideoRemap

inductive Stage (σ τ : Type) where
  | batch (f : Nat) (w : Work σ τ)
  | frame (stop f : Nat) (w : Work σ τ)

def Stage.cache {σ τ : Type} : Stage σ τ → Cache σ
  | batch _ w => w.cache
  | frame _ _ w => w.cache

def Stage.sink {σ τ : Type} : Stage σ τ → τ
  | batch _ w => w.sink
  | frame _ _ w => w.sink

def Stage.delivered {σ τ : Type} : Stage σ τ → Nat
  | batch f _ => f
  | frame _ f _ => f

inductive Sink.Refuses {τ : Type} [Sink τ] (e : Fault) (after : τ) : Prop
  | begin {c before} : Sink.begin c before = (.error e, after) → Refuses e after
  | push {i f before} : Sink.push i f before = (.error e, after) → Refuses e after
  | finish {before} : Sink.finish before = (.error e, after) → Refuses e after

def Work.evict {σ τ : Type} (r : FrameRange) (w : Work σ τ) : Work σ τ :=
  { w with cache := w.cache.evictOutside r }

namespace Session

variable {σ τ : Type} [Source σ] [Sink τ] (s : Session) (p : Plan)

inductive Advances : Stage σ τ → Stage σ τ → Prop
  | load {f w c} : f < s.size.frames → w.cache.load (p.cover (s.batchAt p f)) = (.ok (), c) →
      Advances (.batch f w) (.frame (s.batchAt p f).stop f { w with cache := c })
  | write {stop f w w'} : f < stop → s.write f w = (.ok (), w') →
      Advances (.frame stop f w) (.frame stop (f + 1) w')
  | evict {stop f w} : ¬ f < stop →
      Advances (.frame stop f w) (.batch stop (w.evict (p.keep ⟨stop, s.size.frames⟩)))

def Fails (e : Fault) : Stage σ τ → Prop
  | .batch f w => f < s.size.frames ∧ (w.cache.load (p.cover (s.batchAt p f))).1 = .error e
  | .frame stop f w => f < stop ∧ (s.write f w).1 = .error e

/-- Loading or rendering raises `e` here, before the sink is called again. -/
def Falters (e : Fault) : Stage σ τ → Prop
  | .batch f w => f < s.size.frames ∧ (w.cache.load (p.cover (s.batchAt p f))).1 = .error e
  | .frame stop f w => f < stop ∧ (s.render f w.cache).1 = .error e

/-- A run comes to the stage `a`, and loading or rendering raises `e` there. -/
structure Stalls (input : σ) (sink : τ) (e : Fault) (a : Stage σ τ) : Prop where
  extent : (Source.info input).extent = s.source.extent
  reached : ∃ begun, Sink.begin (s.config (Source.info input).rate) sink = (.ok (), begun) ∧
    Relation.ReflTransGen (s.Advances p) (.batch 0 ⟨.start input, begun, #[]⟩) a
  raised : s.Falters p e a

def rest : Stage σ τ → Step (Work σ τ) Unit
  | .batch f w => s.writeFrom p f w
  | .frame stop f w => (s.writeFrames f (stop - f) w).andThen fun w =>
    s.writeFrom p stop (w.evict (p.keep ⟨stop, s.size.frames⟩))

variable {s p} {a b : Stage σ τ} {e : Fault}

lemma write_cache (s : Session) (f : Nat) (w : Work σ τ) :
    (s.write f w).2.cache = (s.render f w.cache).2 := by
  unfold write
  rcases s.render f w.cache with ⟨_ | frame, c⟩
  · rfl
  · simp only
    rcases Sink.push f frame w.sink with ⟨_ | ⟨⟩, sink⟩ <;> rfl

lemma writeBatch_of_load {r : FrameRange} {w : Work σ τ} {c : Cache σ}
    (h : w.cache.load (p.cover r) = (.ok (), c)) :
    s.writeBatch p r w = (s.writeFrames r.start r.size { w with cache := c }).andThen fun w =>
      (.ok (), w.evict (p.keep ⟨r.stop, s.size.frames⟩)) := by
  simp only [writeBatch, h]
  rcases s.writeFrames r.start r.size { w with cache := c } with ⟨_ | ⟨⟩, w⟩ <;> rfl

lemma Advances.rest_eq (h : s.Advances p a b) : s.rest p a = s.rest p b := by
  cases h with
  | load hf hload =>
    rw [rest, s.writeFrom_of_lt hf, writeBatch_of_load hload, Step.andThen_assoc]
    rfl
  | @write stop f w w' hf hwrite =>
    rw [rest, show stop - f = stop - (f + 1) + 1 by omega, writeFrames_succ, hwrite]
    rfl
  | @evict stop f w hf =>
    simp only [rest, show stop - f = 0 by omega]
    rfl

lemma rest_of_load {f : Nat} {w : Work σ τ} {c : Cache σ} (hf : f < s.size.frames)
    (h : w.cache.load (p.cover (s.batchAt p f)) = (.error e, c)) :
    s.rest p (.batch f w) = (.error e, { w with cache := c }) := by
  rw [rest, s.writeFrom_of_lt hf]
  simp only [writeBatch, h]
  rfl

lemma rest_of_write {stop f : Nat} {w w' : Work σ τ} (hf : f < stop) (h : s.write f w = (.error e, w')) :
    s.rest p (.frame stop f w) = (.error e, w') := by
  rw [rest, show stop - f = stop - (f + 1) + 1 by omega, writeFrames_succ, h]
  rfl

lemma rest_of_fails (h : s.Fails p e a) : (s.rest p a).1 = .error e := by
  cases a with
  | batch f w =>
    obtain ⟨hf, hload⟩ := h
    rw [rest_of_load hf (Prod.ext hload rfl)]
  | frame stop f w =>
    obtain ⟨hf, hwrite⟩ := h
    rw [rest_of_write hf (Prod.ext hwrite rfl)]

lemma rest_of_falters (h : s.Falters p e a) : (s.rest p a).1 = .error e ∧ (s.rest p a).2.sink = a.sink := by
  cases a with
  | batch f w =>
    obtain ⟨hf, hload⟩ := h
    rw [rest_of_load hf (Prod.ext hload rfl)]
    exact ⟨rfl, rfl⟩
  | frame stop f w =>
    obtain ⟨hf, hrender⟩ := h
    rcases hc : s.render f w.cache with ⟨outcome, c⟩
    rw [hc] at hrender
    obtain rfl : outcome = .error e := hrender
    have hwrite : s.write f w = (.error e, { w with cache := c }) := by simp only [write, hc]
    rw [rest_of_write hf hwrite]
    exact ⟨rfl, rfl⟩

lemma Fails.cases (h : s.Fails p e a) : s.Falters p e a ∨ Sink.Refuses e (s.rest p a).2.sink := by
  cases a with
  | batch f w => exact Or.inl h
  | frame stop f w =>
    obtain ⟨hf, hwrite⟩ := h
    rw [rest_of_write hf (Prod.ext hwrite rfl)]
    unfold write at hwrite ⊢
    rcases hrender : s.render f w.cache with ⟨e' | frame, c⟩
    · rw [hrender] at hwrite
      obtain rfl : e' = e := Except.error.inj hwrite
      exact Or.inl ⟨hf, congrArg Prod.fst hrender⟩
    · rcases hpush : Sink.push f frame w.sink with ⟨e' | ⟨⟩, sink⟩ <;> simp only [hrender, hpush] at hwrite ⊢
      · obtain rfl := Except.error.inj hwrite
        exact Or.inr (.push hpush)
      · cases hwrite

def stagesLeft (s : Session) : Stage σ τ → Nat
  | .batch f _ => 3 * (s.size.frames - f) + 1
  | .frame stop f _ => 3 * (s.size.frames - stop) + (stop - f) + 2

lemma stage_cases (a : Stage σ τ) : (∃ f w, a = .batch f w ∧ ¬ f < s.size.frames) ∨
    (∃ e, s.Fails p e a) ∨ ∃ b, s.Advances p a b ∧ s.stagesLeft b < s.stagesLeft a := by
  cases a with
  | batch f w =>
    by_cases hf : f < s.size.frames
    · obtain ⟨-, hlt, hle⟩ := s.batchAt_start_add_size hf p
      rcases hc : w.cache.load (p.cover (s.batchAt p f)) with ⟨_ | ⟨⟩, c⟩
      · exact Or.inr (Or.inl ⟨_, hf, by rw [hc]⟩)
      · refine Or.inr (Or.inr ⟨_, .load hf hc, ?_⟩)
        simp only [stagesLeft]
        omega
    · exact Or.inl ⟨f, w, rfl, hf⟩
  | frame stop f w =>
    by_cases hf : f < stop
    · rcases hw : s.write f w with ⟨_ | ⟨⟩, w'⟩
      · exact Or.inr (Or.inl ⟨_, hf, by rw [hw]⟩)
      · refine Or.inr (Or.inr ⟨_, .write hf hw, ?_⟩)
        simp only [stagesLeft]
        omega
    · refine Or.inr (Or.inr ⟨_, .evict hf, ?_⟩)
      simp only [stagesLeft]
      omega

lemma exists_last_stage (a : Stage σ τ) : ∃ b, Relation.ReflTransGen (s.Advances p) a b ∧
    ((∃ f w, b = .batch f w ∧ ¬ f < s.size.frames) ∨ ∃ e, s.Fails p e b) := by
  induction hn : s.stagesLeft a using Nat.strongRecOn generalizing a with
  | ind n ih =>
    subst hn
    rcases s.stage_cases (p := p) a with hend | hfails | ⟨b, hstep, hlt⟩
    · exact ⟨a, .refl, Or.inl hend⟩
    · exact ⟨a, .refl, Or.inr hfails⟩
    · obtain ⟨c, hreach, hlast⟩ := ih _ hlt b rfl
      exact ⟨c, .head hstep hreach, hlast⟩

lemma rest_eq_of_reaches (h : Relation.ReflTransGen (s.Advances p) a b) :
    s.rest p a = s.rest p b := by
  induction h with
  | refl => rfl
  | tail _ hstep ih => exact ih.trans hstep.rest_eq

theorem rest_error_iff : (s.rest p a).1 = .error e ↔
    ∃ b, Relation.ReflTransGen (s.Advances p) a b ∧ s.Fails p e b := by
  constructor
  · intro h
    obtain ⟨b, hreach, hlast⟩ := s.exists_last_stage (p := p) a
    rw [rest_eq_of_reaches hreach] at h
    rcases hlast with ⟨f, w, rfl, hf⟩ | ⟨e', hfails⟩
    · rw [rest, s.writeFrom_of_ge hf] at h
      exact nomatch h
    · obtain rfl : e' = e := Except.error.inj ((rest_of_fails hfails).symm.trans h)
      exact ⟨b, hreach, hfails⟩
  · rintro ⟨b, hreach, hfails⟩
    rw [rest_eq_of_reaches hreach]
    exact rest_of_fails hfails

lemma runWith_error_iff {input : σ} (hextent : (Source.info input).extent = s.source.extent) (sink : τ) :
    (s.runWith p input sink).1 = .error e ↔
      (Sink.begin (s.config (Source.info input).rate) sink).1 = .error e ∨
      ∃ begun, Sink.begin (s.config (Source.info input).rate) sink = (.ok (), begun) ∧
        ((s.rest p (.batch 0 ⟨.start input, begun, #[]⟩)).1 = .error e ∨
        ∃ w, s.rest p (.batch 0 ⟨.start input, begun, #[]⟩) = (.ok (), w) ∧
          (Sink.finish w.sink).1 = .error e) := by
  simp only [runWith, hextent, ne_eq, not_true_eq_false, if_false, rest]
  rcases Sink.begin (s.config (Source.info input).rate) sink with ⟨_ | ⟨⟩, begun⟩
  · simp
  · rcases hw : s.writeFrom p 0 ⟨.start input, begun, #[]⟩ with ⟨_ | ⟨⟩, w⟩
    · simp [hw]
    · rcases hfinish : Sink.finish w.sink with ⟨_ | ⟨⟩, sink⟩ <;> simp [hw, hfinish]

lemma runWith_of_rest {input : σ} (hextent : (Source.info input).extent = s.source.extent) {sink begun : τ}
    (hbegin : Sink.begin (s.config (Source.info input).rate) sink = (.ok (), begun)) {w : Work σ τ}
    (h : s.rest p (.batch 0 ⟨.start input, begun, #[]⟩) = (.error e, w)) :
    s.runWith p input sink = (.error e, w) := by
  rw [rest] at h
  simp only [runWith, hextent, ne_eq, not_true_eq_false, if_false, hbegin, h]

lemma Stalls.runWith {input : σ} {sink : τ} (h : s.Stalls p input sink e a) :
    (s.runWith p input sink).1 = .error e ∧ (s.runWith p input sink).2.sink = a.sink := by
  obtain ⟨begun, hbegin, hreach⟩ := h.reached
  obtain ⟨herror, hsink⟩ := rest_of_falters h.raised
  rw [← rest_eq_of_reaches hreach] at herror hsink
  rw [runWith_of_rest h.extent hbegin (Prod.ext herror rfl)]
  exact ⟨rfl, hsink⟩

lemma stalls_or_refuses {input : σ} (hextent : (Source.info input).extent = s.source.extent) {sink : τ}
    (h : (s.runWith p input sink).1 = .error e) :
    (∃ a, s.Stalls p input sink e a) ∨ Sink.Refuses e (s.runWith p input sink).2.sink := by
  rcases hbegin : Sink.begin (s.config (Source.info input).rate) sink with ⟨e' | ⟨⟩, begun⟩
  · simp only [runWith, hextent, ne_eq, not_true_eq_false, if_false, hbegin] at h ⊢
    obtain rfl := Except.error.inj h
    exact Or.inr (.begin hbegin)
  rcases hrest : s.rest p (.batch 0 ⟨.start input, begun, #[]⟩) with ⟨e' | ⟨⟩, w⟩
  · rw [runWith_of_rest hextent hbegin hrest] at h ⊢
    obtain rfl := Except.error.inj h
    obtain ⟨b, hreach, hfails⟩ := rest_error_iff.mp (congrArg Prod.fst hrest)
    rcases hfails.cases with hfalters | hrefuses
    · exact Or.inl ⟨b, hextent, ⟨begun, hbegin, hreach⟩, hfalters⟩
    · rw [← rest_eq_of_reaches hreach, hrest] at hrefuses
      exact Or.inr hrefuses
  · rw [rest] at hrest
    simp only [runWith, hextent, ne_eq, not_true_eq_false, if_false, hbegin, hrest] at h ⊢
    rcases hfinish : Sink.finish w.sink with ⟨e' | ⟨⟩, sink⟩ <;> simp only [hfinish] at h ⊢
    · obtain rfl := Except.error.inj h
      exact Or.inr (.finish hfinish)
    · cases h

lemma stats_of_runWith {input : σ} {sink : τ} {stats : Stats} (h : (s.runWith p input sink).1 = .ok stats) :
    stats = s.stats (s.runWith p input sink).2.cache.counters := by
  revert h
  simp only [runWith]
  split
  · exact fun h => nomatch h
  rcases Sink.begin (s.config (Source.info input).rate) sink with ⟨_ | ⟨⟩, begun⟩
  · exact fun h => nomatch h
  simp only
  rcases s.writeFrom p 0 ⟨.start input, begun, #[]⟩ with ⟨_ | ⟨⟩, w⟩
  · exact fun h => nomatch h
  simp only
  rcases Sink.finish w.sink with ⟨_ | ⟨⟩, finished⟩
  · exact fun h => nomatch h
  · exact fun h => (Except.ok.inj h).symm

lemma runWith_cache (s : Session) (p : Plan) (input : σ) (sink : τ) :
    (s.runWith p input sink).2.cache = .start input ∨ ∃ begun : τ,
      (s.runWith p input sink).2.cache = (s.rest p (.batch 0 ⟨.start input, begun, #[]⟩)).2.cache := by
  simp only [runWith, rest]
  split
  · exact Or.inl rfl
  rcases Sink.begin (s.config (Source.info input).rate) sink with ⟨_ | ⟨⟩, begun⟩
  · exact Or.inl rfl
  refine Or.inr ⟨begun, ?_⟩
  simp only
  rcases s.writeFrom p 0 ⟨.start input, begun, #[]⟩ with ⟨_ | ⟨⟩, w⟩
  · rfl
  simp only
  rcases Sink.finish w.sink with ⟨_ | ⟨⟩, finished⟩ <;> rfl

end Session

end VideoRemap

import VideoRemap.Proofs.Session.Render

/-!
A run in front of a reel mirrors a delivery that has no cache and no plan: it renders each output
frame directly and pushes it. Both stop at the first frame that cannot be rendered or delivered.
-/

namespace VideoRemap

def Step.andThen {σ : Type} (r : Step σ Unit) (next : σ → Step σ Unit) : Step σ Unit :=
  match r with
  | (.error e, s) => (.error e, s)
  | (.ok (), s) => next s

lemma Step.andThen_assoc {σ : Type} (r : Step σ Unit) (k l : σ → Step σ Unit) :
    (r.andThen k).andThen l = r.andThen fun s => (k s).andThen l := by
  rcases r with ⟨_ | ⟨⟩, s⟩ <;> rfl

structure Delivery (τ : Type) where
  sink : τ
  written : Array Nat

namespace Delivery

variable {τ : Type} [Sink τ]

def put (d : Delivery τ) (sink : τ) : Delivery τ := { d with sink := sink }

def push (f : Nat) (frame : Frame) (d : Delivery τ) : Step (Delivery τ) Unit :=
  ((Sink.push f frame d.sink).within d.put).andThen fun d =>
    (.ok (), { d with written := d.written.push f })

def deliver (shown : Nat → Except Fault Frame) (f : Nat) : Nat → Delivery τ → Step (Delivery τ) Unit
  | 0, d => (.ok (), d)
  | n + 1, d =>
    match shown f with
    | .error e => (.error e, d)
    | .ok frame => (d.push f frame).andThen (deliver shown (f + 1) n)

def complete (config : SinkConfig) (shown : Nat → Except Fault Frame) (n : Nat) (d : Delivery τ) :
    Step (Delivery τ) Unit :=
  ((Sink.begin config d.sink).within d.put).andThen fun d =>
    (deliver shown 0 n d).andThen fun d => (Sink.finish d.sink).within d.put

lemma deliver_succ (shown : Nat → Except Fault Frame) (f n : Nat) (d : Delivery τ) :
    deliver shown f (n + 1) d = (deliver shown f 1 d).andThen (deliver shown (f + 1) n) := by
  simp only [deliver]
  split
  · rfl
  · rcases d.push f _ with ⟨_ | ⟨⟩, d⟩ <;> rfl

lemma deliver_add (shown : Nat → Except Fault Frame) (f m n : Nat) (d : Delivery τ) :
    deliver shown f (m + n) d = (deliver shown f m d).andThen (deliver shown (f + m) n) := by
  induction m generalizing f d with
  | zero =>
    rw [Nat.zero_add]
    rfl
  | succ m ih =>
    rw [Nat.succ_add_eq_add_succ, Nat.add_succ, deliver_succ, deliver_succ shown f m]
    rcases deliver shown f 1 d with ⟨_ | ⟨⟩, d⟩
    · rfl
    · change deliver shown (f + 1) (m + n) d = _
      rw [ih, Nat.add_right_comm, Nat.add_assoc]
      rfl

end Delivery

variable {σ τ : Type} {info : SourceInfo} {frames : List Frame} {position : Nat → σ → Prop} {n : Nat}

def Work.delivery (w : Work σ τ) : Delivery τ := ⟨w.sink, w.written⟩

structure Work.Counts (info : SourceInfo) (frames : List Frame) (position : Nat → σ → Prop) (n : Nat)
    (w : Work σ τ) : Prop where
  faithful : w.cache.Faithful info frames position
  count : w.cache.frameCount = n

structure Mirrors (info : SourceInfo) (frames : List Frame) (position : Nat → σ → Prop) (n : Nat)
    (r : Step (Work σ τ) Unit) (d : Step (Delivery τ) Unit) : Prop where
  outcome : r.1 = d.1
  delivery : r.2.delivery = d.2
  counts : r.2.Counts info frames position n

lemma Mirrors.deliver_eq {r : Step (Work σ τ) Unit} {d : Step (Delivery τ) Unit}
    (h : Mirrors info frames position n r d) : d = (r.1, r.2.delivery) :=
  Prod.ext h.outcome.symm h.delivery.symm

lemma Mirrors.andThen {r : Step (Work σ τ) Unit} {d : Step (Delivery τ) Unit}
    {k : Work σ τ → Step (Work σ τ) Unit} {k' : Delivery τ → Step (Delivery τ) Unit}
    (h : Mirrors info frames position n r d)
    (hk : ∀ w : Work σ τ, w.Counts info frames position n →
      Mirrors info frames position n (k w) (k' w.delivery)) :
    Mirrors info frames position n (r.andThen k) (d.andThen k') := by
  obtain ⟨outcome, w⟩ := r
  obtain ⟨outcome', d⟩ := d
  obtain ⟨houtcome, hdelivery, hcounts⟩ := h
  simp only at houtcome hdelivery hcounts
  subst houtcome hdelivery
  cases outcome with
  | error e => exact ⟨rfl, rfl, hcounts⟩
  | ok _ => exact hk w hcounts

namespace Session

variable [Source σ] [Sink τ] (s : Session) {w : Work σ τ}

lemma writeFrames_succ (f m : Nat) (w : Work σ τ) :
    s.writeFrames f (m + 1) w = (s.write f w).andThen (s.writeFrames (f + 1) m) := by
  rw [writeFrames]
  rcases s.write f w with ⟨_ | ⟨⟩, w⟩ <;> rfl

lemma writeFrom_of_lt {f : Nat} (h : f < s.size.frames) (p : Plan) (w : Work σ τ) :
    s.writeFrom p f w =
      (s.writeBatch p (s.batchAt p f) w).andThen (s.writeFrom p (s.batchAt p f).stop) := by
  rw [writeFrom, dif_pos h]
  rcases s.writeBatch p (s.batchAt p f) w with ⟨_ | ⟨⟩, w⟩ <;> rfl

lemma writeFrom_of_ge {f : Nat} (h : ¬ f < s.size.frames) (p : Plan) (w : Work σ τ) :
    s.writeFrom p f w = (.ok (), w) := by
  rw [writeFrom, dif_neg h]

lemma batchAt_start_add_size {f : Nat} (h : f < s.size.frames) (p : Plan) :
    f + (s.batchAt p f).size = (s.batchAt p f).stop ∧ f < (s.batchAt p f).stop ∧
      (s.batchAt p f).stop ≤ s.size.frames := by
  have := p.batch_pos
  simp only [batchAt, FrameRange.size]
  omega

section

variable (reel : IsReel info frames position) (even : ∀ f ∈ frames, f.extent = info.extent)
  (hn : n ≤ frames.length)

include reel even hn

lemma write_mirrors (hw : w.Counts info frames position n) (f : Nat) :
    Mirrors info frames position n (s.write f w)
      (Delivery.deliver (s.direct · frames n) f 1 w.delivery) := by
  obtain ⟨c, hrun, hc, hcount⟩ := s.render_direct f reel even hw.faithful (hw.count ▸ hn)
  rw [hw.count] at hrun hcount
  simp only [write, hrun, Delivery.deliver, Delivery.push]
  cases s.direct f frames n with
  | error e => exact ⟨rfl, rfl, hc, hcount⟩
  | ok frame =>
    simp only [Work.delivery]
    rcases Sink.push f frame w.sink with ⟨_ | ⟨⟩, sink⟩ <;> exact ⟨rfl, rfl, hc, hcount⟩

lemma writeFrames_mirrors (hw : w.Counts info frames position n) (f m : Nat) :
    Mirrors info frames position n (s.writeFrames f m w)
      (Delivery.deliver (s.direct · frames n) f m w.delivery) := by
  induction m generalizing f w with
  | zero => exact ⟨rfl, rfl, hw⟩
  | succ m ih =>
    rw [Delivery.deliver_succ, writeFrames_succ]
    exact (s.write_mirrors reel even hn hw f).andThen fun w hw => ih hw (f + 1)

lemma writeBatch_mirrors (hw : w.Counts info frames position n) (p : Plan) (r : FrameRange) :
    Mirrors info frames position n (s.writeBatch p r w)
      (Delivery.deliver (s.direct · frames n) r.start r.size w.delivery) := by
  obtain ⟨c, hrun, hc⟩ := Cache.load_fetched reel even hw.faithful (p.cover r)
  have hcount : c.frameCount = n := by
    rw [hc.count_eq fun i _ hlt => by have := hw.count; omega, hw.count]
  have hwrite := s.writeFrames_mirrors reel even hn (w := { w with cache := c })
    ⟨hc.faithful, hcount⟩ r.start r.size
  simp only [writeBatch, hrun]
  rcases hr : s.writeFrames r.start r.size { w with cache := c } with ⟨_ | ⟨⟩, w'⟩
  all_goals rw [hr] at hwrite
  · exact hwrite
  · exact ⟨hwrite.outcome, hwrite.delivery, hwrite.counts.faithful.evictOutside _,
      hwrite.counts.count⟩

lemma writeFrom_mirrors (hw : w.Counts info frames position n) (p : Plan) (f : Nat) :
    Mirrors info frames position n (s.writeFrom p f w)
      (Delivery.deliver (s.direct · frames n) f (s.size.frames - f) w.delivery) := by
  induction hm : s.size.frames - f using Nat.strongRecOn generalizing f w with
  | ind m ih =>
    subst hm
    by_cases hlt : f < s.size.frames
    · obtain ⟨hstop, hpos, hle⟩ := s.batchAt_start_add_size hlt p
      have hsize : s.size.frames - f =
          (s.batchAt p f).size + (s.size.frames - (s.batchAt p f).stop) := by omega
      rw [hsize, Delivery.deliver_add, hstop, s.writeFrom_of_lt hlt]
      refine (s.writeBatch_mirrors reel even hn hw p (s.batchAt p f)).andThen fun w hw => ?_
      exact ih _ (by omega) hw _ rfl
    · rw [s.writeFrom_of_ge hlt, show s.size.frames - f = 0 by omega]
      exact ⟨rfl, rfl, hw⟩

lemma runWith_complete {source : σ} (hsource : position 0 source) (hcount : info.frameCount = n)
    (hextent : info.extent = s.source.extent) (p : Plan) (sink : τ) :
    let r := s.runWith p source sink
    let d := Delivery.complete (s.config info.rate) (s.direct · frames n) s.size.frames ⟨sink, #[]⟩
    r.1.map Stats.framesOut = d.1.map (fun _ => s.size.frames) ∧ r.2.delivery = d.2 := by
  simp only [runWith, reel.info_eq hsource, hextent, not_true_eq_false, ne_eq, if_false,
    Delivery.complete]
  rcases Sink.begin (s.config info.rate) sink with ⟨_ | ⟨⟩, sink⟩
  · exact ⟨rfl, rfl⟩
  · -- The promised count holds throughout, so that the plan leaves no trace.
    have hw : Work.Counts info frames position n ⟨.start source, sink, #[]⟩ :=
      ⟨Cache.start_faithful reel hsource, by simp only [Cache.start, reel.info_eq hsource, hcount]⟩
    have hwrite := (s.writeFrom_mirrors reel even hn hw p 0).deliver_eq
    simp only [Nat.sub_zero, Work.delivery] at hwrite
    simp only [Step.andThen, Step.within, Delivery.put, hwrite]
    rcases s.writeFrom p 0 ⟨.start source, sink, #[]⟩ with ⟨_ | ⟨⟩, w⟩
    · exact ⟨rfl, rfl⟩
    · simp only
      rcases Sink.finish w.sink with ⟨_ | ⟨⟩, sink⟩ <;> exact ⟨rfl, rfl⟩

end

end Session

end VideoRemap

import VideoRemap.Proofs.Cache.Moments
import VideoRemap.Proofs.Session.Planned
import VideoRemap.Sink.Memory

/-!
What the statistics of a run say of each other and of the cache at every moment of the run. The moments
of a run are those of its steps: a batch is loaded, or the frames that the plan missed are.
-/

namespace VideoRemap

section

variable {σ : Type} [Source σ]

namespace Cache

inductive PassesMissing : Cache σ → List Nat → Cache σ → Prop
  | before {c is} : PassesMissing c is c
  | held {c i is d} : c.holds i → PassesMissing c is d → PassesMissing c (i :: is) d
  | loading {c i is d} : c.holds i = false → c.Passes ⟨i, i + 1⟩ d → PassesMissing c (i :: is) d
  | loaded {c i is c' d} : c.holds i = false → c.loadFrame i = (.ok (), c') → PassesMissing c' is d →
      PassesMissing c (i :: is) d

variable {info : SourceInfo} {frames : List Frame} {position : Nat → σ → Prop} {c : Cache σ}

lemma Accounted.loadMissing (reel : IsReel info frames position) (even : ∀ f ∈ frames, f.extent = info.extent)
    (h : Accounted info frames position c) (is : List Nat) : ∃ c', c.loadMissing is = (.ok (), c') ∧
      Accounted info frames position c' ∧ Peaks (c.PassesMissing is) c c' := by
  induction is generalizing c with
  | nil =>
    refine ⟨c, rfl, h, Nat.le_refl _, fun d hd => ?_, .inl rfl⟩
    cases hd
    exact h.resident
  | cons i is ih =>
    simp only [Cache.loadMissing]
    by_cases hi : c.holds i
    · obtain ⟨c', hrun, hc', hpeaks⟩ := ih h
      refine ⟨c', by rw [if_pos hi, hrun], hc', hpeaks.mono, fun d hd => ?_, ?_⟩
      · cases hd with
        | before => exact hpeaks.resident_le c .before
        | held _ hd => exact hpeaks.resident_le d hd
        | loading hnot _ => exact Bool.noConfusion (hnot.symm.trans hi)
        | loaded hnot _ _ => exact Bool.noConfusion (hnot.symm.trans hi)
      · rcases hpeaks.attained with hsame | ⟨d, hd, hlen⟩
        · exact .inl hsame
        · exact .inr ⟨d, .held hi hd, hlen⟩
    · have hnot : c.holds i = false := Bool.eq_false_iff.mpr hi
      obtain ⟨c₁, hload, hc₁⟩ := loadFrame_fetched reel even h.faithful i
      obtain ⟨h₁, hpeaks₁⟩ := h.load hload hc₁.faithful
      obtain ⟨c', hrun, hc', hpeaks⟩ := ih h₁
      refine ⟨c', by rw [if_neg hi, hload]; exact hrun, hc', Nat.le_trans hpeaks₁.mono hpeaks.mono,
        fun d hd => ?_, ?_⟩
      · cases hd with
        | before => exact Nat.le_trans (hpeaks₁.resident_le c .before) hpeaks.mono
        | held hheld _ => exact absurd hheld hi
        | loading _ hd => exact Nat.le_trans (hpeaks₁.resident_le d hd) hpeaks.mono
        | loaded _ hload' hd =>
          obtain rfl := (Prod.mk.inj (hload.symm.trans hload')).2
          exact hpeaks.resident_le d hd
      · rcases hpeaks.attained with hsame | ⟨d, hd, hlen⟩
        · rcases hpeaks₁.attained with hsame₁ | ⟨d, hd, hlen⟩
          · exact .inl (hsame.trans hsame₁)
          · exact .inr ⟨d, .loading hnot hd, hlen.trans hsame.symm⟩
        · exact .inr ⟨d, .loaded hnot hload hd, hlen⟩

end Cache

end

namespace Session

variable {σ τ : Type} [Source σ]

section

variable [Sink τ] (s : Session) (p : Plan)

inductive PassesAt : Stage σ τ → Cache σ → Prop
  | stage {a} : PassesAt a a.cache
  | load {f w c} : f < s.size.frames → w.cache.Passes (p.cover (s.batchAt p f)) c → PassesAt (.batch f w) c
  | fetch {stop f w is c} : f < stop → s.needed f w.cache.frameCount = .ok is →
      w.cache.PassesMissing is c → PassesAt (.frame stop f w) c

/-- At some moment of the run from stage `a` on the cache is like `c`. -/
def Passes (a : Stage σ τ) (c : Cache σ) : Prop :=
  ∃ b, Relation.ReflTransGen (s.Advances p) a b ∧ s.PassesAt p b c

inductive Numbered : Stage σ τ → Prop
  | batch {f w} : f ≤ s.size.frames → w.written = Array.range f →
      f < s.size.frames ∨ w.cache.frames = [] → Numbered (.batch f w)
  | frame {stop f w} : f ≤ stop → stop ≤ s.size.frames → w.written = Array.range f →
      Numbered (.frame stop f w)

end

section

variable {s : Session} {f : Nat} {c : Cache σ}

lemma renderIn_cases (α β : Type) [Scalar α] [Scalar β] (s : Session) (f : Nat) (c : Cache σ) :
    ((∃ e, s.neededIn α β f c.frameCount = .error e) ∧ (s.renderIn α β f c).2 = c) ∨
    ∃ is, s.neededIn α β f c.frameCount = .ok is ∧ (s.renderIn α β f c).2 = (c.loadMissing is).2 := by
  simp only [neededIn]
  cases hcoords : s.coordsIn α β f with
  | error e => exact .inl ⟨⟨e, rfl⟩, by rw [renderIn_of_error hcoords]⟩
  | ok spans =>
    obtain ⟨xs, ys, ts⟩ := spans
    refine .inr ⟨_, rfl, ?_⟩
    simp only [coordsIn] at hcoords
    simp only [renderIn, hcoords]
    rcases c.loadMissing (referencedFrames ts c.frameCount) with ⟨_ | ⟨⟩, c'⟩ <;> rfl

lemma render_cases (s : Session) (f : Nat) (c : Cache σ) :
    ((∃ e, s.needed f c.frameCount = .error e) ∧ (s.render f c).2 = c) ∨
    ∃ is, s.needed f c.frameCount = .ok is ∧ (s.render f c).2 = (c.loadMissing is).2 := by
  cases hxy : s.xy <;> cases ht : s.t <;> simp only [render, needed, hxy, ht] <;>
    exact renderIn_cases _ _ s f c

omit [Source σ] in
lemma frames_ne_nil_of_sampleFrame {α β : Type} [Scalar α] [Scalar β] {xs ys : Span α} {ts : Span β}
    {width height : Nat} (hpos : 0 < width * height) {frame : Frame}
    (h : c.sampleFrame xs ys ts width height = .ok frame) : c.frames ≠ [] := by
  intro hnil
  rw [Cache.sampleFrame] at h
  split at h
  · cases h
  split at h
  · cases h
  case isFalse.isFalse hlengths _ =>
    obtain ⟨pixels, hpixels, -⟩ := Traversal.map_eq_ok_iff.mp h
    rcases hlist : xs.toList.zip (ys.toList.zip ts.toList) with _ | ⟨⟨x, y, t⟩, rest⟩
    · have hzero := congrArg List.length hlist
      rw [List.length_zip, List.length_zip, Span.length_toList, Span.length_toList, Span.length_toList,
        List.length_nil] at hzero
      omega
    · have hmissing : c.frame? (Tap.of c.frameCount t).near = none := by rw [Cache.frame?, hnil]; rfl
      rw [hlist, List.mapM_cons] at hpixels
      obtain ⟨pixel, hpixel, -⟩ := Traversal.bind_eq_ok_iff.mp hpixels
      cases (Cache.sample_of_missing hmissing x y).symm.trans hpixel

lemma frames_ne_nil_of_renderIn {α β : Type} [Scalar α] [Scalar β]
    (hpos : 0 < s.size.width * s.size.height) {frame : Frame}
    (h : (s.renderIn α β f c).1 = .ok frame) : (s.renderIn α β f c).2.frames ≠ [] := by
  cases hcoords : s.coordsIn α β f with
  | error e =>
    rw [renderIn_of_error hcoords] at h
    cases h
  | ok spans =>
    obtain ⟨xs, ys, ts⟩ := spans
    simp only [coordsIn] at hcoords
    simp only [renderIn, hcoords] at h ⊢
    rcases hload : c.loadMissing (referencedFrames ts c.frameCount) with ⟨_ | ⟨⟩, c'⟩ <;> rw [hload] at h
    · cases h
    · exact frames_ne_nil_of_sampleFrame hpos h

lemma frames_ne_nil_of_render (hpos : 0 < s.size.width * s.size.height) {frame : Frame}
    (h : (s.render f c).1 = .ok frame) : (s.render f c).2.frames ≠ [] := by
  cases hxy : s.xy <;> cases ht : s.t <;> simp only [render, hxy, ht] at h ⊢ <;>
    exact frames_ne_nil_of_renderIn hpos h

end

variable [Sink τ] {s : Session} {p : Plan} {a b : Stage σ τ}

lemma write_eq_ok {f : Nat} {w w' : Work σ τ} (h : s.write f w = (.ok (), w')) :
    ∃ frame c sink, s.render f w.cache = (.ok frame, c) ∧ w' = ⟨c, sink, w.written.push f⟩ := by
  simp only [write] at h
  rcases hrender : s.render f w.cache with ⟨_ | frame, c⟩ <;> rw [hrender] at h
  · cases h
  simp only at h
  rcases hpush : Sink.push f frame w.sink with ⟨_ | ⟨⟩, sink⟩ <;> rw [hpush] at h
  · cases h
  · exact ⟨frame, c, sink, rfl, (Prod.mk.inj h).2.symm⟩

lemma Numbered.advance (h : s.Numbered a) (hstep : s.Advances p a b) : s.Numbered b := by
  cases hstep with
  | @load f w c hf hload =>
    cases h with
    | batch _ hwritten _ =>
      obtain ⟨-, hlt, hle⟩ := s.batchAt_start_add_size hf p
      exact .frame (Nat.le_of_lt hlt) hle hwritten
  | @write stop f w w' hf hwrite =>
    cases h with
    | frame _ hstop hwritten =>
      obtain ⟨frame, c, sink, -, rfl⟩ := write_eq_ok hwrite
      refine .frame hf hstop ?_
      simp only [hwritten, Array.range_succ, Array.push_eq_append]
  | @evict stop f w hf =>
    cases h with
    | frame hle hstop hwritten =>
      obtain rfl : f = stop := Nat.le_antisymm hle (Nat.le_of_not_lt hf)
      refine .batch hstop hwritten ?_
      rcases Nat.lt_or_ge f s.size.frames with hlt | hge
      · exact .inl hlt
      · refine .inr ?_
        have hkeep : p.keep ⟨f, s.size.frames⟩ = ⟨0, 0⟩ := if_pos hge
        simp only [Work.evict, Cache.evictOutside, hkeep]
        exact List.filter_eq_nil_iff.mpr fun q _ hq => Nat.not_lt_zero _ (of_decide_eq_true hq).2

lemma Numbered.reaches (h : s.Numbered a) (hreach : Relation.ReflTransGen (s.Advances p) a b) :
    s.Numbered b := by
  induction hreach with
  | refl => exact h
  | tail _ hstep ih => exact ih.advance hstep

lemma exists_end_of_rest {w : Work σ τ} (h : s.rest p a = (.ok (), w)) : ∃ f, ¬ f < s.size.frames ∧
    Relation.ReflTransGen (s.Advances p) a (.batch f w) := by
  obtain ⟨b, hreach, ⟨f, w', rfl, hf⟩ | ⟨e, hfails⟩⟩ := s.exists_last_stage (p := p) a
  · rw [rest_eq_of_reaches hreach, rest, s.writeFrom_of_ge hf] at h
    obtain rfl := (Prod.mk.inj h).2
    exact ⟨f, hf, hreach⟩
  · have hrest := rest_of_fails hfails
    rw [← rest_eq_of_reaches hreach, h] at hrest
    cases hrest

lemma exists_rest_of_runWith {input : σ} {sink : τ} {stats : Stats}
    (h : (s.runWith p input sink).1 = .ok stats) :
    ∃ begun w, Sink.begin (s.config (Source.info input).rate) sink = (.ok (), begun) ∧
      s.rest p (.batch 0 ⟨.start input, begun, #[]⟩) = (.ok (), w) ∧ stats = s.stats w.cache.counters ∧
      (s.runWith p input sink).2.written = w.written := by
  revert h
  simp only [runWith, rest]
  split
  · rintro ⟨⟩
  rcases Sink.begin (s.config (Source.info input).rate) sink with ⟨_ | ⟨⟩, begun⟩
  · rintro ⟨⟩
  simp only
  rcases hrest : s.writeFrom p 0 ⟨.start input, begun, #[]⟩ with ⟨_ | ⟨⟩, w⟩
  · rintro ⟨⟩
  simp only
  rcases Sink.finish w.sink with ⟨_ | ⟨⟩, finished⟩
  · rintro ⟨⟩
  · exact fun h => ⟨begun, w, rfl, hrest, (Except.ok.inj h).symm, rfl⟩

section

variable {info : SourceInfo} {frames : List Frame} {position : Nat → σ → Prop}
  (reel : IsReel info frames position) (even : ∀ f ∈ frames, f.extent = info.extent)

include reel even

lemma accounted_advance (h : a.cache.Accounted info frames position) (hstep : s.Advances p a b) :
    b.cache.Accounted info frames position ∧ Cache.Peaks (s.PassesAt p a) a.cache b.cache := by
  cases hstep with
  | @load f w c hf hload =>
    obtain ⟨c', hload', hc'⟩ := Cache.load_fetched reel even h.faithful (p.cover (s.batchAt p f))
    obtain rfl := (Prod.mk.inj (hload.symm.trans hload')).2
    obtain ⟨hc, hpeaks⟩ := h.load hload hc'.faithful
    refine ⟨hc, hpeaks.mono, fun d hd => ?_, hpeaks.attained.imp_right fun ⟨d, hd, hlen⟩ =>
      ⟨d, .load hf hd, hlen⟩⟩
    cases hd with
    | stage => exact hpeaks.resident_le _ .before
    | load _ hd => exact hpeaks.resident_le d hd
  | @write stop f w w' hf hwrite =>
    have h : w.cache.Accounted info frames position := h
    have hcache : w'.cache = (s.render f w.cache).2 := by rw [← write_cache, hwrite]
    change w'.cache.Accounted info frames position ∧ Cache.Peaks _ w.cache w'.cache
    rcases s.render_cases f w.cache with ⟨⟨e, herror⟩, hsame⟩ | ⟨is, hneeded, hfetched⟩
    · rw [hcache, hsame]
      refine ⟨h, Nat.le_refl _, fun d hd => ?_, .inl rfl⟩
      cases hd with
      | stage => exact h.resident
      | fetch _ hneeded _ => exact nomatch herror.symm.trans hneeded
    · obtain ⟨c', hrun, hc', hpeaks⟩ := h.loadMissing reel even is
      rw [hcache, hfetched, hrun]
      refine ⟨hc', hpeaks.mono, fun d hd => ?_, hpeaks.attained.imp_right fun ⟨d, hd, hlen⟩ =>
        ⟨d, .fetch hf hneeded hd, hlen⟩⟩
      cases hd with
      | stage => exact hpeaks.resident_le _ .before
      | fetch _ hneeded' hd =>
        obtain rfl := Except.ok.inj (hneeded.symm.trans hneeded')
        exact hpeaks.resident_le d hd
  | @evict stop f w hf =>
    refine ⟨h.evictOutside _, Nat.le_refl _, fun d hd => ?_, .inl rfl⟩
    cases hd with
    | stage => exact h.resident
    | fetch hlt _ _ => exact absurd hlt hf

lemma accounted_reaches (h : a.cache.Accounted info frames position)
    (hreach : Relation.ReflTransGen (s.Advances p) a b) :
    b.cache.Accounted info frames position ∧ a.cache.counters.peak ≤ b.cache.counters.peak ∧
      (b.cache.counters.peak = a.cache.counters.peak ∨
        ∃ c, s.Passes p a c ∧ c.frames.length = b.cache.counters.peak) := by
  induction hreach with
  | refl => exact ⟨h, Nat.le_refl _, .inl rfl⟩
  | tail hreach hstep ih =>
    obtain ⟨hb, hmono, hattained⟩ := ih
    obtain ⟨hc, hpeaks⟩ := accounted_advance reel even hb hstep
    refine ⟨hc, Nat.le_trans hmono hpeaks.mono, ?_⟩
    rcases hpeaks.attained with hsame | ⟨d, hd, hlen⟩
    · rwa [hsame]
    · exact .inr ⟨d, ⟨_, hreach, hd⟩, hlen⟩

lemma length_le_peak (h : a.cache.Accounted info frames position) {f : Nat} {w : Work σ τ}
    (hf : ¬ f < s.size.frames) (hreach : Relation.ReflTransGen (s.Advances p) a (.batch f w)) {c : Cache σ}
    (hc : s.PassesAt p a c) : c.frames.length ≤ w.cache.counters.peak := by
  rcases hreach.cases_head with rfl | ⟨b, hstep, hrest⟩
  · cases hc with
    | stage => exact h.resident
    | load hlt _ => exact absurd hlt hf
  · obtain ⟨hb, hpeaks⟩ := accounted_advance reel even h hstep
    exact Nat.le_trans (hpeaks.resident_le c hc) (accounted_reaches reel even hb hrest).2.1

lemma isGreatest_peak (h : a.cache.Accounted info frames position) (hpeak : a.cache.counters.peak = 0)
    {w : Work σ τ} (hrest : s.rest p a = (.ok (), w)) :
    IsGreatest {n | ∃ c, s.Passes p a c ∧ c.frames.length = n} w.cache.counters.peak := by
  obtain ⟨f, hf, hend⟩ := exists_end_of_rest hrest
  constructor
  · rcases (accounted_reaches reel even h hend).2.2 with hsame | hattained
    · have hsame : w.cache.counters.peak = 0 := hsame.trans hpeak
      have hnone := h.resident
      exact ⟨a.cache, ⟨a, .refl, .stage⟩, by omega⟩
    · exact hattained
  · rintro n ⟨c, ⟨b, hreach, hc⟩, rfl⟩
    obtain ⟨g, hg, hend'⟩ := exists_end_of_rest ((rest_eq_of_reaches hreach).symm.trans hrest)
    exact length_le_peak reel even (accounted_reaches reel even h hreach).1 hg hend' hc

end

lemma exists_passes_ne_nil {w w' : Work σ τ} (hframes : 0 < s.size.frames)
    (hpos : 0 < s.size.width * s.size.height) (hrest : s.rest p (.batch 0 w) = (.ok (), w')) :
    ∃ c, s.Passes p (.batch 0 w) c ∧ 0 < c.frames.length := by
  obtain ⟨f, hf, hend⟩ := exists_end_of_rest hrest
  rcases hend.cases_head with heq | ⟨b, hload, hreach⟩
  · obtain ⟨rfl, -⟩ := Stage.batch.inj heq
    exact absurd hframes hf
  cases hload with
  | @load _ _ c hlt hc =>
    obtain ⟨-, hstop, -⟩ := s.batchAt_start_add_size hlt p
    rcases hreach.cases_head with heq | ⟨b, hwrite, -⟩
    · cases heq
    cases hwrite with
    | write hlt' hwrite =>
      obtain ⟨frame, c', sink, hrender, rfl⟩ := write_eq_ok hwrite
      have hne := frames_ne_nil_of_render hpos (congrArg Prod.fst hrender)
      rw [hrender] at hne
      exact ⟨c', ⟨_, .tail (.single (.load hlt hc)) (.write hlt' hwrite), .stage⟩,
        List.length_pos_iff.mpr hne⟩
    | evict hge => exact absurd hstop hge

theorem statistics_of_run {info : SourceInfo} {frames : List Frame} {position : Nat → σ → Prop}
    (reel : IsReel info frames position) (even : ∀ f ∈ frames, f.extent = info.extent) {input : σ}
    (hinput : position 0 input) {source : SourceInfo} {coords : Triplet} {size : OutputSize} {o : Options}
    (hs : ofCoords source coords size o = .ok s) (p : Plan) (sink : τ) {stats : Stats}
    (hstats : (s.runWith p input sink).1 = .ok stats) :
    (stats.framesOut = size.frames ∧ (s.runWith p input sink).2.written = Array.range size.frames) ∧
    stats.evicted = stats.framesDecoded ∧
    (∃ begun, Sink.begin (s.config info.rate) sink = (.ok (), begun) ∧
      IsGreatest {n | ∃ c, s.Passes p (.batch 0 ⟨.start input, begun, #[]⟩) c ∧ c.frames.length = n}
        stats.peakResident) ∧
    (1 ≤ stats.peakResident ∧ stats.peakResident ≤ info.frameCount ∧
      stats.peakResident ≤ frames.length ∧ stats.peakResident ≤ stats.framesDecoded) ∧
    stats.framesDecoded + stats.framesSkipped ≤ (stats.rewinds + 1) * frames.length := by
  obtain ⟨constants, hadmits⟩ := admits_of_ofCoords hs
  have hsize : s.size = size := by rw [hadmits.eq]
  obtain ⟨hwidth, hheight, hframes⟩ := hadmits.output
  obtain ⟨begun, w, hbegin, hrest, rfl, hwritten⟩ := exists_rest_of_runWith hstats
  obtain ⟨f, hf, hend⟩ := exists_end_of_rest hrest
  have hstart := Cache.start_accounted reel hinput
  obtain ⟨(hw : w.cache.Accounted info frames position), -⟩ :=
    accounted_reaches (a := .batch 0 ⟨.start input, begun, #[]⟩) reel even hstart hend
  have hgreatest := isGreatest_peak (a := .batch 0 ⟨.start input, begun, #[]⟩) reel even hstart rfl hrest
  have hnumbered : s.Numbered (.batch 0 ⟨.start input, begun, #[]⟩) :=
    .batch (Nat.zero_le _) rfl (.inl (hsize ▸ Nat.pos_of_ne_zero hframes))
  have hempty : w.cache.counters.decoded = w.cache.counters.evicted ∧ w.written = Array.range size.frames := by
    cases hnumbered.reaches hend with
    | batch hle hrange hnone =>
      have hdecoded := hw.faithful.decoded
      rw [hnone.resolve_left hf, List.length_nil, Nat.zero_add] at hdecoded
      obtain rfl : f = s.size.frames := by omega
      exact ⟨hdecoded, hsize ▸ hrange⟩
  refine ⟨⟨congrArg OutputSize.frames hsize, hwritten.trans hempty.2⟩, hempty.1.symm,
    ⟨begun, reel.info_eq hinput ▸ hbegin, hgreatest⟩, ⟨?_, hw.peak_le_count, hw.peak_le_length,
      hw.peak_le_decoded⟩, ?_⟩
  · have hpos : 0 < s.size.width * s.size.height := by
      rw [hsize]
      exact Nat.mul_pos (Nat.pos_of_ne_zero hwidth) (Nat.pos_of_ne_zero hheight)
    obtain ⟨c, hc, hlen⟩ := exists_passes_ne_nil (hsize ▸ Nat.pos_of_ne_zero hframes) hpos hrest
    exact Nat.le_trans hlen (hgreatest.2 ⟨c, hc, rfl⟩)
  · have hread := hw.read
    have hle := hw.faithful.position_le
    simp only [stats, Nat.add_mul, Nat.one_mul]
    omega

theorem statistics_of_firstOfFour :
    let coords : Triplet := ⟨.var .x, .var .y, .quotient .align (.var .t) (.literal (.int 4))⟩
    let input := MemorySource.shades 8 8
    ∃ s, ofCoords input.info coords ⟨1, 1, 8⟩ ⟨5, none⟩ = .ok s ∧
      (s.run input MemorySink.empty).1 = .ok ⟨8, 9, 4, 1, 9, 5⟩ ∧
      IsGreatest {n | ∃ c, s.Passes s.plan (.batch 0 ⟨.start input,
        (Sink.begin (s.config input.info.rate) MemorySink.empty).2, #[]⟩) c ∧ c.frames.length = n} 5 ∧
      9 + 4 ≤ (1 + 1) * input.frames.length := by
  intro coords input
  obtain ⟨s, hs, hrun⟩ : ∃ s, ofCoords input.info coords ⟨1, 1, 8⟩ ⟨5, none⟩ = .ok s ∧
      (s.run input MemorySink.empty).1 = .ok ⟨8, 9, 4, 1, 9, 5⟩ :=
    ⟨_, rfl, toOption_eq_some.mp (by decide +kernel)⟩
  obtain ⟨-, -, ⟨begun, hbegin, hgreatest⟩, -, hreads⟩ := statistics_of_run
    (MemorySource.isReel input.info input.frames) (fun f hf => (MemorySource.shades_even hf).1)
    (show _ ∧ _ ∧ input.position = 0 from ⟨rfl, rfl, rfl⟩) hs s.plan MemorySink.empty hrun
  refine ⟨s, hs, hrun, ?_, hreads⟩
  rw [hbegin]
  exact hgreatest

end Session

end VideoRemap

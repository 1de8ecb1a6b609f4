import VideoRemap.Proofs.Session.Basic
import VideoRemap.Proofs.Session.Missing
import VideoRemap.Proofs.Session.Stage
import VideoRemap.Proofs.Source.Reel
import VideoRemap.Sink.Memory

namespace VideoRemap

/-- A sink that does not itself say that a source frame is missing. -/
structure Sink.NeverMisses (τ : Type) [Sink τ] : Prop where
  begin (i : Nat) (c : SinkConfig) (t : τ) : (Sink.begin c t).1 ≠ .error (.notResident i)
  push (i j : Nat) (f : Frame) (t : τ) : (Sink.push j f t).1 ≠ .error (.notResident i)
  finish (i : Nat) (t : τ) : (Sink.finish t).1 ≠ .error (.notResident i)

lemma MemorySink.neverMisses : Sink.NeverMisses MemorySink := ⟨nofun, nofun, nofun⟩

variable {σ τ : Type} {info : SourceInfo} {frames : List Frame} {position : Nat → σ → Prop}

namespace Session

variable [Source σ] [Sink τ] {s : Session} {p : Plan} {a b : Stage σ τ}

lemma write_missing_iff (hsink : Sink.NeverMisses τ) {f i : Nat} {w : Work σ τ} :
    (s.write f w).1 = .error (.notResident i) ↔ (s.render f w.cache).1 = .error (.notResident i) := by
  unfold write
  rcases s.render f w.cache with ⟨_ | frame, c⟩
  · simp
  · have hpush := hsink.push i f frame w.sink
    simp only
    generalize Sink.push f frame w.sink = pushed at hpush ⊢
    rcases pushed with ⟨_ | ⟨⟩, sink⟩
    · simpa using hpush
    · simp

section

variable (reel : IsReel info frames position)
  (good : ∀ f ∈ frames, f.extent = info.extent ∧ f.WellFormed)

include reel good

lemma Advances.faithful (h : s.Advances p a b) (ha : a.cache.Faithful info frames position) :
    b.cache.Faithful info frames position := by
  have even : ∀ f ∈ frames, f.extent = info.extent := fun f hf => (good f hf).1
  cases h with
  | @load f w c hf hload =>
    obtain ⟨c', hrun, hc'⟩ := Cache.load_fetched reel even ha (p.cover (s.batchAt p f))
    obtain rfl : c' = c := congrArg Prod.snd (hrun.symm.trans hload)
    exact hc'.faithful
  | @write stop f w w' hf hwrite =>
    have hcache : w'.cache = (s.render f w.cache).2 := by rw [← s.write_cache, hwrite]
    change w'.cache.Faithful info frames position
    rw [hcache]
    exact render_faithful reel even ha
  | evict hf => exact ha.evictOutside _

lemma reaches_faithful (h : Relation.ReflTransGen (s.Advances p) a b)
    (ha : a.cache.Faithful info frames position) : b.cache.Faithful info frames position := by
  induction h with
  | refl => exact ha
  | tail _ hstep ih => exact hstep.faithful reel good ih

variable (hsize : 0 < info.extent.width ∧ 0 < info.extent.height) (hframes : 0 < frames.length)
  (hsink : Sink.NeverMisses τ)

include hsize hframes hsink

lemma fails_missing_iff (h : a.cache.Faithful info frames position) :
    (∃ i, s.Fails p (.notResident i) a) ↔
      ∃ stop f w, a = .frame stop f w ∧ f < stop ∧ s.Overruns frames.length f w.cache := by
  cases a with
  | batch f w =>
    obtain ⟨c, hrun, -⟩ := Cache.load_fetched reel (fun f hf => (good f hf).1) h (p.cover (s.batchAt p f))
    constructor
    · rintro ⟨i, -, hi⟩
      exact nomatch hi.symm.trans (congrArg Prod.fst hrun)
    · rintro ⟨stop, f', w', heq, -⟩
      exact nomatch heq
  | frame stop f w =>
    have hrender := render_missing_iff (s := s) (f := f) reel good hsize hframes h
    constructor
    · rintro ⟨i, hf, hi⟩
      exact ⟨stop, f, w, rfl, hf, hrender.mp ⟨i, (write_missing_iff hsink).mp hi⟩⟩
    · rintro ⟨stop', f', w', heq, hf, hover⟩
      cases heq
      obtain ⟨i, hi⟩ := hrender.mpr hover
      exact ⟨i, hf, (write_missing_iff hsink).mpr hi⟩

lemma rest_missing_iff (h : a.cache.Faithful info frames position) :
    (∃ i, (s.rest p a).1 = .error (.notResident i)) ↔ ∃ stop f w,
      Relation.ReflTransGen (s.Advances p) a (.frame stop f w) ∧ f < stop ∧
      s.Overruns frames.length f w.cache := by
  simp only [rest_error_iff]
  constructor
  · rintro ⟨i, b, hreach, hfails⟩
    have hb := reaches_faithful reel good hreach h
    obtain ⟨stop, f, w, rfl, hover⟩ :=
      (fails_missing_iff reel good hsize hframes hsink hb).mp ⟨i, hfails⟩
    exact ⟨stop, f, w, hreach, hover⟩
  · rintro ⟨stop, f, w, hreach, hover⟩
    have hb := reaches_faithful reel good hreach h
    obtain ⟨i, hfails⟩ :=
      (fails_missing_iff reel good hsize hframes hsink hb).mpr ⟨stop, f, w, rfl, hover⟩
    exact ⟨i, _, hreach, hfails⟩

lemma runWith_missing_iff {input : σ} (hinput : position 0 input)
    (hextent : info.extent = s.source.extent) (sink : τ) :
    (∃ i, (s.runWith p input sink).1 = .error (.notResident i)) ↔
      ∃ begun, Sink.begin (s.config info.rate) sink = (.ok (), begun) ∧ ∃ stop f w,
        Relation.ReflTransGen (s.Advances p) (.batch 0 ⟨.start input, begun, #[]⟩)
          (.frame stop f w) ∧ f < stop ∧ s.Overruns frames.length f w.cache := by
  have hinfo := reel.info_eq hinput
  have hrest (begun : τ) := rest_missing_iff (a := .batch 0 ⟨.start input, begun, #[]⟩) (s := s) (p := p)
    reel good hsize hframes hsink (Cache.start_faithful reel hinput)
  simp only [runWith_error_iff (hinfo ▸ hextent), hinfo, ← hrest]
  constructor
  · rintro ⟨i, hi | ⟨begun, hbegun, hi | ⟨w, -, hi⟩⟩⟩
    · exact (hsink.begin _ _ _ hi).elim
    · exact ⟨begun, hbegun, i, hi⟩
    · exact (hsink.finish _ _ hi).elim
  · rintro ⟨begun, hbegun, i, hi⟩
    exact ⟨i, Or.inr ⟨begun, hbegun, Or.inl hi⟩⟩

omit hsize in
theorem missing_frame_iff {planned : SourceInfo} {coords : Triplet} {size : OutputSize} {o : Options}
    (hs : ofCoords planned coords size o = .ok s) {input : σ} (hinput : position 0 input) (sink : τ) :
    (∃ i, (s.run input sink).1 = .error (.notResident i)) ↔
      info.extent = planned.extent ∧
      ∃ begun, Sink.begin (s.config info.rate) sink = (.ok (), begun) ∧ ∃ stop f w,
        Relation.ReflTransGen (s.Advances s.plan) (.batch 0 ⟨.start input, begun, #[]⟩)
          (.frame stop f w) ∧ f < stop ∧ s.Overruns frames.length f w.cache := by
  obtain ⟨c, hadmits⟩ := admits_of_ofCoords hs
  obtain rfl : s.source = planned := by rw [hadmits.eq]
  by_cases hextent : info.extent = s.source.extent
  · obtain ⟨⟨hwidth, -⟩, ⟨hheight, -⟩, -⟩ := hadmits.bounds
    have hsize : 0 < info.extent.width ∧ 0 < info.extent.height := by
      rw [hextent]
      exact ⟨hwidth, hheight⟩
    rw [run, runWith_missing_iff reel good hsize hframes hsink hinput hextent, and_iff_right hextent]
  · simp [run, runWith, reel.info_eq hinput, hextent]

end

def missing? {α : Type} : Except Fault α → Option Nat
  | .error (.notResident i) => some i
  | _ => none

lemma missing?_eq_some {α : Type} {r : Except Fault α} {i : Nat} :
    missing? r = some i ↔ r = .error (.notResident i) := by
  unfold missing?
  split <;> simp_all

def alignedAway : Triplet :=
  ⟨.var .x, .var .y, .sum [.literal (.int 5),
    .negate (.quotient .align (.literal (.int 5)) (.literal (.int 3)))]⟩

theorem overrun_of_alignedAway :
    let input := MemorySource.shades 2 3
    ∃ s, ofCoords input.info alignedAway ⟨1, 1, 1⟩ .standard = .ok s ∧
      (s.run input MemorySink.empty).1 = .error (.notResident 1) := by
  intro input
  exact ⟨_, rfl, missing?_eq_some.mp (by decide +kernel)⟩

theorem missing_frame_of_alignedAway :
    let input := MemorySource.shades 2 3
    ∃ s, ofCoords input.info alignedAway ⟨1, 1, 1⟩ .standard = .ok s ∧
      ∃ begun, Sink.begin (s.config input.info.rate) MemorySink.empty = (.ok (), begun) ∧
        ∃ stop f w, Relation.ReflTransGen (s.Advances s.plan) (.batch 0 ⟨.start input, begun, #[]⟩)
          (.frame stop f w) ∧ f < stop ∧ s.Overruns 2 f w.cache := by
  intro input
  have hs : ofCoords input.info alignedAway ⟨1, 1, 1⟩ .standard = .ok _ := rfl
  have hiff := missing_frame_iff (MemorySource.isReel input.info input.frames)
    (fun f hf => MemorySource.shades_even hf) (by decide) MemorySink.neverMisses hs
    (show _ ∧ _ ∧ input.position = 0 from ⟨rfl, rfl, rfl⟩) MemorySink.empty
  exact ⟨_, hs, (hiff.mp ⟨1, missing?_eq_some.mp (by decide +kernel)⟩).2⟩

end Session

end VideoRemap

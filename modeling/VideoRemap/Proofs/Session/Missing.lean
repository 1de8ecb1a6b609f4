import VideoRemap.Proofs.Expr.Evaluate
import VideoRemap.Proofs.Number.Index
import VideoRemap.Proofs.Sample.Resident
import VideoRemap.Proofs.Session.Render

/-!
When rendering comes upon a frame that is not at hand. The referenced frames are worked out for the
promised count; when the end of the reel comes to light while they are loaded, coordinates behind
the end read the last frame instead, which nobody may have asked for.
-/

namespace VideoRemap

variable {σ : Type} {info : SourceInfo} {frames : List Frame} {position : Nat → σ → Prop}
  {c : Cache σ}

lemma Cache.Faithful.holdsGood (h : c.Faithful info frames position)
    (good : ∀ f ∈ frames, f.extent = info.extent ∧ f.WellFormed) {i : Nat} (hi : c.holds i) :
    c.HoldsGood info.extent i := by
  obtain ⟨f, hf⟩ := holds_iff.mp hi
  obtain ⟨hextent, hformed⟩ := good f (List.mem_of_getElem? (h.frame hf))
  exact ⟨f, hf, hextent, hformed⟩

namespace Session

section

variable (α β : Type) [Scalar α] [Scalar β] (s : Session) (f n : Nat)

def neededIn : Except Fault (List Nat) := do
  let (_, _, ts) ← s.coordsIn α β f
  return referencedFrames ts n

def needed : Except Fault (List Nat) :=
  match s.xy, s.t with
  | .int, .int => s.neededIn Int32 Int32 f n
  | .int, .float => s.neededIn Int32 Float32 f n
  | .float, .int => s.neededIn Float32 Int32 f n
  | .float, .float => s.neededIn Float32 Float32 f n

end

/-- Out of these frames, some lie behind the end of a reel of `k` frames, and the last frame of the
reel is neither among them nor at hand. -/
def Misses (k : Nat) (c : Cache σ) (is : List Nat) : Prop :=
  (∃ i ∈ is, k ≤ i) ∧ k - 1 ∉ is ∧ c.holds (k - 1) = false

/-- Rendering output frame `f` misses the last frame of a reel of `k` frames. -/
def Overruns (s : Session) (k f : Nat) (c : Cache σ) : Prop :=
  ∃ is, s.needed f c.frameCount = .ok is ∧ Misses k c is

section

variable {α β : Type} [Scalar α] [Scalar β] {s : Session} {f : Nat}

lemma coordsIn_cases : (∃ e, s.coordsIn α β f = .error e ∧ e.OfValue) ∨
    ∃ xs ys ts, s.coordsIn α β f = .ok (xs, ys, ts) ∧ xs.length = s.size.width * s.size.height ∧
      ys.length = s.size.width * s.size.height ∧ ts.length = s.size.width * s.size.height := by
  have hx := s.coords.x.evaluate_ofSize_length (α := α) s.size.width s.size.height f
  have hy := s.coords.y.evaluate_ofSize_length (α := α) s.size.width s.size.height f
  have ht := s.coords.t.evaluate_ofSize_length (α := β) s.size.width s.size.height f
  simp only [coordsIn]
  generalize s.coords.x.evaluate (Grid.ofSize s.size.width s.size.height f : Grid α) = xs at hx ⊢
  generalize s.coords.y.evaluate (Grid.ofSize s.size.width s.size.height f : Grid α) = ys at hy ⊢
  generalize s.coords.t.evaluate (Grid.ofSize s.size.width s.size.height f : Grid β) = ts at ht ⊢
  cases xs with
  | error e => exact Or.inl ⟨e, rfl, hx⟩
  | ok xs =>
    cases ys with
    | error e => exact Or.inl ⟨e, rfl, hy⟩
    | ok ys =>
      cases ts with
      | error e => exact Or.inl ⟨e, rfl, ht⟩
      | ok ts => exact Or.inr ⟨xs, ys, ts, rfl, hx, hy, ht⟩

variable [LawfulScalar α] [LawfulScalar β] (good : ∀ f ∈ frames, f.extent = info.extent ∧ f.WellFormed)
  (hsize : 0 < info.extent.width ∧ 0 < info.extent.height) (hframes : 0 < frames.length)

include good hsize hframes

lemma sampleFrame_shrunk_iff {c' : Cache σ} {xs ys : Span α} {ts : Span β}
    (hxs : xs.length = s.size.width * s.size.height) (hys : ys.length = s.size.width * s.size.height)
    (hts : ts.length = s.size.width * s.size.height)
    (hc' : Cache.Fetched info frames position (· ∈ referencedFrames ts c.frameCount) c c')
    (hover : ∃ i ∈ referencedFrames ts c.frameCount, frames.length ≤ i) :
    (∃ i, c'.sampleFrame xs ys ts s.size.width s.size.height = .error (.notResident i)) ↔
      Misses frames.length c (referencedFrames ts c.frameCount) := by
  have hgood {i : Nat} (hi : c'.holds i) : c'.HoldsGood info.extent i :=
    hc'.faithful.holdsGood good hi
  obtain ⟨i, hi, hle⟩ := hover
  obtain ⟨hlt, v, hv, htouch⟩ := mem_referencedFrames.mp hi
  have hcount : c'.frameCount = frames.length := hc'.count_shrunk hi hlt hle
  have hlast : frames.length ≤ (c.frameCount - 1) % UInt32.size :=
    Nat.le_trans hle (Tap.le_last_of_touches htouch)
  have hholds : c'.holds (frames.length - 1) ↔ c.holds (frames.length - 1) ∨
      frames.length - 1 ∈ referencedFrames ts c.frameCount := by
    rw [hc'.holds_iff, hcount, and_iff_left (Nat.sub_lt hframes Nat.one_pos)]
  -- In front of the end nothing changes; behind it, the last frame is read.
  have hread (v : β) (hv : v ∈ ts.toList) : (frames.length ≤ (Tap.of c.frameCount v).near ∧
      ∀ i, (Tap.of c'.frameCount v).Touches i → i = frames.length - 1) ∨
      ∀ i, (Tap.of c'.frameCount v).Touches i → c'.HoldsGood info.extent i := by
    rw [hcount]
    by_cases hnear : frames.length ≤ (Tap.of c.frameCount v).near
    · exact Or.inl ⟨hnear, fun i => Tap.touches_of_ge hframes hlast hnear⟩
    · refine Or.inr fun i hi => hgood (hc'.holds_iff.mpr (Or.inr ⟨?_, ?_⟩))
      · refine mem_referencedFrames.mpr ⟨?_, v, hv, ?_⟩
        · have := Tap.lt_of_touches hframes hi
          omega
        · exact Tap.touches_of_lt hframes hlast (by omega) hi
      · exact hcount ▸ Tap.lt_of_touches hframes hi
  by_cases hheld : c'.holds (frames.length - 1)
  · obtain ⟨frame, hframe⟩ := Cache.exists_sampleFrame hsize.1 hsize.2 hxs hys hts (hcount ▸ hframes)
      fun v hv i hi => (hread v hv).elim (fun h => h.2 i hi ▸ hgood hheld) fun h => h i hi
    constructor
    · rintro ⟨i, hi⟩
      exact nomatch hi.symm.trans hframe
    · rintro ⟨-, hmiss, hnot⟩
      rcases hholds.mp hheld with hold | hnew
      · exact nomatch hnot.symm.trans hold
      · exact absurd hnew hmiss
  · have hmiss : Misses frames.length c (referencedFrames ts c.frameCount) :=
      ⟨⟨i, hi, hle⟩, fun h => hheld (hholds.mpr (Or.inr h)),
        Bool.eq_false_iff.mpr fun h => hheld (hholds.mpr (Or.inl h))⟩
    have hnear : frames.length ≤ (Tap.of c.frameCount v).near :=
      Tap.le_near_of_touches hframes htouch hle fun h =>
        hmiss.2.1 (mem_referencedFrames.mpr ⟨by omega, v, hv, h⟩)
    have hv' : (Tap.of c'.frameCount v).near = frames.length - 1 :=
      Tap.touches_of_ge hframes hlast hnear (hcount ▸ Or.inl rfl)
    refine ⟨fun _ => hmiss, fun _ => ⟨_, Cache.sampleFrame_of_missing hsize.1 hsize.2 hxs hys hts
      (hcount ▸ hframes) (Cache.frame?_eq_none.mpr (Bool.eq_false_iff.mpr hheld)) ?_ ⟨v, hv, hv'⟩⟩⟩
    exact fun v hv => (hread v hv).imp (fun h => h.2 _ (Or.inl rfl)) id

lemma sampleFrame_missing_iff {c' : Cache σ} {xs ys : Span α} {ts : Span β}
    (hxs : xs.length = s.size.width * s.size.height) (hys : ys.length = s.size.width * s.size.height)
    (hts : ts.length = s.size.width * s.size.height)
    (hc' : Cache.Fetched info frames position (· ∈ referencedFrames ts c.frameCount) c c') :
    (∃ i, c'.sampleFrame xs ys ts s.size.width s.size.height = .error (.notResident i)) ↔
      Misses frames.length c (referencedFrames ts c.frameCount) := by
  have hgood {i : Nat} (hi : c'.holds i) : c'.HoldsGood info.extent i :=
    hc'.faithful.holdsGood good hi
  have hneeded {v : β} (hv : v ∈ ts.toList) {i : Nat} (hi : i < c.frameCount)
      (htouch : (Tap.of c.frameCount v).Touches i) : i ∈ referencedFrames ts c.frameCount :=
    mem_referencedFrames.mpr ⟨hi, v, hv, htouch⟩
  by_cases hover : ∃ i ∈ referencedFrames ts c.frameCount, frames.length ≤ i
  · exact sampleFrame_shrunk_iff good hsize hframes hxs hys hts hc' hover
  · have hcount : c'.frameCount = c.frameCount :=
      hc'.count_eq fun i hi _ => Nat.lt_of_not_le fun hle => hover ⟨i, hi, hle⟩
    refine ⟨?_, fun h => absurd h.1 hover⟩
    rintro ⟨i, hi⟩
    by_cases hpos : 0 < c'.frameCount
    · obtain ⟨frame, hframe⟩ := Cache.exists_sampleFrame hsize.1 hsize.2 hxs hys hts hpos
        fun v hv i hi => hgood (hc'.holds_iff.mpr (Or.inr
          ⟨hneeded hv (hcount ▸ Tap.lt_of_touches hpos hi) (hcount ▸ hi), Tap.lt_of_touches hpos hi⟩))
      cases hi.symm.trans hframe
    · simp only [Cache.sampleFrame, hxs, hys, hts, ne_eq, not_true_eq_false, or_self, if_false,
        Nat.eq_zero_of_not_pos hpos, if_true] at hi
      cases hi

lemma renderIn_missing_iff [Source σ] (reel : IsReel info frames position)
    (h : c.Faithful info frames position) :
    (∃ i, (s.renderIn α β f c).1 = .error (.notResident i)) ↔
      ∃ is, s.neededIn α β f c.frameCount = .ok is ∧ Misses frames.length c is := by
  rcases coordsIn_cases (s := s) (f := f) (α := α) (β := β) with
    ⟨e, hcoords, he⟩ | ⟨xs, ys, ts, hcoords, hxs, hys, hts⟩
  · rw [renderIn_of_error hcoords]
    simp only [neededIn, hcoords]
    constructor
    · rintro ⟨i, hi⟩
      cases hi
      exact he.elim
    · rintro ⟨is, his, -⟩
      exact nomatch his
  · obtain ⟨c', hrun, hc'⟩ := renderIn_of_ok reel (fun f hf => (good f hf).1) h hcoords
    rw [hrun, sampleFrame_missing_iff good hsize hframes hxs hys hts hc']
    simp only [neededIn, hcoords]
    constructor
    · exact fun hmiss => ⟨_, rfl, hmiss⟩
    · rintro ⟨is, his, hmiss⟩
      cases his
      exact hmiss

end

section

variable [Source σ] {s : Session} {f : Nat} (reel : IsReel info frames position)

include reel

lemma render_missing_iff (good : ∀ f ∈ frames, f.extent = info.extent ∧ f.WellFormed)
    (hsize : 0 < info.extent.width ∧ 0 < info.extent.height) (hframes : 0 < frames.length)
    (h : c.Faithful info frames position) :
    (∃ i, (s.render f c).1 = .error (.notResident i)) ↔ s.Overruns frames.length f c := by
  cases hxy : s.xy <;> cases ht : s.t <;> simp only [render, Overruns, needed, hxy, ht] <;>
    exact renderIn_missing_iff good hsize hframes reel h

lemma renderIn_faithful (α β : Type) [Scalar α] [Scalar β]
    (even : ∀ f ∈ frames, f.extent = info.extent) (h : c.Faithful info frames position) :
    (s.renderIn α β f c).2.Faithful info frames position := by
  cases hcoords : s.coordsIn α β f with
  | error e => rwa [renderIn_of_error hcoords]
  | ok spans =>
    obtain ⟨c', hrun, hc'⟩ := renderIn_of_ok reel even h hcoords
    rw [hrun]
    exact hc'.faithful

lemma render_faithful (even : ∀ f ∈ frames, f.extent = info.extent)
    (h : c.Faithful info frames position) : (s.render f c).2.Faithful info frames position := by
  cases hxy : s.xy <;> cases ht : s.t <;> simp only [render, hxy, ht] <;>
    exact renderIn_faithful reel _ _ even h

end

end Session

end VideoRemap

import VideoRemap.Proofs.Expr.Pointwise
import VideoRemap.Proofs.Sample.Resident
import VideoRemap.Proofs.Sample.Whole
import VideoRemap.Proofs.Session.Basic
import VideoRemap.Proofs.Session.Render
import VideoRemap.Session.Pointwise

namespace VideoRemap

def clampIndex (n : Nat) (v : Int32) : Nat := (max 0 (min v.toInt (n - 1))).toNat

lemma clampIndex_lt {n : Nat} (hn : 0 < n) (v : Int32) : clampIndex n v < n := by
  unfold clampIndex
  omega

lemma toNat_ofNat {k : Nat} (h : k < 0x80000000) : (Int32.ofNat k).toInt.toNat = k := by
  rw [Int32.toInt_ofNat_of_lt h, Int.toNat_natCast]

namespace Session

lemma value?_clampTo {n : Nat} (hn : 0 < n) (hlt : n < 0x80000000) (p : Point) (e : Expr) :
    (clampTo (Int32.ofNat n) e).value? p = (e.value? p).map fun v => Int32.ofNat (clampIndex n v) := by
  have hlast : (Int32.ofNat n - 1).toInt = n - 1 := by
    rw [Int32.toInt_sub, Int32.toInt_ofNat_of_lt hlt, show (1 : Int32).toInt = 1 by rfl]
    exact Int.bmod_eq_of_le (by omega) (by omega)
  have hbounds : ¬ Int32.ofNat n - 1 < 0 := by
    rw [Int32.lt_iff_toInt_lt, hlast, show (0 : Int32).toInt = 0 by rfl]
    omega
  have hvalue (v : Int32) : max 0 (min v (Int32.ofNat n - 1)) = Int32.ofNat (clampIndex n v) := by
    have hindex := clampIndex_lt hn v
    rw [← Int32.toInt_inj, toInt_max, toInt_min, hlast, Int32.toInt_ofNat_of_lt (by omega),
      show (0 : Int32).toInt = 0 by rfl, clampIndex]
    omega
  simp only [clampTo, Expr.value?, if_neg hbounds, hvalue]

end Session

/-- Pixel `i` of output frame `f`: the pixel of the source at the values that the coordinates have
there, each kept on its axis. -/
def Triplet.read? (coords : Triplet) (info : SourceInfo) (frames : List Frame) (width f i : Nat) :
    Option Rgb := do
  let p := Point.ofPixel width f i
  let x ← coords.x.value? p
  let y ← coords.y.value? p
  let t ← coords.t.value? p
  (← frames[clampIndex info.frameCount t]?).pixel? (clampIndex info.width x) (clampIndex info.height y)

structure Triplet.Shows (coords : Triplet) (info : SourceInfo) (frames : List Frame) (size : OutputSize)
    (f : Nat) (shown : Frame) : Prop where
  extent : shown.extent = size.extent
  wellFormed : shown.WellFormed
  pixel : ∀ i < size.pixelCount, ∃ p, coords.read? info frames size.width f i = some p ∧
    shown.pixel? (i % size.width) (i / size.width) = some p

def Triplet.Lacks (coords : Triplet) (width f i : Nat) : Prop :=
  ∃ e ∈ [coords.x, coords.y, coords.t], e.value? (.ofPixel width f i) = none

namespace Session

variable {info : SourceInfo} {frames : List Frame} {coords : Triplet} {size : OutputSize}
  {o : Options} {c : Constants} {s : Session}

lemma Admits.value?_coords (h : Admits info coords size o c s) (p : Point) :
    s.coords.x.value? p = (coords.x.value? p).map (fun v => Int32.ofNat (clampIndex info.width v)) ∧
    s.coords.y.value? p = (coords.y.value? p).map (fun v => Int32.ofNat (clampIndex info.height v)) ∧
    s.coords.t.value? p =
      (coords.t.value? p).map (fun v => Int32.ofNat (clampIndex info.frameCount v)) := by
  obtain ⟨⟨hw, hw'⟩, ⟨hh, hh'⟩, hf, hf'⟩ := h.bounds
  obtain ⟨rfl, -⟩ := Constants.ofInfo_eq h.constants
  rw [h.eq]
  exact ⟨value?_clampTo hw hw' p _, value?_clampTo hh hh' p _, value?_clampTo hf hf' p _⟩

lemma pixel?_ofPixel (s : Session) (frames : List Frame) (f i : Nat) : s.pixel? frames f i = (do
    let x ← s.coords.x.value? (.ofPixel s.size.width f i)
    let y ← s.coords.y.value? (.ofPixel s.size.width f i)
    let t ← s.coords.t.value? (.ofPixel s.size.width f i)
    (← frames[t.toInt.toNat]?).pixel? x.toInt.toNat y.toInt.toNat) := rfl

lemma Admits.pixel?_eq_read? (h : Admits info coords size o c s) (f i : Nat) :
    s.pixel? frames f i = coords.read? info frames size.width f i := by
  obtain ⟨⟨hw, hw'⟩, ⟨hh, hh'⟩, hf, hf'⟩ := h.bounds
  have hsize : s.size = size := by rw [h.eq]
  obtain ⟨hx, hy, ht⟩ := h.value?_coords (.ofPixel size.width f i)
  have hsmall {n : Nat} (hn : 0 < n) (hlt : n < 0x80000000) (v : Int32) :
      (Int32.ofNat (clampIndex n v)).toInt.toNat = clampIndex n v :=
    toNat_ofNat (Nat.lt_trans (clampIndex_lt hn v) hlt)
  rw [pixel?_ofPixel, hsize, hx, hy, ht]
  simp only [Triplet.read?]
  cases coords.x.value? (.ofPixel size.width f i) with
  | none => rfl
  | some x =>
    cases coords.y.value? (.ofPixel size.width f i) with
    | none => rfl
    | some y =>
      cases coords.t.value? (.ofPixel size.width f i) with
      | none => rfl
      | some t => simp only [Option.map_some, Option.bind_eq_bind, Option.bind_some, hsmall hw hw',
          hsmall hh hh', hsmall hf hf']

lemma Admits.lacks_iff (h : Admits info coords size o c s) (f i : Nat) :
    s.coords.Lacks size.width f i ↔ coords.Lacks size.width f i := by
  obtain ⟨hx, hy, ht⟩ := h.value?_coords (.ofPixel size.width f i)
  simp only [Triplet.Lacks, List.mem_cons, List.not_mem_nil, or_false, exists_eq_or_imp,
    exists_eq_left, hx, hy, ht, Option.map_eq_none_iff]

lemma coordsIn_pixels (s : Session) (hwidth : 0 < s.size.width) (hheight : 0 < s.size.height)
    (f : Nat) :
    (∃ e, s.coordsIn Int32 Int32 f = .error e ∧ e.OfValue ∧
      ∃ i < s.size.pixelCount, s.coords.Lacks s.size.width f i) ∨
    ∃ xs ys ts, s.coordsIn Int32 Int32 f = .ok (xs, ys, ts) ∧
      xs.toList.map some = (List.range s.size.pixelCount).map
        (fun i => s.coords.x.value? (.ofPixel s.size.width f i)) ∧
      ys.toList.map some = (List.range s.size.pixelCount).map
        (fun i => s.coords.y.value? (.ofPixel s.size.width f i)) ∧
      ts.toList.map some = (List.range s.size.pixelCount).map
        (fun i => s.coords.t.value? (.ofPixel s.size.width f i)) := by
  simp only [coordsIn]
  rcases s.coords.x.evaluate_cases hwidth hheight f with
    ⟨e, hx, he, i, hi, hnone⟩ | ⟨xs, hx, hxs⟩
  · rw [hx]
    exact Or.inl ⟨e, rfl, he, i, hi, _, by simp, hnone⟩
  rcases s.coords.y.evaluate_cases hwidth hheight f with
    ⟨e, hy, he, i, hi, hnone⟩ | ⟨ys, hy, hys⟩
  · rw [hx, hy]
    exact Or.inl ⟨e, rfl, he, i, hi, _, by simp, hnone⟩
  rcases s.coords.t.evaluate_cases hwidth hheight f with
    ⟨e, ht, he, i, hi, hnone⟩ | ⟨ts, ht, hts⟩
  · rw [hx, hy, ht]
    exact Or.inl ⟨e, rfl, he, i, hi, _, by simp, hnone⟩
  · rw [hx, hy, ht]
    exact Or.inr ⟨xs, ys, ts, rfl, hxs, hys, hts⟩

section

variable (h : Admits info coords size o c s)
  (good : ∀ f ∈ frames, f.extent = info.extent ∧ f.WellFormed) (hcount : info.frameCount ≤ frames.length)

include h good hcount

lemma Admits.sample_pixel {x y t : Int32} {f i : Nat}
    (hx : s.coords.x.value? (.ofPixel size.width f i) = some x)
    (hy : s.coords.y.value? (.ofPixel size.width f i) = some y)
    (ht : s.coords.t.value? (.ofPixel size.width f i) = some t) :
    ∃ p, (Cache.stocked frames info.frameCount).sample x y t = .ok p ∧
      s.pixel? frames f i = some p := by
  obtain ⟨⟨hw, hw'⟩, ⟨hh, hh'⟩, hf, hf'⟩ := h.bounds
  have hsize : s.size = size := by rw [h.eq]
  obtain ⟨hvx, hvy, hvt⟩ := h.value?_coords (.ofPixel size.width f i)
  have hlt {n : Nat} (hn : 0 < n) (hn' : n < 0x80000000) {v : Int32} {v? : Option Int32}
      (hv : v?.map (fun v => Int32.ofNat (clampIndex n v)) = some v) : v.toInt.toNat < n := by
    obtain ⟨u, -, rfl⟩ := Option.map_eq_some_iff.mp hv
    have hindex := clampIndex_lt hn u
    rwa [toNat_ofNat (Nat.lt_trans hindex hn')]
  have hxlt := hlt hw hw' (hvx.symm.trans hx)
  have hylt := hlt hh hh' (hvy.symm.trans hy)
  have htlt := hlt hf hf' (hvt.symm.trans ht)
  have hsource : frames[t.toInt.toNat]? = some frames[t.toInt.toNat] :=
    List.getElem?_eq_getElem (by omega)
  generalize frames[t.toInt.toNat] = source at hsource
  obtain ⟨hextent, hformed⟩ := good source (List.mem_of_getElem? hsource)
  obtain ⟨hwidth, hheight⟩ := Extent.mk.inj hextent
  obtain ⟨p, hp⟩ := Frame.exists_pixel? hformed (hwidth ▸ hxlt) (hheight ▸ hylt)
  refine ⟨p, ?_, ?_⟩
  · have hsmall {n : Nat} (hn : n < 0x80000000) : n ≤ UInt32.size := by
      simp only [UInt32.size]
      omega
    refine Cache.sample_inside htlt (hsmall hf') ?_ (hwidth ▸ hxlt) (hwidth ▸ hsmall hw')
      (hheight ▸ hylt) (hheight ▸ hsmall hh') hp
    rw [Cache.frame?_stocked, if_pos htlt, hsource]
  · rw [pixel?_ofPixel, hsize, hx, hy, ht]
    simp only [Option.bind_eq_bind, Option.bind_some, hsource, hp]

lemma Admits.direct_pixels (hxy : s.xy = .int) (ht : s.t = .int) (f : Nat) :
    (∃ e, s.direct f frames info.frameCount = .error e ∧ e.OfValue ∧
      ∃ i < size.pixelCount, coords.Lacks size.width f i) ∨
    ∃ frame, s.direct f frames info.frameCount = .ok frame ∧ s.frame? frames f = some frame := by
  have hsize : s.size = size := by rw [h.eq]
  have hwidth := Nat.pos_of_ne_zero h.output.1
  have hheight := Nat.pos_of_ne_zero h.output.2.1
  simp only [direct, hxy, ht, directIn]
  rcases s.coordsIn_pixels (hsize ▸ hwidth) (hsize ▸ hheight) f with
    ⟨e, hcoords, he, i, hi, hlacks⟩ | ⟨xs, ys, ts, hcoords, hxs, hys, hts⟩
  · rw [hsize] at hi hlacks
    exact Or.inl ⟨e, by rw [hcoords]; rfl, he, i, hi, (h.lacks_iff f i).mp hlacks⟩
  · have hlength {vs : Span Int32} {g : Nat → Option Int32}
        (hvs : vs.toList.map some = (List.range s.size.pixelCount).map g) :
        vs.length = s.size.width * s.size.height := by
      have hlengths := congrArg List.length hvs
      rwa [List.length_map, List.length_map, List.length_range, Span.length_toList] at hlengths
    obtain ⟨pixels, hsampled, hpixels⟩ := Traversal.exists_mapM_of_values
      (f := fun p : Int32 × Int32 × Int32 =>
        (Cache.stocked frames info.frameCount).sample p.1 p.2.1 p.2.2)
      (v := s.pixel? frames f) (Traversal.map_some_zip hxs (Traversal.map_some_zip hys hts)) <| by
        rintro i - ⟨x, y, t⟩ hvalues
        rw [hsize] at hvalues
        obtain ⟨hx, hy, ht⟩ : s.coords.x.value? (.ofPixel size.width f i) = some x ∧
            s.coords.y.value? (.ofPixel size.width f i) = some y ∧
            s.coords.t.value? (.ofPixel size.width f i) = some t := by
          simpa [Option.bind_eq_some_iff] using hvalues
        exact h.sample_pixel good hcount hx hy ht
    refine Or.inr ⟨.ofPixels s.size.width s.size.height pixels, ?_, ?_⟩
    · rw [hcoords]
      change (Cache.stocked frames info.frameCount).sampleFrame xs ys ts _ _ = _
      rw [Cache.sampleFrame_of_lengths (hlength hxs) (hlength hys) (hlength hts) h.bounds.2.2.1]
      exact congrArg (Frame.ofPixels s.size.width s.size.height <$> ·) hsampled
    · rw [frame?, hpixels]
      rfl

end

lemma Admits.shows_of_frame? (h : Admits info coords size o c s) {f : Nat} {shown : Frame}
    (hshown : s.frame? frames f = some shown) : coords.Shows info frames size f shown := by
  have hsize : s.size = size := by rw [h.eq]
  obtain ⟨pixels, hpixels, rfl⟩ := Option.map_eq_some_iff.mp hshown
  have hmap := Traversal.mapM_eq_some_iff.mp hpixels
  have hlength := congrArg List.length hmap
  rw [List.length_map, List.length_map, List.length_range, hsize] at hlength
  rw [hsize] at hmap ⊢
  refine ⟨rfl, Frame.wellFormed_ofPixels hlength.symm, fun i hi => ?_⟩
  have hget : pixels[i]? = some pixels[i] := List.getElem?_eq_getElem (hlength ▸ hi)
  have hread : s.pixel? frames f i = some pixels[i] := by
    have hentry := congrArg (·[i]?) hmap
    simpa [hi, hget] using hentry
  exact ⟨pixels[i], (h.pixel?_eq_read? f i).symm.trans hread,
    (Frame.pixel?_ofPixels _ _ pixels i).trans hget⟩

end Session

end VideoRemap

import VideoRemap.Proofs.Cache.Lookup
import VideoRemap.Proofs.Frame
import VideoRemap.Proofs.Sample.Tap
import VideoRemap.Proofs.Scalar
import VideoRemap.Proofs.Span.Length
import VideoRemap.Proofs.Traversal
import VideoRemap.Sample.Frame

namespace VideoRemap

namespace Tap

lemma exists_blend {tap : Tap} {read : Nat → Except Fault Texel}
    (h : ∀ i, tap.Touches i → ∃ c, read i = .ok c) : ∃ c, tap.blend read = .ok c := by
  obtain ⟨near, hnear⟩ := h tap.near (Or.inl rfl)
  obtain ⟨far, hfar⟩ := h tap.far (Or.inr rfl)
  unfold blend
  rw [hnear, hfar]
  by_cases hweight : 0 < tap.weight
  · exact ⟨_, by simp only [hweight, if_true]; rfl⟩
  · exact ⟨near, by simp only [hweight, if_false]; rfl⟩

variable {α : Type} [Scalar α]

lemma of_near (n : Nat) (v : α) : (of n v).near = Scalar.index ((n - 1) % UInt32.size) v := by
  simp only [of]
  split <;> rfl

lemma of_far (n : Nat) (v : α) : (of n v).far =
    if 0 < Scalar.fraction v ∧ (of n v).near < (n - 1) % UInt32.size then (of n v).near + 1
    else (of n v).near := by
  rw [of_near]
  simp only [of]
  split <;> rfl

lemma of_near_le [LawfulScalar α] (n : Nat) (v : α) : (of n v).near ≤ (n - 1) % UInt32.size := by
  rw [of_near]
  exact Scalar.index_le v (Nat.mod_lt _ (by decide))

lemma le_last_of_touches [LawfulScalar α] {n i : Nat} {v : α} (h : (of n v).Touches i) :
    i ≤ (n - 1) % UInt32.size := by
  have hle := of_near_le n v
  have hfar := of_far n v
  unfold Touches at h
  split at hfar <;> omega

lemma lt_of_touches [LawfulScalar α] {n i : Nat} (hn : 0 < n) {v : α} (h : (of n v).Touches i) :
    i < n := by
  have hle := le_last_of_touches h
  have hmod := Nat.mod_le (n - 1) UInt32.size
  omega

section

variable [LawfulScalar α] {n k i : Nat} (hk : 0 < k) (hlast : k ≤ (n - 1) % UInt32.size) {v : α}

include hk hlast

lemma of_near_shrunk : (of k v).near = min (of n v).near (k - 1) := by
  have hsize := Nat.mod_lt (n - 1) (show 0 < UInt32.size by decide)
  rw [of_near, of_near, Nat.mod_eq_of_lt (a := k - 1) (by omega)]
  exact Scalar.index_of_le v (by omega) hsize

lemma touches_of_lt (hnear : (of n v).near < k) (h : (of k v).Touches i) : (of n v).Touches i := by
  have hsize := Nat.mod_lt (n - 1) (show 0 < UInt32.size by decide)
  have hshrunk := of_near_shrunk hk hlast (v := v)
  have hfar := of_far n v
  have hfar' := of_far k v
  rw [Nat.mod_eq_of_lt (a := k - 1) (by omega)] at hfar'
  unfold Touches at h ⊢
  by_cases hweight : 0 < Scalar.fraction v
  · simp only [hweight, true_and] at hfar hfar'
    split at hfar <;> split at hfar' <;> omega
  · simp only [hweight, false_and, if_false] at hfar hfar'
    omega

lemma touches_of_ge (hnear : k ≤ (of n v).near) (h : (of k v).Touches i) : i = k - 1 := by
  have hsize := Nat.mod_lt (n - 1) (show 0 < UInt32.size by decide)
  have hshrunk := of_near_shrunk hk hlast (v := v)
  have hfar' := of_far k v
  rw [Nat.mod_eq_of_lt (a := k - 1) (by omega), if_neg (by omega)] at hfar'
  unfold Touches at h
  omega

omit [LawfulScalar α] hlast in
lemma le_near_of_touches (h : (of n v).Touches i) (hi : k ≤ i) (hmiss : ¬ (of n v).Touches (k - 1)) :
    k ≤ (of n v).near := by
  have hfar := of_far n v
  unfold Touches at h hmiss
  split at hfar <;> omega

end

end Tap

lemma Frame.exists_colour {α : Type} [Scalar α] [LawfulScalar α] {f : Frame} (hf : f.WellFormed)
    (hwidth : 0 < f.width) (hheight : 0 < f.height) (x y : α) :
    ∃ c, f.colour (.of f.width x) (.of f.height y) = .ok c := by
  refine Tap.exists_blend fun j hj => Tap.exists_blend fun i hi => ?_
  obtain ⟨p, hp⟩ := exists_pixel? hf (Tap.lt_of_touches hwidth hi) (Tap.lt_of_touches hheight hj)
  exact ⟨.ofRgb p, by simp only [texel, hp]⟩

namespace Cache

variable {σ α β : Type} [Scalar α] [Scalar β] {c : Cache σ}

lemma sample_of_missing {t : β} (h : c.frame? (Tap.of c.frameCount t).near = none) (x y : α) :
    c.sample x y t = .error (.notResident (Tap.of c.frameCount t).near) := by
  unfold sample
  simp only [resident, h]
  rfl

def HoldsGood (c : Cache σ) (e : Extent) (i : Nat) : Prop :=
  ∃ f, c.frame? i = some f ∧ f.extent = e ∧ f.WellFormed

variable {e : Extent}

lemma exists_sample [LawfulScalar α] (hwidth : 0 < e.width) (hheight : 0 < e.height) {t : β}
    (h : ∀ i, (Tap.of c.frameCount t).Touches i → c.HoldsGood e i) (x y : α) :
    ∃ p, c.sample x y t = .ok p := by
  obtain ⟨near, hnear, rfl, -⟩ := h _ (Or.inl rfl)
  have hblend : ∃ p, (Tap.of c.frameCount t).blend (fun i => do
      (← c.resident i).colour (.of near.width x) (.of near.height y)) = .ok p := by
    refine Tap.exists_blend fun i hi => ?_
    obtain ⟨f, hf, hextent, hgood⟩ := h i hi
    obtain ⟨hw, hh⟩ := Extent.mk.inj hextent
    simp only [resident, hf]
    rw [← hw, ← hh]
    exact Frame.exists_colour hgood (hw ▸ hwidth) (hh ▸ hheight) x y
  obtain ⟨p, hp⟩ := hblend
  refine ⟨p.toRgb, ?_⟩
  have hresident : c.resident (Tap.of c.frameCount t).near = .ok near := by
    simp only [resident, hnear]
  simp only [sample, hresident]
  change ((Tap.of c.frameCount t).blend fun i => do
    (← c.resident i).colour (.of near.width x) (.of near.height y)) >>= _ = _
  rw [hp]
  rfl

variable {xs ys : Span α} {ts : Span β} {width height : Nat}

lemma sampleFrame_of_lengths (hxs : xs.length = width * height) (hys : ys.length = width * height)
    (hts : ts.length = width * height) (hcount : 0 < c.frameCount) :
    c.sampleFrame xs ys ts width height = Frame.ofPixels width height <$>
      (xs.toList.zip (ys.toList.zip ts.toList)).mapM fun (x, y, t) => c.sample x y t := by
  have hlen : ¬ (xs.length ≠ width * height ∨ ys.length ≠ width * height ∨
      ts.length ≠ width * height) := by omega
  simp only [sampleFrame]
  rw [if_neg hlen, if_neg (Nat.ne_of_gt hcount)]

lemma extent_of_sampleFrame {f : Frame} (h : c.sampleFrame xs ys ts width height = .ok f) :
    f.extent = ⟨width, height⟩ ∧ f.WellFormed := by
  rw [sampleFrame] at h
  split at h
  · exact nomatch h
  split at h
  · exact nomatch h
  case isFalse.isFalse hlengths _ =>
    obtain ⟨pixels, hpixels, rfl⟩ := Traversal.map_eq_ok_iff.mp h
    refine ⟨rfl, Frame.wellFormed_ofPixels ?_⟩
    rw [Traversal.length_of_mapM hpixels, List.length_zip, List.length_zip, Span.length_toList,
      Span.length_toList, Span.length_toList]
    omega

section

variable [LawfulScalar α] (hwidth : 0 < e.width) (hheight : 0 < e.height) (hxs : xs.length = width * height)
  (hys : ys.length = width * height) (hts : ts.length = width * height) (hcount : 0 < c.frameCount)

include hwidth hheight hxs hys hts hcount

lemma exists_sampleFrame
    (h : ∀ v ∈ ts.toList, ∀ i, (Tap.of c.frameCount v).Touches i → c.HoldsGood e i) :
    ∃ f, c.sampleFrame xs ys ts width height = .ok f := by
  rw [sampleFrame_of_lengths hxs hys hts hcount]
  obtain ⟨pixels, hpixels⟩ := Traversal.exists_mapM
    (f := fun ((x, y, t) : α × α × β) => c.sample x y t) (l := xs.toList.zip (ys.toList.zip ts.toList))
    fun ⟨x, y, t⟩ hmem =>
      exists_sample hwidth hheight (h t (List.of_mem_zip (List.of_mem_zip hmem).2).2) x y
  exact ⟨_, by rw [hpixels]; rfl⟩

lemma sampleFrame_of_missing {m : Nat} (hm : c.frame? m = none)
    (h : ∀ v ∈ ts.toList, (Tap.of c.frameCount v).near = m ∨
      ∀ i, (Tap.of c.frameCount v).Touches i → c.HoldsGood e i)
    (hv : ∃ v ∈ ts.toList, (Tap.of c.frameCount v).near = m) :
    c.sampleFrame xs ys ts width height = .error (.notResident m) := by
  rw [sampleFrame_of_lengths hxs hys hts hcount, Traversal.mapM_eq_error (e := .notResident m)]
  · rfl
  · rintro ⟨x, y, t⟩ hmem
    rcases h t (List.of_mem_zip (List.of_mem_zip hmem).2).2 with rfl | hgood
    · exact Or.inl (sample_of_missing hm x y)
    · exact Or.inr (exists_sample hwidth hheight hgood x y)
  · obtain ⟨v, hmem, rfl⟩ := hv
    obtain ⟨k, hk, rfl⟩ := List.mem_iff_getElem.mp hmem
    have hkt : k < ts.length := by rwa [Span.length_toList] at hk
    have hkx : k < xs.toList.length := by rw [Span.length_toList]; omega
    have hky : k < ys.toList.length := by rw [Span.length_toList]; omega
    refine ⟨(xs.toList[k], ys.toList[k], ts.toList[k]), ?_, sample_of_missing hm _ _⟩
    refine List.mem_iff_getElem.mpr ⟨k, ?_, ?_⟩
    · rw [List.length_zip, List.length_zip]
      omega
    · rw [List.getElem_zip, List.getElem_zip]

end

end Cache

end VideoRemap

import VideoRemap.Proofs.Number.Index
import VideoRemap.Proofs.Sample.Resident
import VideoRemap.Proofs.Sample.Stocked

namespace VideoRemap

lemma insertIndex_ascending {i : Nat} {is : List Nat} (h : is.Pairwise (· < ·)) :
    (insertIndex i is).Pairwise (· < ·) := by
  induction is with
  | nil => exact List.pairwise_singleton _ _
  | cons j is ih =>
    obtain ⟨hj, his⟩ := List.pairwise_cons.mp h
    simp only [insertIndex]
    split
    case isTrue hlt =>
      refine List.pairwise_cons.mpr ⟨fun k hk => ?_, h⟩
      rcases List.mem_cons.mp hk with rfl | hk
      · exact hlt
      · exact Nat.lt_trans hlt (hj k hk)
    split
    · exact h
    · refine List.pairwise_cons.mpr ⟨fun k hk => ?_, ih his⟩
      rcases mem_insertIndex.mp hk with rfl | hk
      · omega
      · exact hj k hk

section

variable {β : Type} [Scalar β]

lemma referencedFrames_ascending (ts : Span β) (n : Nat) : (referencedFrames ts n).Pairwise (· < ·) := by
  have hfold (vs : List β) (is : List Nat) (his : is.Pairwise (· < ·)) : (vs.foldl (fun is v =>
      let tap := Tap.of n v
      insertIndex tap.near (insertIndex tap.far is)) is).Pairwise (· < ·) := by
    induction vs generalizing is with
    | nil => exact his
    | cons v vs ih => exact ih _ (insertIndex_ascending (insertIndex_ascending his))
  exact (hfold ts.toList [] .nil).filter _

lemma mem_referencedFrames_iff [LawfulScalar β] {ts : Span β} {n i : Nat} (hn : 0 < n) :
    i ∈ referencedFrames ts n ↔ ∃ t ∈ ts.toList, (Tap.of n t).Touches i := by
  rw [mem_referencedFrames, and_iff_right_iff_imp]
  rintro ⟨t, -, ht⟩
  exact Tap.lt_of_touches hn ht

end

abbrev Reader := Frame → Nat → Nat → Except Fault Texel

def Reader.AgreesInside (read : Reader) : Prop :=
  ∀ (f : Frame) (i j : Nat), i < f.width → j < f.height → read f i j = f.texel i j

def Frame.colourBy (read : Reader) (f : Frame) (x y : Tap) : Except Fault Texel :=
  y.blend fun j => x.blend fun i => read f i j

lemma Frame.colourBy_inside {α : Type} [Scalar α] [LawfulScalar α] {read : Reader}
    (hread : read.AgreesInside) {f : Frame} (hwidth : 0 < f.width) (hheight : 0 < f.height) (x y : α) :
    f.colourBy read (.of f.width x) (.of f.height y) = f.colour (.of f.width x) (.of f.height y) := by
  refine Tap.blend_congr fun j hj => Tap.blend_congr fun i hi => ?_
  exact hread f i j (Tap.lt_of_touches hwidth hi) (Tap.lt_of_touches hheight hj)

namespace Cache

variable {σ α β : Type} [Scalar α] [Scalar β]

def sampleBy (read : Reader) (c : Cache σ) (x y : α) (t : β) : Except Fault Rgb := do
  let tap := Tap.of c.frameCount t
  let near ← c.resident tap.near
  let xTap := Tap.of near.width x
  let yTap := Tap.of near.height y
  return (← tap.blend fun i => do (← c.resident i).colourBy read xTap yTap).toRgb

def sampleFrameBy (read : Reader) (c : Cache σ) (xs ys : Span α) (ts : Span β) (width height : Nat) :
    Except Fault Frame :=
  let n := width * height
  if xs.length ≠ n ∨ ys.length ≠ n ∨ ts.length ≠ n then
    .error (.spanLengths xs.length ys.length ts.length n)
  else if c.frameCount = 0 then .error .emptySource
  else
    Frame.ofPixels width height <$>
      (xs.toList.zip (ys.toList.zip ts.toList)).mapM fun (x, y, t) => c.sampleBy read x y t

lemma sampleFrameBy_texel (c : Cache σ) (xs ys : Span α) (ts : Span β) (width height : Nat) :
    c.sampleFrameBy Frame.texel xs ys ts width height = c.sampleFrame xs ys ts width height := rfl

variable [LawfulScalar α] {c : Cache σ} {e : Extent}

lemma sampleBy_inside {read : Reader} (hread : read.AgreesInside) (hwidth : 0 < e.width)
    (hheight : 0 < e.height) {t : β} (h : ∀ i, (Tap.of c.frameCount t).Touches i → c.HoldsGood e i) (x y : α) :
    c.sampleBy read x y t = c.sample x y t := by
  obtain ⟨near, hnear, rfl, -⟩ := h _ (Or.inl rfl)
  have hresident : c.resident (Tap.of c.frameCount t).near = .ok near := by
    simp only [resident, hnear]
  simp only [sampleBy, sample, hresident]
  change (Tap.blend _ _ >>= _ : Except Fault Rgb) = (Tap.blend _ _ >>= _ : Except Fault Rgb)
  rw [Tap.blend_congr fun i hi => ?_]
  obtain ⟨f, hf, hextent, -⟩ := h i hi
  obtain ⟨hw, hh⟩ := Extent.mk.inj hextent
  simp only [resident, hf, ← hw, ← hh]
  exact Frame.colourBy_inside hread (hw ▸ hwidth) (hh ▸ hheight) x y

lemma sampleFrameBy_inside {read : Reader} (hread : read.AgreesInside) (hwidth : 0 < e.width)
    (hheight : 0 < e.height) {ts : Span β}
    (h : ∀ t ∈ ts.toList, ∀ i, (Tap.of c.frameCount t).Touches i → c.HoldsGood e i) (xs ys : Span α)
    (width height : Nat) :
    c.sampleFrameBy read xs ys ts width height = c.sampleFrame xs ys ts width height := by
  rw [← sampleFrameBy_texel]
  unfold sampleFrameBy
  rw [Traversal.mapM_congr]
  rintro ⟨x, y, t⟩ hmem
  exact sampleBy_inside hread hwidth hheight (h t (List.of_mem_zip (List.of_mem_zip hmem).2).2) x y

theorem referenced_frames_suffice [LawfulScalar β] {xs ys : Span α} {ts : Span β} {width height : Nat}
    (hcount : 0 < c.frameCount) (hsize : 0 < e.width ∧ 0 < e.height)
    (hgood : ∀ i f, c.frame? i = some f → f.extent = e ∧ f.WellFormed)
    (hxs : xs.length = width * height) (hys : ys.length = width * height)
    (hts : ts.length = width * height) :
    let needed := referencedFrames ts c.frameCount
    needed.Pairwise (· < ·) ∧ (∀ i ∈ needed, i < c.frameCount) ∧
    (∀ i, i ∈ needed ↔ ∃ t ∈ ts.toList, (Tap.of c.frameCount t).Touches i) ∧
    ((∀ i ∈ needed, c.holds i) → ∃ out : Frame, out.extent = ⟨width, height⟩ ∧ out.WellFormed ∧
      c.sampleFrame xs ys ts width height = .ok out ∧
      ∀ read : Reader, read.AgreesInside → c.sampleFrameBy read xs ys ts width height = .ok out) := by
  refine ⟨referencedFrames_ascending ts _, fun i hi => (mem_referencedFrames.mp hi).1,
    fun i => mem_referencedFrames_iff hcount, fun hheld => ?_⟩
  have hholds : ∀ t ∈ ts.toList, ∀ i, (Tap.of c.frameCount t).Touches i → c.HoldsGood e i := by
    intro t ht i hi
    obtain ⟨f, hf⟩ := holds_iff.mp (hheld i ((mem_referencedFrames_iff hcount).mpr ⟨t, ht, hi⟩))
    exact ⟨f, hf, hgood i f hf⟩
  obtain ⟨out, hout⟩ := exists_sampleFrame hsize.1 hsize.2 hxs hys hts hcount hholds
  obtain ⟨hextent, hformed⟩ := extent_of_sampleFrame hout
  refine ⟨out, hextent, hformed, hout, fun read hread => ?_⟩
  rw [sampleFrameBy_inside hread hsize.1 hsize.2 hholds, hout]

def guarded : Reader := fun f i j =>
  if i < f.width ∧ j < f.height then f.texel i j else .error (.outsideFrame i j)

lemma guarded_agreesInside : guarded.AgreesInside := fun _ _ _ hi hj => if_pos ⟨hi, hj⟩

theorem referenced_frames_suffice_for_wild_coordinates :
    let c := stocked [.black 2 1, ⟨2, 1, #[0, 1, 2, 250, 251, 252]⟩] 2
    let xs : Span Float32 := .dense [Float32.ofBits 0x7FC00000, Float32.ofBits 0x3F000000]
    let ys : Span Float32 := .dense [Float32.ofBits 0x7F800000, Float32.ofBits 0xFF800000]
    let ts : Span Float32 := .dense [Float32.ofBits 0x3F000000, Float32.ofBits 0x40F00000]
    referencedFrames ts c.frameCount = [0, 1] ∧ (∀ i ∈ referencedFrames ts c.frameCount, c.holds i) ∧
    ∃ out : Frame, out.extent = ⟨2, 1⟩ ∧ c.sampleFrame xs ys ts 2 1 = .ok out ∧
      c.sampleFrameBy guarded xs ys ts 2 1 = .ok out := by
  intro c xs ys ts
  have hneeded : referencedFrames ts c.frameCount = [0, 1] := by decide +kernel
  have hheld : ∀ i ∈ referencedFrames ts c.frameCount, c.holds i := by
    rw [hneeded]
    decide +kernel
  have hgood : ∀ i f, c.frame? i = some f → f.extent = ⟨2, 1⟩ ∧ f.WellFormed := by
    intro i f hf
    rw [frame?_stocked] at hf
    split at hf
    · have hmem := List.mem_of_getElem? hf
      revert f
      simp only [List.mem_cons, List.not_mem_nil, or_false]
      rintro f - (rfl | rfl) <;> exact ⟨rfl, rfl⟩
    · exact nomatch hf
  obtain ⟨-, -, -, hsample⟩ := referenced_frames_suffice (c := c) (e := ⟨2, 1⟩) (by decide) (by decide) hgood
    (show xs.length = 2 * 1 from rfl) (show ys.length = 2 * 1 from rfl) (show ts.length = 2 * 1 from rfl)
  obtain ⟨out, hextent, -, hout, hinside⟩ := hsample hheld
  exact ⟨hneeded, hheld, out, hextent, hout, hinside guarded guarded_agreesInside⟩

end Cache

end VideoRemap

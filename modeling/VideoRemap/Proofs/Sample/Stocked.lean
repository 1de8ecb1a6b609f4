import VideoRemap.Proofs.Cache.Reel
import VideoRemap.Proofs.Sample.Tap
import VideoRemap.Proofs.Traversal
import VideoRemap.Sample.Frame

namespace VideoRemap

lemma Tap.blend_congr {tap : Tap} {read read' : Nat → Except Fault Texel}
    (h : ∀ i, tap.Touches i → read i = read' i) : tap.blend read = tap.blend read' := by
  unfold Tap.blend
  rw [h tap.near (Or.inl rfl), h tap.far (Or.inr rfl)]

namespace Cache

def stocked (frames : List Frame) (n : Nat) : Cache Unit where
  source := ()
  frames := ((frames.take n).zipIdx).map fun (f, i) => (i, f)
  position := 0
  frameCount := n
  extent := ⟨0, 0⟩
  counters := ⟨0, 0, 0, 0, 0⟩

lemma lookup_zipIdx (fs : List Frame) (k i : Nat) :
    ((fs.zipIdx k).map fun (f, i) => (i, f)).lookup (k + i) = fs[i]? := by
  induction fs generalizing k i with
  | nil => rfl
  | cons f fs ih =>
    rw [List.zipIdx_cons, List.map_cons, lookup_cons_ite]
    cases i with
    | zero => simp
    | succ i =>
      rw [if_neg (by omega), show k + (i + 1) = k + 1 + i by omega, ih]
      simp

lemma frame?_stocked (frames : List Frame) (n i : Nat) :
    (stocked frames n).frame? i = if i < n then frames[i]? else none := by
  have h := lookup_zipIdx (frames.take n) 0 i
  rw [Nat.zero_add] at h
  rw [frame?, stocked, h, List.getElem?_take]

variable {σ τ α β : Type} [Scalar α] [Scalar β] {c : Cache σ} {d : Cache τ}

lemma resident_congr {i : Nat} (h : c.frame? i = d.frame? i) : c.resident i = d.resident i := by
  unfold resident
  rw [h]

lemma sample_congr {t : β} (hcount : c.frameCount = d.frameCount)
    (h : ∀ i, (Tap.of c.frameCount t).Touches i → c.frame? i = d.frame? i) (x y : α) :
    c.sample x y t = d.sample x y t := by
  unfold sample
  simp only [← hcount]
  rw [resident_congr (h _ (Or.inl rfl))]
  congr 1
  funext near
  rw [Tap.blend_congr fun i hi => by rw [resident_congr (h i hi)]]

lemma sampleFrame_congr {ts : Span β} (hcount : c.frameCount = d.frameCount)
    (h : ∀ v ∈ ts.toList, ∀ i, (Tap.of c.frameCount v).Touches i → c.frame? i = d.frame? i)
    (xs ys : Span α) (width height : Nat) :
    c.sampleFrame xs ys ts width height = d.sampleFrame xs ys ts width height := by
  unfold sampleFrame
  rw [← hcount, Traversal.mapM_congr]
  rintro ⟨x, y, t⟩ hmem
  exact sample_congr hcount (h t (List.of_mem_zip (List.of_mem_zip hmem).2).2) x y

lemma Faithful.frame?_eq_stocked {info : SourceInfo} {frames : List Frame}
    {position : Nat → σ → Prop} (h : Faithful info frames position c) {i : Nat}
    (hheld : i < c.frameCount → c.holds i) :
    c.frame? i = (stocked frames c.frameCount).frame? i := by
  rw [frame?_stocked]
  split
  case isTrue hlt =>
    obtain ⟨f, hf⟩ := holds_iff.mp (hheld hlt)
    rw [hf, h.frame hf]
  case isFalse hge =>
    rw [frame?_eq_none, Bool.eq_false_iff]
    exact fun hi => hge (h.below hi)

end Cache

end VideoRemap

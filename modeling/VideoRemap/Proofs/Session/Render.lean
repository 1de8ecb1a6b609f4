import VideoRemap.Proofs.Cache.Load
import VideoRemap.Proofs.Sample.Stocked
import VideoRemap.Session.Run

namespace VideoRemap

variable {σ : Type} [Source σ] {info : SourceInfo} {frames : List Frame}
  {position : Nat → σ → Prop} {c : Cache σ}

lemma Cache.loadMissing_fetched (reel : IsReel info frames position)
    (even : ∀ f ∈ frames, f.extent = info.extent) (h : Faithful info frames position c)
    (is : List Nat) : ∃ c', c.loadMissing is = (.ok (), c') ∧
      Fetched info frames position (· ∈ is) c c' := by
  induction is generalizing c with
  | nil => exact ⟨c, rfl, .refl h fun i hi => by simp at hi⟩
  | cons i is ih =>
    simp only [loadMissing]
    by_cases hi : c.holds i
    · obtain ⟨c', hrun, hc'⟩ := ih h
      refine ⟨c', by simp only [if_pos hi, hrun], hc'.widen h (fun j => List.mem_cons_of_mem _) ?_⟩
      intro j hj _
      rcases List.mem_cons.mp hj with rfl | hj
      · exact Or.inr hi
      · exact Or.inl hj
    · obtain ⟨c₁, hrun₁, h₁⟩ := loadFrame_fetched reel even h i
      obtain ⟨c', hrun, hc'⟩ := ih h₁.faithful
      refine ⟨c', by simp only [if_neg hi, hrun₁, hrun], (h₁.trans hc').widen h ?_ ?_⟩
      · exact fun j hj => List.mem_cons.mpr hj
      · exact fun j hj _ => Or.inl (List.mem_cons.mp hj)

namespace Session

variable (α β : Type) [Scalar α] [Scalar β] (s : Session) (f : Nat)

def coordsIn : Except Fault (Span α × Span α × Span β) := do
  let grid : Grid α := .ofSize s.size.width s.size.height f
  return (← s.coords.x.evaluate grid, ← s.coords.y.evaluate grid,
    ← s.coords.t.evaluate (.ofSize s.size.width s.size.height f))

def directIn (frames : List Frame) (n : Nat) : Except Fault Frame := do
  let (xs, ys, ts) ← s.coordsIn α β f
  (Cache.stocked frames n).sampleFrame xs ys ts s.size.width s.size.height

def direct (frames : List Frame) (n : Nat) : Except Fault Frame :=
  match s.xy, s.t with
  | .int, .int => s.directIn Int32 Int32 f frames n
  | .int, .float => s.directIn Int32 Float32 f frames n
  | .float, .int => s.directIn Float32 Int32 f frames n
  | .float, .float => s.directIn Float32 Float32 f frames n

section

variable {α β s f}

lemma renderIn_of_error {e : Fault} (hcoords : s.coordsIn α β f = .error e) :
    s.renderIn α β f c = (.error e, c) := by
  unfold coordsIn at hcoords
  simp only [renderIn, hcoords]

lemma renderIn_of_ok (reel : IsReel info frames position)
    (even : ∀ f ∈ frames, f.extent = info.extent) (h : c.Faithful info frames position)
    {xs ys : Span α} {ts : Span β} (hcoords : s.coordsIn α β f = .ok (xs, ys, ts)) :
    ∃ c', s.renderIn α β f c = (c'.sampleFrame xs ys ts s.size.width s.size.height, c') ∧
      Cache.Fetched info frames position (· ∈ referencedFrames ts c.frameCount) c c' := by
  obtain ⟨c', hrun, hc'⟩ := c.loadMissing_fetched reel even h (referencedFrames ts c.frameCount)
  unfold coordsIn at hcoords
  exact ⟨c', by simp only [renderIn, hcoords, hrun], hc'⟩

omit [Source σ] in
lemma sampleFrame_fetched {c' : Cache σ} {ts : Span β}
    (hc' : Cache.Fetched info frames position (· ∈ referencedFrames ts c.frameCount) c c')
    (hcount : c'.frameCount = c.frameCount) (xs ys : Span α) (width height : Nat) :
    c'.sampleFrame xs ys ts width height =
      (Cache.stocked frames c.frameCount).sampleFrame xs ys ts width height := by
  refine Cache.sampleFrame_congr (d := Cache.stocked frames c.frameCount) hcount ?_ xs ys width height
  intro v hv i hi
  have hheld (hlt : i < c'.frameCount) : c'.holds i := by
    rw [hcount] at hi hlt
    exact hc'.holds_iff.mpr
      (Or.inr ⟨mem_referencedFrames.mpr ⟨hlt, v, hv, hi⟩, hcount.symm ▸ hlt⟩)
  rw [hc'.faithful.frame?_eq_stocked hheld, hcount]

end

lemma renderIn_direct (reel : IsReel info frames position)
    (even : ∀ f ∈ frames, f.extent = info.extent) (h : c.Faithful info frames position)
    (hcount : c.frameCount ≤ frames.length) :
    ∃ c', s.renderIn α β f c = (s.directIn α β f frames c.frameCount, c') ∧
      c'.Faithful info frames position ∧ c'.frameCount = c.frameCount := by
  unfold directIn
  cases hcoords : s.coordsIn α β f with
  | error e => exact ⟨c, renderIn_of_error hcoords, h, rfl⟩
  | ok spans =>
    obtain ⟨xs, ys, ts⟩ := spans
    obtain ⟨c', hrun, hc'⟩ := renderIn_of_ok reel even h hcoords
    have hsame := hc'.count_eq fun i _ hlt => by omega
    refine ⟨c', ?_, hc'.faithful, hsame⟩
    rw [hrun, sampleFrame_fetched hc' hsame xs ys]
    rfl

lemma render_direct (reel : IsReel info frames position)
    (even : ∀ f ∈ frames, f.extent = info.extent) (h : c.Faithful info frames position)
    (hcount : c.frameCount ≤ frames.length) :
    ∃ c', s.render f c = (s.direct f frames c.frameCount, c') ∧
      c'.Faithful info frames position ∧ c'.frameCount = c.frameCount := by
  cases hxy : s.xy <;> cases ht : s.t <;> simp only [render, direct, hxy, ht] <;>
    exact renderIn_direct _ _ s f reel even h hcount

end Session

end VideoRemap

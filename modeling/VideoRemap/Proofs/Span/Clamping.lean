import VideoRemap.Proofs.Expr.Pointwise
import VideoRemap.Proofs.Number.Double
import VideoRemap.Proofs.Span.Clamp
import VideoRemap.Proofs.Span.Layout
import VideoRemap.Proofs.Span.Lookup

namespace VideoRemap

namespace Run

variable {r : Run (Ramp Int32)}

def Wraps (r : Run (Ramp Int32)) : Prop :=
  ∃ k < r.length, (r.payload.value k).toInt ≠ r.payload.start.toInt + r.payload.step.toInt * k

def missesEnd (r : Run (Ramp Int32)) : Bool :=
  Number.ofInt32 (r.payload.value (r.length - 1)) != Number.ofInt32 r.payload.start +
    Number.ofInt32 r.payload.step * (r.length - 1).toUInt64.toFloat

lemma wraps_iff (hpos : 0 < r.length) :
    r.Wraps ↔ Scalar.wraps r.payload.start r.payload.step (r.length - 1) = true := by
  constructor
  · rintro ⟨k, hk, hne⟩
    rw [← Bool.not_eq_false]
    exact fun hexact => hne (Ramp.toInt_value hexact (Nat.le_sub_one_of_lt hk))
  · exact fun hwraps => ⟨r.length - 1, by omega, bne_iff_ne.mp hwraps⟩

lemma natAbs_toInt_le (v : Int32) : v.toInt.natAbs ≤ 2 ^ 31 := by
  have hlow := v.le_toInt
  have hhigh := v.toInt_lt
  omega

lemma missesEnd_iff (hpos : 0 < r.length) (hlength : r.length ≤ 2 ^ 64) : r.missesEnd ↔ r.Wraps := by
  rw [wraps_iff hpos, missesEnd, bne, Number.ofInt32, Number.ofInt32, Number.ofInt32,
    Number.ofInt_beq_add_mul (natAbs_toInt_le _) (natAbs_toInt_le _) (natAbs_toInt_le _) (by omega),
    ← decide_not, decide_eq_true_iff]
  exact bne_iff_ne.symm

end Run

namespace Span

variable {α : Type} [Scalar α]

lemma encoding_clamp (low high : α) (s : Span α) : (s.clamp low high).encoding = s.encoding := by
  cases s <;> rfl

lemma length_clampRuns_le (r : Ramp α) (n : Nat) (low high : α) :
    (r.clampRuns n low high).length ≤ 3 := by
  simp only [Ramp.clampRuns]
  split
  · exact Nat.le_add_left 1 2
  split
  · exact Nat.le_refl 3
  · exact Nat.le_refl 3

lemma length_clampRun_le {r : Run (Ramp α)}
    (h : Scalar.wraps r.payload.start r.payload.step (r.length - 1) = false) (low high : α) :
    (clampRun low high r).length ≤ 3 := by
  rw [clampRun, h, if_neg Bool.false_ne_true]
  exact Nat.le_trans (List.length_filter_le _ _) (length_clampRuns_le _ _ low high)

theorem clamp_exact :
    (∀ (s : Span Int32) (low high : Int32), s.WellFormed → low ≤ high →
      (∀ i, (s.clamp low high).get? i = (s.get? i).map fun v => max low (min v high)) ∧
      (s.clamp low high).encoding = s.encoding ∧ (s.clamp low high).length = s.length) ∧
    (∀ (rs : List (Run (Ramp Int32))) (low high : Int32), Run.WellFormed rs → low ≤ high →
      (linear rs).clamp low high = linear (rs.flatMap (clampRun low high)) ∧
      ∀ r ∈ rs, (¬ r.Wraps → (clampRun low high r).length ≤ 3) ∧
        (r.length ≤ 2 ^ 64 → (r.missesEnd ↔ r.Wraps))) ∧
    ∀ (α : Type) [Scalar α] (s : Span α) (low high : α), s.WellFormed →
      (s.clamp low high).LaidOut s.length s.encoding := by
  refine ⟨?_, ?_, ?_⟩
  · intro s low high hs hbounds
    refine ⟨fun i => ?_, encoding_clamp low high s, length_clamp low high s⟩
    rw [get?_eq_getElem?, get?_eq_getElem?, toList_clamp hbounds, List.getElem?_map]
    exact congrArg (fun f => Option.map f s.toList[i]?) (funext (Expr.clampTo_eq_max_min hbounds))
  · intro rs low high hrs hbounds
    refine ⟨rfl, fun r hr => ⟨fun hexact => ?_, Run.missesEnd_iff (hrs r hr)⟩⟩
    rw [Run.wraps_iff (hrs r hr), Bool.not_eq_true] at hexact
    exact length_clampRun_le hexact low high
  · intro α _ s low high hs
    have hlaid := (wellFormed_clamp hs low high).laidOut
    rwa [length_clamp, encoding_clamp] at hlaid

theorem clamp_of_wrapping_ramp :
    let wrapping : Run (Ramp Int32) := ⟨4, ⟨2147483646, 1⟩⟩
    let crossing : Run (Ramp Int32) := ⟨9, ⟨-4, 3⟩⟩
    let s : Span Int32 := linear [wrapping, crossing]
    s.WellFormed ∧ wrapping.Wraps ∧ ¬ crossing.Wraps ∧
    (s.clamp 0 10).get? 2 = some 0 ∧ (s.clamp 0 10).get? 6 = some 2 ∧ (s.clamp 0 10).get? 12 = some 10 ∧
    (clampRun 0 10 crossing).length ≤ 3 ∧ wrapping.missesEnd ∧ (s.clamp 0 10).LaidOut 13 .linear := by
  intro wrapping crossing s
  have hs : s.WellFormed := by simp [s, wrapping, crossing, WellFormed, Run.WellFormed]
  have hbounds : (0 : Int32) ≤ 10 := by decide
  obtain ⟨hpixels, hruns, hlaid⟩ := clamp_exact
  obtain ⟨hget, -, -⟩ := hpixels s 0 10 hs hbounds
  obtain ⟨-, hparts⟩ := hruns [wrapping, crossing] 0 10 hs hbounds
  have hwraps : wrapping.Wraps := ⟨2, by decide, by decide⟩
  have hcrossing : ¬ crossing.Wraps := by rw [Run.wraps_iff (by decide)]; decide
  exact ⟨hs, hwraps, hcrossing, (hget 2).trans (by decide), (hget 6).trans (by decide),
    (hget 12).trans (by decide),
    (hparts crossing (by simp)).1 hcrossing, ((hparts wrapping (by simp)).2 (by decide)).mpr hwraps,
    hlaid Int32 s 0 10 hs⟩

end Span

end VideoRemap

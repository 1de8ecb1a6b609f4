import VideoRemap.Proofs.Span.Crossing
import VideoRemap.Proofs.Span.Pointwise

/-!
Clamping spans of whole numbers is clamping every pixel. A ramp whose last value is exact has not
wrapped around anywhere, so it is monotone and crosses each bound once.
-/

namespace VideoRemap

namespace Ramp

lemma toInt_value {r : Ramp Int32} {n : Nat} (h : Scalar.wraps r.start r.step n = false) {k : Nat}
    (hk : k ≤ n) : (r.value k).toInt = r.start.toInt + r.step.toInt * k := by
  have hlast : (r.value n).toInt = r.start.toInt + r.step.toInt * n :=
    bne_eq_false_iff_eq.mp h
  have hlow := (r.value n).le_toInt
  have hhigh := (r.value n).toInt_lt
  have hstart := r.start.le_toInt
  have hstart' := r.start.toInt_lt
  have hwrap : (r.value k).toInt = (r.start.toInt + r.step.toInt * k).bmod (2 ^ 32) := by
    rw [value_eq, Int32.toInt_add, Int32.toInt_mul, Int32.toInt_ofNat']
    simp [Int32.size]
  have hkn : (k : Int) ≤ n := Int.ofNat_le.mpr hk
  -- Between two ends in range nothing has left the range.
  have hbetween : -2 ^ 31 ≤ r.start.toInt + r.step.toInt * k ∧
      r.start.toInt + r.step.toInt * k < 2 ^ 31 := by
    rw [hlast] at hlow hhigh
    rcases Int.le_total 0 r.step.toInt with hstep | hstep
    · have h₁ := Int.mul_le_mul_of_nonneg_left hkn hstep
      have h₂ := Int.mul_nonneg hstep (Int.natCast_nonneg k)
      omega
    · have h₁ := Int.mul_le_mul_of_nonpos_left hstep hkn
      have h₂ := Int.mul_nonpos_of_nonpos_of_nonneg hstep (Int.natCast_nonneg k)
      omega
  rw [hwrap, Int.bmod_eq_of_le (by omega) (by omega)]

lemma map_range' {β : Type} (f : Nat → β) (i n : Nat) :
    (List.range' i n).map f = (List.range' 0 n).map fun k => f (i + k) := by
  rw [List.range'_eq_map_range, List.map_map, List.range_eq_range']
  rfl

lemma expand_threeRuns (r : Ramp Int32) {n enter leave : Nat} (near far : Int32)
    (h : enter ≤ leave) (hn : leave ≤ n) :
    Run.expand Ramp.value (r.threeRuns n near far enter leave) = (List.range n).map fun k =>
      if k < enter then near else if k < leave then r.value k else far := by
  have hnear : (List.range' 0 enter).map (flat near).value = (List.range' 0 enter).map fun k =>
      if k < enter then near else if k < leave then r.value k else far := by
    refine List.map_congr_left fun k hk => ?_
    have := (List.mem_range'_1.mp hk).2
    rw [value_flat, if_pos (by omega)]
  have hramp : (List.range' 0 (leave - enter)).map (r.drop enter).value =
      (List.range' enter (leave - enter)).map fun k =>
        if k < enter then near else if k < leave then r.value k else far := by
    rw [map_range' _ enter]
    refine List.map_congr_left fun k hk => ?_
    have := (List.mem_range'_1.mp hk).2
    rw [value_drop, if_neg (by omega), if_pos (by omega)]
  have hfar : (List.range' 0 (n - leave)).map (flat far).value =
      (List.range' leave (n - leave)).map fun k =>
        if k < enter then near else if k < leave then r.value k else far := by
    rw [map_range' _ leave]
    refine List.map_congr_left fun k _ => ?_
    rw [value_flat, if_neg (by omega), if_neg (by omega)]
  simp only [threeRuns, Run.expand_cons, hnear, hramp, hfar]
  rw [List.range_eq_range', Run.range'_split 0 (Nat.le_trans h hn), Nat.zero_add,
    Run.range'_split enter (Nat.sub_le_sub_right hn enter), List.map_append, List.map_append,
    Nat.add_sub_cancel' h, show n - enter - (leave - enter) = n - leave by omega]
  simp [Run.expand]

lemma clampTo_eq (low high v : Int32) :
    Scalar.clampTo low high v = if v < low then low else if high < v then high else v := rfl

section

variable {r : Ramp Int32} {n : Nat} (h : Scalar.wraps r.start r.step (n - 1) = false)
  {low high : Int32} (hbounds : low ≤ high)

include h

lemma value_le {k l : Nat} (hkl : k ≤ l) (hl : l < n) (hstep : 0 < r.step) : r.value k ≤ r.value l := by
  rw [Int32.lt_iff_toInt_lt] at hstep
  rw [Int32.le_iff_toInt_le, toInt_value h (by omega), toInt_value h (by omega)]
  have := Int.mul_le_mul_of_nonneg_left (Int.ofNat_le.mpr hkl) (Int.le_of_lt hstep)
  change r.step.toInt * k ≤ r.step.toInt * l at this
  omega

lemma le_value {k l : Nat} (hkl : k ≤ l) (hl : l < n) (hstep : r.step < 0) : r.value l ≤ r.value k := by
  rw [Int32.lt_iff_toInt_lt] at hstep
  rw [Int32.le_iff_toInt_le, toInt_value h (by omega), toInt_value h (by omega)]
  have := Int.mul_le_mul_of_nonpos_left (Int.le_of_lt hstep) (Int.ofNat_le.mpr hkl)
  change r.step.toInt * l ≤ r.step.toInt * k at this
  omega

lemma clampTo_of_rising (hstep : 0 < r.step) {k : Nat} (hk : k < n) (estimate estimate' : Float) :
    Scalar.clampTo low high (r.value k) =
      let enter := Crossing.first (fun k => low ≤ r.value k) n estimate
      let leave := Crossing.first (fun k => high < r.value k) n estimate'
      if k < enter then low else if k < max leave enter then r.value k else high := by
  have henter := Crossing.first_le_iff (p := fun k => decide (low ≤ r.value k)) (n := n)
    (fun k l hkl hl hp => decide_eq_true (Int32.le_trans (of_decide_eq_true hp)
      (value_le h hkl hl hstep))) estimate hk
  have hleave := Crossing.first_le_iff (p := fun k => decide (high < r.value k)) (n := n)
    (fun k l hkl hl hp => decide_eq_true (Int32.lt_of_lt_of_le (of_decide_eq_true hp)
      (value_le h hkl hl hstep))) estimate' hk
  simp only
  generalize Crossing.first _ n estimate = enter at henter ⊢
  generalize Crossing.first _ n estimate' = leave at hleave ⊢
  rw [decide_eq_true_iff, Int32.le_iff_toInt_le] at henter
  rw [decide_eq_true_iff, Int32.lt_iff_toInt_lt] at hleave
  simp only [clampTo_eq, Int32.lt_iff_toInt_lt]
  by_cases hlow : (r.value k).toInt < low.toInt
  · rw [if_pos hlow, if_pos (by omega)]
  · by_cases hhigh : high.toInt < (r.value k).toInt
    · rw [if_neg hlow, if_pos hhigh, if_neg (by omega), if_neg (by omega)]
    · rw [if_neg hlow, if_neg hhigh, if_neg (by omega), if_pos (by omega)]

include hbounds in
lemma clampTo_of_falling (hstep : r.step < 0) {k : Nat} (hk : k < n) (estimate estimate' : Float) :
    Scalar.clampTo low high (r.value k) =
      let enter := Crossing.first (fun k => r.value k ≤ high) n estimate
      let leave := Crossing.first (fun k => r.value k < low) n estimate'
      if k < enter then high else if k < max leave enter then r.value k else low := by
  have henter := Crossing.first_le_iff (p := fun k => decide (r.value k ≤ high)) (n := n)
    (fun k l hkl hl hp => decide_eq_true (Int32.le_trans (le_value h hkl hl hstep)
      (of_decide_eq_true hp))) estimate hk
  have hleave := Crossing.first_le_iff (p := fun k => decide (r.value k < low)) (n := n)
    (fun k l hkl hl hp => decide_eq_true (Int32.lt_of_le_of_lt (le_value h hkl hl hstep)
      (of_decide_eq_true hp))) estimate' hk
  simp only
  generalize Crossing.first _ n estimate = enter at henter ⊢
  generalize Crossing.first _ n estimate' = leave at hleave ⊢
  rw [Int32.le_iff_toInt_le] at hbounds
  rw [decide_eq_true_iff, Int32.le_iff_toInt_le] at henter
  rw [decide_eq_true_iff, Int32.lt_iff_toInt_lt] at hleave
  simp only [clampTo_eq, Int32.lt_iff_toInt_lt]
  by_cases hlow : (r.value k).toInt < low.toInt
  · rw [if_pos hlow, if_neg (by omega), if_neg (by omega)]
  · by_cases hhigh : high.toInt < (r.value k).toInt
    · rw [if_neg hlow, if_pos hhigh, if_pos (by omega)]
    · rw [if_neg hlow, if_neg hhigh, if_neg (by omega), if_pos (by omega)]

include hbounds in
lemma expand_clampRuns : Run.expand Ramp.value (r.clampRuns n low high) =
    (List.range n).map fun k => Scalar.clampTo low high (r.value k) := by
  have hle {enter leave : Nat} : enter ≤ max leave enter := Nat.le_max_right ..
  simp only [clampRuns]
  split
  case isTrue hzero =>
    have hstep : r.step = 0 := eq_of_beq hzero
    have hconst (k : Nat) : r.value k = r.start := by
      rw [value_eq, hstep]
      grind
    simp only [Run.expand, List.flatMap_cons, List.flatMap_nil, List.append_nil, hconst]
    exact List.map_congr_left fun k _ => value_flat _ k
  case isFalse hnonzero =>
    have hne : r.step ≠ 0 := fun heq => hnonzero (beq_iff_eq.mpr heq)
    split
    case isTrue hstep =>
      rw [expand_threeRuns r low high hle
        (Nat.max_le.mpr ⟨Crossing.first_le .., Crossing.first_le ..⟩)]
      exact List.map_congr_left fun k hk =>
        (clampTo_of_rising h hstep (List.mem_range.mp hk) _ _).symm
    case isFalse hstep =>
      have hstep : r.step < 0 := by
        rw [Int32.lt_iff_toInt_lt]
        have hpos : ¬ (0 : Int32).toInt < r.step.toInt := fun h => hstep (Int32.lt_iff_toInt_lt.mpr h)
        have hzero : r.step.toInt ≠ (0 : Int32).toInt := fun h => hne (Int32.toInt_inj.mp h)
        omega
      rw [expand_threeRuns r high low hle
        (Nat.max_le.mpr ⟨Crossing.first_le .., Crossing.first_le ..⟩)]
      exact List.map_congr_left fun k hk =>
        (clampTo_of_falling h hbounds hstep (List.mem_range.mp hk) _ _).symm

end

end Ramp

namespace Run

lemma expand_filter {β α : Type} (value : β → Nat → α) (rs : List (Run β)) :
    expand value (rs.filter fun r => 0 < r.length) = expand value rs := by
  induction rs with
  | nil => rfl
  | cons r rs ih =>
    by_cases hpos : 0 < r.length
    · rw [List.filter_cons_of_pos (by simpa using hpos), expand_cons, expand_cons, ih]
    · rw [List.filter_cons_of_neg (by simpa using hpos), expand_cons, ih,
        Nat.eq_zero_of_not_pos hpos]
      rfl

end Run

namespace Span

variable {low high : Int32}

lemma expand_clampRun (hbounds : low ≤ high) (r : Run (Ramp Int32)) :
    Run.expand Ramp.value (clampRun low high r) =
      ((List.range r.length).map r.payload.value).map (Scalar.clampTo low high) := by
  rw [List.map_map, clampRun]
  split
  case isTrue =>
    have hpixel (v : Int32) : (List.range 1).map (Ramp.value (.flat v)) = [v] :=
      congrArg (fun u => [u]) (Ramp.value_flat v 0)
    simp only [Run.expand, List.flatMap_map, hpixel]
    exact List.map_eq_flatMap.symm
  case isFalse hwraps =>
    rw [Run.expand_filter, Ramp.expand_clampRuns (Bool.eq_false_iff.mpr hwraps) hbounds]
    rfl

lemma toList_clamp (hbounds : low ≤ high) (s : Span Int32) :
    (s.clamp low high).toList = s.toList.map (Scalar.clampTo low high) := by
  cases s with
  | dense vs => rfl
  | sparse rs =>
    simp only [clamp, toList, Run.expand, List.flatMap_map, List.map_flatMap, List.map_map]
    rfl
  | linear rs =>
    simp only [clamp, toList, Run.expand]
    rw [List.flatMap_assoc, List.map_flatMap]
    exact congrArg List.flatten (List.map_congr_left fun r _ => expand_clampRun hbounds r)

end Span

end VideoRemap

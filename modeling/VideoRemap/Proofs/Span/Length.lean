import VideoRemap.Proofs.Span.Crossing
import VideoRemap.Proofs.Span.Merge

namespace VideoRemap

variable {α β : Type} [Scalar α]

namespace Run

lemma total_append (rs ss : List (Run β)) : total (rs ++ ss) = total rs + total ss := by
  induction rs with
  | nil => exact (Nat.zero_add _).symm
  | cons r rs ih => rw [List.cons_append, total, total, ih, Nat.add_assoc]

lemma total_map_const {γ : Type} (n : Nat) (payload : γ → β) (is : List γ) :
    total (is.map fun i => ⟨n, payload i⟩) = is.length * n := by
  induction is with
  | nil => exact (Nat.zero_mul n).symm
  | cons i is ih => rw [List.map_cons, total, ih, List.length_cons, Nat.succ_mul, Nat.add_comm]

lemma total_map_payload {γ : Type} (f : β → γ) (rs : List (Run β)) :
    total (rs.map fun r => ⟨r.length, f r.payload⟩) = total rs := by
  induction rs with
  | nil => rfl
  | cons r rs ih => rw [List.map_cons, total, total, ih]

lemma total_filter (rs : List (Run β)) : total (rs.filter fun r => 0 < r.length) = total rs := by
  induction rs with
  | nil => rfl
  | cons r rs ih =>
    simp only [List.filter_cons, total, decide_eq_true_eq]
    split
    · simp only [total, ih]
    · omega

end Run

lemma Ramp.total_threeRuns (r : Ramp α) {n enter leave : Nat} (near far : α) (h : enter ≤ leave)
    (hn : leave ≤ n) : Run.total (r.threeRuns n near far enter leave) = n := by
  simp only [threeRuns, Run.total]
  omega

lemma Ramp.total_clampRuns (r : Ramp α) (n : Nat) (low high : α) :
    Run.total (r.clampRuns n low high) = n := by
  simp only [clampRuns]
  split
  · exact Nat.add_zero n
  split
  all_goals
    exact r.total_threeRuns _ _ (Nat.le_max_right ..)
      (Nat.max_le.mpr ⟨Crossing.first_le .., Crossing.first_le ..⟩)

namespace Span

lemma length_toList (s : Span α) : s.toList.length = s.length := by
  cases s with
  | dense vs => rfl
  | sparse rs => exact Run.length_expand (fun v _ => v) rs
  | linear rs => exact Run.length_expand _ rs

omit [Scalar α] in
lemma length_constant (n : Nat) (v : α) : (constant n v).length = n := by
  unfold constant
  split
  case isTrue h => exact h.symm
  case isFalse => exact Nat.add_zero n

lemma length_columns (width height : Nat) :
    (columns width height : Span α).length = width * height := by
  unfold columns
  split
  case isTrue h => rcases h with rfl | rfl <;> simp [length_constant]
  case isFalse =>
    have htotal := Run.total_map_const width
      (fun _ => (⟨Scalar.ofIndex 0, Scalar.ofIndex 1⟩ : Ramp α)) (List.range height)
    rwa [List.map_const', List.length_range, Nat.mul_comm] at htotal

lemma length_rows (width height : Nat) : (rows width height : Span α).length = width * height := by
  unfold rows
  split
  case isTrue h => rcases h with rfl | rfl <;> simp [length_constant]
  case isFalse => rw [length, Run.total_map_const, List.length_range, Nat.mul_comm]

lemma length_zipDense (f : α → α → α) (a b : Span α) :
    (zipDense f a b).length = min a.length b.length := by
  rw [zipDense, length, List.length_zipWith, length_toList, length_toList]

lemma length_add (a b : Span α) : (a + b).length = min a.length b.length := by
  change (add a b).length = _
  cases a <;> cases b <;> first | exact length_zipDense .. | exact Run.total_zipWith ..

lemma length_mul (a b : Span α) : (a * b).length = min a.length b.length := by
  change (mul a b).length = _
  cases a <;> cases b <;> first | exact length_zipDense .. | exact Run.total_zipWith ..

lemma length_scale (k : α) (s : Span α) : (scale k s).length = s.length := by
  rw [scale, length_mul, length_constant, Nat.min_self]

lemma length_zipWith? {f : α → α → Option α} {a b s : Span α} (h : zipWith? f a b = some s) :
    s.length = min a.length b.length := by
  cases a <;> cases b
  case sparse.sparse rs ss =>
    obtain ⟨ts, hts, rfl⟩ := Option.map_eq_some_iff.mp h
    have hlen := congrArg List.length (Run.expand_zipWith? hts)
    rwa [List.length_map, List.length_zipWith, Run.length_expand, Run.length_expand,
      Run.length_expand] at hlen
  all_goals
    obtain ⟨vs, hvs, rfl⟩ := Option.map_eq_some_iff.mp h
    have hlen := congrArg List.length (Traversal.mapM_eq_some_iff.mp hvs)
    rw [List.length_map, List.length_map, List.length_zip, length_toList, length_toList] at hlen
    exact hlen.symm

lemma total_clampRun (low high : α) (r : Run (Ramp α)) : Run.total (clampRun low high r) = r.length := by
  unfold clampRun
  split
  · rw [Run.total_map_const, List.length_range, Nat.mul_one]
  · rw [Run.total_filter, Ramp.total_clampRuns]

lemma length_clamp (low high : α) (s : Span α) : (s.clamp low high).length = s.length := by
  cases s with
  | dense vs => exact List.length_map _
  | sparse rs => exact Run.total_map_payload _ rs
  | linear rs =>
    change Run.total (rs.flatMap (clampRun low high)) = Run.total rs
    induction rs with
    | nil => rfl
    | cons r rs ih => rw [List.flatMap_cons, Run.total_append, total_clampRun, ih, Run.total]

end Span

end VideoRemap

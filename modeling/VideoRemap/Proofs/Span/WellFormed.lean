import VideoRemap.Proofs.Span.Merge
import VideoRemap.Span.Clamp

namespace VideoRemap.Span

variable {α : Type}

lemma wellFormed_constant (n : Nat) (v : α) : (constant n v).WellFormed := by
  unfold constant
  split
  case isTrue => exact List.forall_mem_nil _
  case isFalse h =>
    intro r hr
    obtain rfl := List.mem_singleton.mp hr
    exact Nat.pos_of_ne_zero h

variable [Scalar α]

lemma wellFormed_columns (width height : Nat) : (columns width height : Span α).WellFormed := by
  unfold columns
  split
  case isTrue => exact wellFormed_constant 0 _
  case isFalse h =>
    intro r hr
    obtain ⟨-, rfl⟩ := List.mem_replicate.mp hr
    exact Nat.pos_of_ne_zero fun hw => h (Or.inl hw)

lemma wellFormed_rows (width height : Nat) : (rows width height : Span α).WellFormed := by
  unfold rows
  split
  case isTrue => exact wellFormed_constant 0 _
  case isFalse h =>
    intro r hr
    obtain ⟨i, -, rfl⟩ := List.mem_map.mp hr
    exact Nat.pos_of_ne_zero fun hw => h (Or.inl hw)

variable {a b s : Span α} (ha : a.WellFormed) (hb : b.WellFormed)

include ha hb in
lemma wellFormed_add : (a + b).WellFormed := by
  change (add a b).WellFormed
  cases a <;> cases b <;> first | exact Run.wellFormed_zipWith _ ha hb | trivial

include ha hb in
lemma wellFormed_mul : (a * b).WellFormed := by
  change (mul a b).WellFormed
  cases a <;> cases b <;> first | exact Run.wellFormed_zipWith _ ha hb | trivial

include ha in
lemma wellFormed_scale (k : α) : (scale k a).WellFormed :=
  wellFormed_mul ha (wellFormed_constant _ k)

include ha hb in
lemma wellFormed_zipWith? {f : α → α → Option α} (h : zipWith? f a b = some s) : s.WellFormed := by
  cases a <;> cases b
  case sparse.sparse =>
    obtain ⟨rs, hrs, rfl⟩ := Option.map_eq_some_iff.mp h
    exact Run.wellFormed_zipWith? hrs ha hb
  all_goals
    obtain ⟨vs, -, rfl⟩ := Option.map_eq_some_iff.mp h
    trivial

lemma wellFormed_clampRun (low high : α) (r : Run (Ramp α)) : Run.WellFormed (clampRun low high r) := by
  unfold clampRun
  split
  · intro r' hr
    obtain ⟨k, -, rfl⟩ := List.mem_map.mp hr
    exact Nat.one_pos
  · intro r' hr
    simpa using (List.mem_filter.mp hr).2

include ha in
lemma wellFormed_clamp (low high : α) : (a.clamp low high).WellFormed := by
  cases a with
  | dense vs => trivial
  | sparse rs =>
    intro r hr
    obtain ⟨r', hr', rfl⟩ := List.mem_map.mp hr
    exact ha r' hr'
  | linear rs =>
    intro r hr
    obtain ⟨r', -, hr'⟩ := List.mem_flatMap.mp hr
    exact wellFormed_clampRun low high r' r hr'

end VideoRemap.Span

import VideoRemap.Proofs.Span.Length

namespace VideoRemap

namespace Ramp

lemma value_eq (r : Ramp Int32) (k : Nat) : r.value k = r.start + r.step * Int32.ofNat k := rfl

lemma value_drop (r : Ramp Int32) (i k : Nat) : (r.drop i).value k = r.value (i + k) := by
  simp only [value_eq, drop, Int32.ofNat_add]
  grind

lemma value_add (r s : Ramp Int32) (k : Nat) : (r.add s).value k = r.value k + s.value k := by
  simp only [value_eq, add]
  grind

lemma value_shift (r : Ramp Int32) (c : Int32) (k : Nat) : (r.shift c).value k = r.value k + c := by
  simp only [value_eq, shift]
  grind

lemma value_scale (r : Ramp Int32) (c : Int32) (k : Nat) : (r.scale c).value k = r.value k * c := by
  simp only [value_eq, scale]
  grind

lemma value_flat (v : Int32) (k : Nat) : (flat v).value k = v := by
  simp only [value_eq, flat]
  change v + 0 * _ = v
  grind

end Ramp

namespace Span

lemma toList_add (a b : Span Int32) : (a + b).toList = List.zipWith (· + ·) a.toList b.toList := by
  change (add a b).toList = _
  cases a <;> cases b <;> simp only [add, toList]
  case linear.linear =>
    apply Run.expand_zipWith
    intro p k
    rw [Ramp.value_add, Piece.leftRamp, Piece.rightRamp, Ramp.value_drop, Ramp.value_drop]
  case linear.sparse =>
    apply Run.expand_zipWith
    intro p k
    rw [Ramp.value_shift, Piece.leftRamp, Ramp.value_drop]
  case sparse.linear =>
    apply Run.expand_zipWith
    intro p k
    rw [Ramp.value_shift, Piece.rightRamp, Ramp.value_drop, Int32.add_comm]
  case sparse.sparse =>
    apply Run.expand_zipWith
    intro p k
    rfl
  all_goals rfl

lemma toList_mul (a b : Span Int32) : (a * b).toList = List.zipWith (· * ·) a.toList b.toList := by
  change (mul a b).toList = _
  cases a <;> cases b <;> simp only [mul, toList]
  case linear.sparse =>
    apply Run.expand_zipWith
    intro p k
    rw [Ramp.value_scale, Piece.leftRamp, Ramp.value_drop]
  case sparse.linear =>
    apply Run.expand_zipWith
    intro p k
    rw [Ramp.value_scale, Piece.rightRamp, Ramp.value_drop, Int32.mul_comm]
  case sparse.sparse =>
    apply Run.expand_zipWith
    intro p k
    rfl
  all_goals rfl

lemma toList_constant (n : Nat) (v : Int32) : (constant n v).toList = List.replicate n v := by
  unfold constant
  split
  case isTrue h =>
    subst h
    rfl
  case isFalse h => simp [toList, Run.expand, List.map_const']

lemma toList_scale (k : Int32) (s : Span Int32) : (scale k s).toList = s.toList.map (· * k) := by
  rw [scale, toList_mul, toList_constant, ← length_toList]
  generalize s.toList = vs
  induction vs with
  | nil => rfl
  | cons v vs ih => rw [List.length_cons, List.replicate_succ, List.zipWith_cons_cons, ih, List.map_cons]

lemma map_range_mul {β : Type} (f : Nat → β) (width height : Nat) :
    (List.range (width * height)).map f = (List.range height).flatMap fun r =>
      (List.range width).map fun k => f (r * width + k) := by
  induction height with
  | zero => rfl
  | succ height ih =>
    rw [Nat.mul_succ, List.range_add, List.map_append, ih, List.range_succ, List.flatMap_append,
      List.flatMap_singleton, List.map_map, Nat.mul_comm width height]
    rfl

lemma toList_columns {width height : Nat} (hwidth : 0 < width) (hheight : 0 < height) :
    (columns width height : Span Int32).toList =
      (List.range (width * height)).map fun i => Int32.ofNat (i % width) := by
  have hsize : ¬ (width = 0 ∨ height = 0) := by omega
  have hramp (k : Nat) : Ramp.value ⟨Scalar.ofIndex 0, Scalar.ofIndex 1⟩ k = Int32.ofNat k := by
    change (0 : Int32) + 1 * Int32.ofNat k = _
    grind
  have hruns : List.replicate height (⟨width, ⟨Scalar.ofIndex 0, Scalar.ofIndex 1⟩⟩ : Run (Ramp Int32)) =
      (List.range height).map fun _ => ⟨width, ⟨Scalar.ofIndex 0, Scalar.ofIndex 1⟩⟩ := by
    rw [List.map_const', List.length_range]
  rw [columns, if_neg hsize, map_range_mul, toList, Run.expand, hruns, List.flatMap_map]
  refine congrArg List.flatten (List.map_congr_left fun r _ => List.map_congr_left fun k hk => ?_)
  rw [hramp, Nat.mul_comm, Nat.mul_add_mod, Nat.mod_eq_of_lt (List.mem_range.mp hk)]

lemma toList_rows {width height : Nat} (hwidth : 0 < width) (hheight : 0 < height) :
    (rows width height : Span Int32).toList =
      (List.range (width * height)).map fun i => Int32.ofNat (i / width) := by
  have hsize : ¬ (width = 0 ∨ height = 0) := by omega
  rw [rows, if_neg hsize, map_range_mul, toList, Run.expand, List.flatMap_map]
  refine congrArg List.flatten (List.map_congr_left fun r _ => List.map_congr_left fun k hk => ?_)
  have := List.mem_range.mp hk
  rw [Nat.mul_comm, Nat.mul_add_div hwidth, Nat.div_eq_of_lt this, Nat.add_zero]
  rfl

section

variable {a b s : Span Int32} {f : Int32 → Int32 → Option Int32}

lemma toList_zipWith? (h : zipWith? f a b = some s) :
    s.toList.map some = List.zipWith f a.toList b.toList := by
  have hdense (a b : Span Int32)
      (h : dense <$> ((a.toList.zip b.toList).mapM fun (u, v) => f u v) = some s) :
      s.toList.map some = List.zipWith f a.toList b.toList := by
    obtain ⟨vs, hvs, rfl⟩ := Option.map_eq_some_iff.mp h
    rw [← List.map_uncurry_zip_eq_zipWith]
    exact (Traversal.mapM_eq_some_iff.mp hvs).symm
  cases a <;> cases b
  case sparse.sparse rs ss =>
    obtain ⟨ts, hts, rfl⟩ := Option.map_eq_some_iff.mp h
    exact Run.expand_zipWith? hts
  all_goals exact hdense _ _ h

lemma none_mem_of_zipWith? (h : zipWith? f a b = none) (ha : a.WellFormed) (hb : b.WellFormed) :
    none ∈ List.zipWith f a.toList b.toList := by
  have hdense (a b : Span Int32)
      (h : dense <$> ((a.toList.zip b.toList).mapM fun (u, v) => f u v) = none) :
      none ∈ List.zipWith f a.toList b.toList := by
    obtain ⟨⟨u, v⟩, huv, hfail⟩ := Traversal.mapM_eq_none_iff.mp (Option.map_eq_none_iff.mp h)
    rw [← List.map_uncurry_zip_eq_zipWith]
    exact List.mem_map.mpr ⟨(u, v), huv, hfail⟩
  cases a <;> cases b
  case sparse.sparse rs ss => exact Run.none_mem_of_zipWith? (Option.map_eq_none_iff.mp h) ha hb
  all_goals exact hdense _ _ h

end

end Span

end VideoRemap

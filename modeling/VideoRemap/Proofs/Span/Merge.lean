import VideoRemap.Proofs.Traversal
import VideoRemap.Span.Algebra

namespace VideoRemap.Run

variable {β γ δ α₁ α₂ α : Type}

lemma expand_cons (value : β → Nat → α) (r : Run β) (rs : List (Run β)) :
    expand value (r :: rs) = (List.range' 0 r.length).map (value r.payload) ++ expand value rs := by
  rw [expand, List.flatMap_cons, List.range_eq_range']
  rfl

lemma length_expand (value : β → Nat → α) (runs : List (Run β)) :
    (expand value runs).length = total runs := by
  induction runs with
  | nil => rfl
  | cons r rs ih =>
    rw [expand_cons, List.length_append, List.length_map, List.length_range', ih]
    rfl

def headLength : List (Run β) → Nat
  | [] => 0
  | r :: _ => r.length

lemma range'_split (i : Nat) {n m : Nat} (h : n ≤ m) :
    List.range' i m = List.range' i n ++ List.range' (i + n) (m - n) := by
  rw [List.range'_append_1, Nat.add_sub_cancel' h]

lemma drop_expand (value : β → Nat → α) {r : Run β} {i : Nat} (h : i ≤ r.length) (rs : List (Run β)) :
    (expand value (r :: rs)).drop i =
      (List.range' i (r.length - i)).map (value r.payload) ++ expand value rs := by
  have hlen : ((List.range' 0 i).map (value r.payload)).length = i := by simp
  rw [expand_cons, range'_split 0 h, List.map_append, List.append_assoc, List.drop_left' hlen,
    Nat.zero_add]

lemma zipWith_range' (f : α₁ → α₂ → α) (v : Nat → α₁) (w : Nat → α₂) (i j n : Nat) :
    ((List.range n).map fun k => f (v (i + k)) (w (j + k))) =
      List.zipWith f ((List.range' i n).map v) ((List.range' j n).map w) :=
  List.ext_getElem (by simp) (by simp)

lemma flatMap_mergeFrom (value₁ : β → Nat → α₁) (value₂ : γ → Nat → α₂) (f : α₁ → α₂ → α)
    (a : List (Run β)) (i : Nat) (b : List (Run γ)) (j : Nat) (hi : i ≤ headLength a)
    (hj : j ≤ headLength b) :
    ((mergeFrom a i b j).flatMap fun p => (List.range p.length).map fun k =>
      f (value₁ p.left (p.leftSkip + k)) (value₂ p.right (p.rightSkip + k))) =
    List.zipWith f ((expand value₁ a).drop i) ((expand value₂ b).drop j) := by
  fun_induction mergeFrom a i b j with
  | case1 i j r rs s ss hlt ih =>
    simp only [headLength] at hi hj ih
    rw [List.flatMap_cons, ih (Nat.zero_le _) (by omega), drop_expand _ hi, drop_expand _ hj,
      drop_expand _ (by omega), List.drop_zero, range'_split j (Nat.le_of_lt hlt), List.map_append,
      List.append_assoc, List.zipWith_append (by simp), zipWith_range', Nat.sub_add_eq]
  | case2 i j r rs s ss hnlt hlt ih =>
    simp only [headLength] at hi hj ih
    rw [List.flatMap_cons, ih (by omega) (Nat.zero_le _), drop_expand _ hi, drop_expand _ hj,
      drop_expand _ (by omega), List.drop_zero, range'_split i (Nat.le_of_lt hlt), List.map_append,
      List.append_assoc, List.zipWith_append (by simp), zipWith_range', Nat.sub_add_eq]
  | case3 i j r rs s ss hnlt hnlt' ih =>
    have heq : s.length - j = r.length - i := by omega
    rw [List.flatMap_cons, ih (Nat.zero_le _) (Nat.zero_le _), drop_expand _ hi, drop_expand _ hj,
      List.drop_zero, List.drop_zero, heq, List.zipWith_append (by simp), zipWith_range']
  | case4 a i b j h =>
    cases a with
    | nil => simp [expand]
    | cons r rs =>
      cases b with
      | nil => simp [expand]
      | cons s ss => exact (h r rs s ss rfl rfl).elim

lemma expand_zipWith {value : δ → Nat → α} {value₁ : β → Nat → α₁} {value₂ : γ → Nat → α₂}
    {f : Piece β γ → δ} {g : α₁ → α₂ → α} (h : ∀ p k, value (f p) k =
      g (value₁ p.left (p.leftSkip + k)) (value₂ p.right (p.rightSkip + k)))
    (a : List (Run β)) (b : List (Run γ)) :
    expand value (zipWith f a b) = List.zipWith g (expand value₁ a) (expand value₂ b) := by
  have hmerge := flatMap_mergeFrom value₁ value₂ g a 0 b 0 (Nat.zero_le _) (Nat.zero_le _)
  rw [List.drop_zero, List.drop_zero] at hmerge
  rw [← hmerge, expand, zipWith, List.flatMap_map, merge]
  simp only [← h]

lemma total_zipWith (f : Piece β γ → δ) (a : List (Run β)) (b : List (Run γ)) :
    total (zipWith f a b) = min (total a) (total b) := by
  let unit {ι : Type} (_ : ι) (_ : Nat) : Unit := ()
  have h : expand unit (zipWith f a b) = List.zipWith (fun _ _ => ()) (expand unit a) (expand unit b) :=
    expand_zipWith (fun _ _ => rfl) a b
  rw [← length_expand unit, h, List.length_zipWith, length_expand, length_expand]

lemma wellFormed_cons {r : Run β} {rs : List (Run β)} :
    WellFormed (r :: rs) ↔ 0 < r.length ∧ WellFormed rs := List.forall_mem_cons

lemma length_pos_of_mem_mergeFrom {a : List (Run β)} {i : Nat} {b : List (Run γ)} {j : Nat}
    (ha : WellFormed a) (hb : WellFormed b) (hi : i = 0 ∨ i < headLength a)
    (hj : j = 0 ∨ j < headLength b) {p : Piece β γ} (hp : p ∈ mergeFrom a i b j) : 0 < p.length := by
  fun_induction mergeFrom a i b j with
  | case1 i j r rs s ss hlt ih =>
    obtain ⟨hr, hrs⟩ := wellFormed_cons.mp ha
    simp only [headLength] at hi hj
    rcases List.mem_cons.mp hp with rfl | hp
    · simp only
      omega
    · exact ih hrs hb (Or.inl rfl) (Or.inr (by simp only [headLength]; omega)) hp
  | case2 i j r rs s ss hnlt hlt ih =>
    obtain ⟨hs, hss⟩ := wellFormed_cons.mp hb
    simp only [headLength] at hi hj
    rcases List.mem_cons.mp hp with rfl | hp
    · simp only
      omega
    · exact ih ha hss (Or.inr (by simp only [headLength]; omega)) (Or.inl rfl) hp
  | case3 i j r rs s ss hnlt hnlt' ih =>
    obtain ⟨hr, hrs⟩ := wellFormed_cons.mp ha
    obtain ⟨hs, hss⟩ := wellFormed_cons.mp hb
    simp only [headLength] at hi hj
    rcases List.mem_cons.mp hp with rfl | hp
    · simp only
      omega
    · exact ih hrs hss (Or.inl rfl) (Or.inl rfl) hp
  | case4 a i b j h => exact nomatch hp

lemma wellFormed_zipWith {a : List (Run β)} {b : List (Run γ)} (f : Piece β γ → δ)
    (ha : WellFormed a) (hb : WellFormed b) : WellFormed (zipWith f a b) := by
  intro r hr
  obtain ⟨p, hp, rfl⟩ := List.mem_map.mp hr
  exact length_pos_of_mem_mergeFrom ha hb (Or.inl rfl) (Or.inl rfl) hp

section

variable {f : β → γ → Option δ} {a : List (Run β)} {b : List (Run γ)}

lemma flatMap_merge (f : β → γ → Option δ) (a : List (Run β)) (b : List (Run γ)) :
    ((merge a b).flatMap fun p => (List.range p.length).map fun _ => f p.left p.right) =
      List.zipWith f (expand (fun v _ => v) a) (expand (fun v _ => v) b) := by
  have h := flatMap_mergeFrom (fun (v : β) _ => v) (fun (v : γ) _ => v) f a 0 b 0 (Nat.zero_le _)
    (Nat.zero_le _)
  rwa [List.drop_zero, List.drop_zero] at h

lemma expand_zipWith? {rs : List (Run δ)} (h : zipWith? (fun p => f p.left p.right) a b = some rs) :
    (expand (fun v _ => v) rs).map some =
      List.zipWith f (expand (fun v _ => v) a) (expand (fun v _ => v) b) := by
  rw [← flatMap_merge]
  unfold zipWith? at h
  generalize merge a b = ps at h ⊢
  rw [Traversal.mapM_eq_some_iff] at h
  induction ps generalizing rs with
  | nil =>
    cases rs with
    | nil => rfl
    | cons r rs => simp at h
  | cons p ps ih =>
    cases rs with
    | nil => simp at h
    | cons r rs =>
      obtain ⟨hp, hps⟩ := List.cons_eq_cons.mp h
      obtain ⟨v, hv, rfl⟩ := Option.map_eq_some_iff.mp hp
      replace hv : f p.left p.right = some v := hv
      rw [expand_cons, List.map_append, ih hps, List.flatMap_cons, hv, List.range_eq_range']
      simp

lemma wellFormed_zipWith? {rs : List (Run δ)} (h : zipWith? (fun p => f p.left p.right) a b = some rs)
    (ha : WellFormed a) (hb : WellFormed b) : WellFormed rs := by
  intro r hr
  have hmem : some r ∈ (merge a b).map fun p => (⟨p.length, ·⟩) <$> f p.left p.right := by
    rw [Traversal.mapM_eq_some_iff.mp h]
    exact List.mem_map_of_mem hr
  obtain ⟨p, hp, heq⟩ := List.mem_map.mp hmem
  obtain ⟨v, -, rfl⟩ := Option.map_eq_some_iff.mp heq
  exact length_pos_of_mem_mergeFrom ha hb (Or.inl rfl) (Or.inl rfl) hp

lemma none_mem_of_zipWith? (h : zipWith? (fun p => f p.left p.right) a b = none)
    (ha : WellFormed a) (hb : WellFormed b) :
    none ∈ List.zipWith f (expand (fun v _ => v) a) (expand (fun v _ => v) b) := by
  obtain ⟨p, hp, hfail⟩ := Traversal.mapM_eq_none_iff.mp h
  have hpos := length_pos_of_mem_mergeFrom ha hb (Or.inl rfl) (Or.inl rfl) hp
  rw [← flatMap_merge, List.mem_flatMap]
  refine ⟨p, hp, List.mem_map.mpr ⟨0, List.mem_range.mpr hpos, ?_⟩⟩
  exact Option.map_eq_none_iff.mp hfail

end

end VideoRemap.Run

import VideoRemap.Proofs.Span.Layout
import VideoRemap.Proofs.Span.Lookup
import VideoRemap.Proofs.Span.Pointwise

namespace VideoRemap.Span

def Combines (op : Int32 → Int32 → Option Int32) (a b s : Span Int32) : Prop :=
  ∀ i u v, a.get? i = some u → b.get? i = some v → s.get? i = op u v

section

variable {a b s : Span Int32} {op : Int32 → Int32 → Option Int32}

lemma combines_of_toList (h : s.toList.map some = List.zipWith op a.toList b.toList) :
    Combines op a b s := by
  intro i u v hu hv
  rw [get?_eq_getElem?] at hu hv ⊢
  have hi : (s.toList.map some)[i]? = some (op u v) := by simp [h, List.getElem?_zipWith, hu, hv]
  rw [List.getElem?_map, Option.map_eq_some_iff] at hi
  obtain ⟨w, hw, heq⟩ := hi
  rw [hw, heq]

lemma combines_add (a b : Span Int32) : Combines (fun u v => some (u + v)) a b (a + b) :=
  combines_of_toList (by rw [toList_add, List.map_zipWith])

lemma combines_mul (a b : Span Int32) : Combines (fun u v => some (u * v)) a b (a * b) :=
  combines_of_toList (by rw [toList_mul, List.map_zipWith])

lemma get?_scale (k : Int32) (a : Span Int32) (i : Nat) :
    (scale k a).get? i = (a.get? i).map (· * k) := by
  rw [get?_eq_getElem?, get?_eq_getElem?, toList_scale, List.getElem?_map]

lemma combines_zipWith? (h : zipWith? op a b = some s) : Combines op a b s :=
  combines_of_toList (toList_zipWith? h)

lemma zipWith?_eq_none_iff (ha : a.WellFormed) (hb : b.WellFormed) (hlength : a.length = b.length) :
    zipWith? op a b = none ↔
      ∃ i u v, a.get? i = some u ∧ b.get? i = some v ∧ op u v = none := by
  constructor
  · intro h
    obtain ⟨i, hi⟩ := List.mem_iff_getElem?.mp (none_mem_of_zipWith? h ha hb)
    rw [List.getElem?_zipWith_eq_some] at hi
    obtain ⟨u, v, hu, hv, hfail⟩ := hi
    exact ⟨i, u, v, by rwa [get?_eq_getElem?], by rwa [get?_eq_getElem?], hfail⟩
  · rintro ⟨i, u, v, hu, hv, hfail⟩
    cases hs : zipWith? op a b with
    | none => rfl
    | some s =>
      have hi : i < s.length := by
        rw [length_zipWith? hs, ← hlength, Nat.min_self]
        exact lt_length_of_get? hu
      obtain ⟨w, hw⟩ := exists_get?_of_lt hi
      have hnone := combines_zipWith? hs i u v hu hv
      rw [hw, hfail] at hnone
      exact nomatch hnone

end

section

variable {α : Type} [Scalar α] {a b s : Span α} (ha : a.WellFormed) (hb : b.WellFormed)
  (hlength : a.length = b.length)

include ha in
lemma laidOut_scale (k : α) : (scale k a).LaidOut a.length a.encoding := by
  have h := (wellFormed_scale ha k).laidOut
  rwa [length_scale, encoding_scale] at h

include ha hb hlength

lemma laidOut_add : (a + b).LaidOut a.length (.promote .linear .linear a.encoding b.encoding) := by
  have h := (wellFormed_add ha hb).laidOut
  rwa [length_add, ← hlength, Nat.min_self, encoding_add] at h

lemma laidOut_mul : (a * b).LaidOut a.length (.promote .dense .linear a.encoding b.encoding) := by
  have h := (wellFormed_mul ha hb).laidOut
  rwa [length_mul, ← hlength, Nat.min_self, encoding_mul] at h

lemma laidOut_zipWith? {op : α → α → Option α} (hs : zipWith? op a b = some s) :
    s.LaidOut a.length (.promote .dense .dense a.encoding b.encoding) := by
  have h := (wellFormed_zipWith? ha hb hs).laidOut
  rwa [length_zipWith? hs, ← hlength, Nat.min_self, encoding_zipWith? hs] at h

end

theorem algebra_exact :
    (∀ (a b : Span Int32) (k : Int32) (op : Int32 → Int32 → Option Int32),
      a.WellFormed → b.WellFormed → a.length = b.length →
      Combines (fun u v => some (u + v)) a b (a + b) ∧
      Combines (fun u v => some (u * v)) a b (a * b) ∧
      (∀ i, (scale k a).get? i = (a.get? i).map (· * k)) ∧
      (∀ s, zipWith? op a b = some s → Combines op a b s) ∧
      (zipWith? op a b = none ↔
        ∃ i u v, a.get? i = some u ∧ b.get? i = some v ∧ op u v = none)) ∧
    ∀ (α : Type) [Scalar α] (a b : Span α) (k : α) (op : α → α → Option α),
      a.WellFormed → b.WellFormed → a.length = b.length →
      (a + b).LaidOut a.length (.promote .linear .linear a.encoding b.encoding) ∧
      (a * b).LaidOut a.length (.promote .dense .linear a.encoding b.encoding) ∧
      (scale k a).LaidOut a.length a.encoding ∧
      ∀ s, zipWith? op a b = some s →
        s.LaidOut a.length (.promote .dense .dense a.encoding b.encoding) := by
  constructor
  · intro a b k op ha hb hlength
    exact ⟨combines_add a b, combines_mul a b, get?_scale k a, fun s => combines_zipWith?,
      zipWith?_eq_none_iff ha hb hlength⟩
  · intro α _ a b k op ha hb hlength
    exact ⟨laidOut_add ha hb hlength, laidOut_mul ha hb hlength, laidOut_scale ha k,
      fun s => laidOut_zipWith? ha hb hlength⟩

theorem algebra_of_split_ramps :
    let a : Span Int32 := linear [⟨2, ⟨2147483647, 1⟩⟩, ⟨3, ⟨0, -2⟩⟩]
    let b : Span Int32 := sparse [⟨1, 5⟩, ⟨4, 7⟩]
    a.WellFormed ∧ b.WellFormed ∧ a.length = b.length ∧
    (a + b).get? 1 = some (-2147483641) ∧ (a + b).LaidOut 5 .linear ∧
    (a * b).get? 4 = some (-28) ∧ (a * b).LaidOut 5 .linear ∧
    (scale 2 a).get? 1 = some 0 ∧ (scale 2 a).LaidOut 5 .linear ∧
    (∃ s, zipWith? Scalar.remainder? a b = some s ∧ s.get? 3 = some (-2) ∧ s.LaidOut 5 .dense) ∧
    zipWith? Scalar.remainder? b a = none := by
  intro a b
  have ha : a.WellFormed := by simp [a, WellFormed, Run.WellFormed]
  have hb : b.WellFormed := by simp [b, WellFormed, Run.WellFormed]
  have hlength : a.length = b.length := rfl
  obtain ⟨hexact, hlayout⟩ := algebra_exact
  obtain ⟨hadd, hmul, hscale, hzip, -⟩ := hexact a b 2 Scalar.remainder? ha hb hlength
  obtain ⟨-, -, -, -, hnone⟩ := hexact b a 0 Scalar.remainder? hb ha hlength.symm
  obtain ⟨hadd', hmul', hscale', hzip'⟩ := hlayout Int32 a b 2 Scalar.remainder? ha hb hlength
  have hsome : zipWith? Scalar.remainder? a b = some _ := rfl
  exact ⟨ha, hb, hlength, hadd 1 _ _ rfl rfl, hadd', hmul 4 _ _ rfl rfl, hmul', hscale 1, hscale',
    ⟨_, hsome, hzip _ hsome 3 _ _ rfl rfl, hzip' _ hsome⟩, hnone.mpr ⟨2, 7, 0, rfl, rfl, rfl⟩⟩

end VideoRemap.Span

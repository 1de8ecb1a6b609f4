import VideoRemap.Proofs.Expr.Pointwise
import VideoRemap.Proofs.Expr.Undefined
import VideoRemap.Proofs.Span.Lookup

namespace VideoRemap

namespace Grid

variable {g : Grid Int32}

def Places (g : Grid Int32) (i : Nat) (p : Point) : Prop :=
  g.x.get? i = some p.x ∧ g.y.get? i = some p.y ∧ g.t = p.t

inductive Refuses (g : Grid Int32) : Expr → Prop
  | decimal {v} : Refuses g (.literal (.decimal v))
  | decimalFactor {k e} : Refuses g (.scale (.decimal k) e)
  | division {l r} : Refuses g (.quotient .divide l r)
  | noTerms : Refuses g (.sum [])
  | noFactors : Refuses g (.product [])
  | invertedClamp {low high e} : high < low → Refuses g (.clamp low high e)
  | zeroDivisor {op l r i p} : op ≠ .divide → g.Places i p → r.value? p = some 0 →
      Refuses g (.quotient op l r)

def points (g : Grid Int32) : List Point :=
  (g.x.toList.zip g.y.toList).map fun (x, y) => ⟨x, y, g.t⟩

lemma getElem?_points {i : Nat} {p : Point} : g.points[i]? = some p ↔ g.Places i p := by
  rw [points, Places, Span.get?_eq_getElem?, Span.get?_eq_getElem?, List.getElem?_map,
    Option.map_eq_some_iff]
  constructor
  · rintro ⟨⟨x, y⟩, h, rfl⟩
    rw [List.getElem?_zip_eq_some] at h
    exact ⟨h.1, h.2, rfl⟩
  · rintro ⟨hx, hy, ht⟩
    exact ⟨(p.x, p.y), List.getElem?_zip_eq_some.mpr ⟨hx, hy⟩, by rw [ht]⟩

lemma mem_points {p : Point} : p ∈ g.points ↔ ∃ i, g.Places i p := by
  simp only [List.mem_iff_getElem?, getElem?_points]

section

variable (hlength : g.y.length = g.x.length)

include hlength

lemma length_points : g.points.length = g.x.length := by
  rw [points, List.length_map, List.length_zip, Span.length_toList, Span.length_toList, hlength,
    Nat.min_self]

lemma points_ne_nil (hpos : 0 < g.x.length) : g.points ≠ [] :=
  List.ne_nil_of_length_pos (by rwa [length_points hlength])

lemma covers_points (hx : g.x.WellFormed) (hy : g.y.WellFormed) : g.Covers g.points := by
  have hlists : g.x.toList.length = g.y.toList.length := by
    rw [Span.length_toList, Span.length_toList, hlength]
  intro v
  cases v with
  | x =>
    refine ⟨hx, ?_⟩
    rw [points, List.map_map]
    exact (List.map_fst_zip (Nat.le_of_eq hlists)).symm
  | y =>
    refine ⟨hy, ?_⟩
    rw [points, List.map_map]
    exact (List.map_snd_zip (Nat.le_of_eq hlists.symm)).symm
  | t =>
    refine ⟨Span.wellFormed_constant _ _, ?_⟩
    rw [points, List.map_map]
    change (Span.constant g.pixelCount g.t).toList = (g.x.toList.zip g.y.toList).map fun _ => g.t
    rw [Span.toList_constant, List.map_const', List.length_zip, ← hlists, Nat.min_self,
      Span.length_toList]
    rfl

end

end Grid

namespace Expr

inductive Occurs (a : Expr) : Expr → Prop
  | root : Occurs a a
  | scale {k e} : Occurs a e → Occurs a (scale k e)
  | clamp {low high e} : Occurs a e → Occurs a (clamp low high e)
  | term {e es} : e ∈ es → Occurs a e → Occurs a (sum es)
  | factor {e es} : e ∈ es → Occurs a e → Occurs a (product es)
  | left {op l r} : Occurs a l → Occurs a (quotient op l r)
  | right {op l r} : Occurs a r → Occurs a (quotient op l r)

variable {g : Grid Int32} {p : Point} {a e : Expr}

lemma value?_division (l r : Expr) : (quotient .divide l r).value? p = none := by
  rw [value?]
  cases l.value? p <;> cases r.value? p <;> rfl

lemma value?_sum_of_mem {es : List Expr} (he : e ∈ es) (h : e.value? p = none) :
    (sum es).value? p = none := by
  cases es with
  | nil => exact nomatch he
  | cons e' es => exact (value?_sum_eq_none_iff e' es).mpr ⟨e, he, h⟩

lemma value?_product_of_mem {es : List Expr} (he : e ∈ es) (h : e.value? p = none) :
    (product es).value? p = none := by
  cases es with
  | nil => exact nomatch he
  | cons e' es => exact (value?_product_eq_none_iff e' es).mpr ⟨e, he, h⟩

lemma value?_quotient_of_left {op : Quotient} {l r : Expr} (h : l.value? p = none) :
    (quotient op l r).value? p = none := by
  rw [value?, h]
  rfl

lemma value?_quotient_of_right {op : Quotient} {l r : Expr} (h : r.value? p = none) :
    (quotient op l r).value? p = none := by
  rw [value?, h]
  cases l.value? p <;> rfl

lemma Occurs.value?_eq_none (h : a.Occurs e) (ha : a.value? p = none) : e.value? p = none := by
  induction h with
  | root => exact ha
  | @scale k e _ ih => cases k <;> simp [value?, ih]
  | clamp _ ih => simp [value?, ih]
  | term he _ ih => exact value?_sum_of_mem he ih
  | factor he _ ih => exact value?_product_of_mem he ih
  | left _ ih => exact value?_quotient_of_left ih
  | right _ ih => exact value?_quotient_of_right ih

lemma exists_value?_eq_none_of_refuses (hpoints : g.points ≠ []) (h : g.Refuses a) :
    ∃ p ∈ g.points, a.value? p = none := by
  obtain ⟨p₀, hp₀⟩ := List.exists_mem_of_ne_nil _ hpoints
  cases h with
  | decimal => exact ⟨p₀, hp₀, by rw [value?]⟩
  | decimalFactor => exact ⟨p₀, hp₀, by rw [value?]⟩
  | division => exact ⟨p₀, hp₀, value?_division _ _⟩
  | noTerms => exact ⟨p₀, hp₀, by rw [value?]⟩
  | noFactors => exact ⟨p₀, hp₀, by rw [value?]⟩
  | invertedClamp hbounds => exact ⟨p₀, hp₀, by rw [value?, if_pos hbounds]⟩
  | zeroDivisor hop hp hzero =>
    exact ⟨_, Grid.mem_points.mpr ⟨_, hp⟩,
      (value?_quotient_eq_none_iff hop _ _).mpr (Or.inr (Or.inr hzero))⟩

lemma exists_refused_of_value?_eq_none (hp : p ∈ g.points) (h : e.value? p = none) :
    ∃ a, a.Occurs e ∧ g.Refuses a := by
  induction e using Expr.induct with
  | var v => simp [value?] at h
  | literal k =>
    cases k with
    | int k => simp [value?] at h
    | decimal k => exact ⟨_, .root, .decimal⟩
  | scale k e ih =>
    cases k with
    | int k =>
      obtain ⟨a, ha, hrefused⟩ := ih (by simpa [value?] using h)
      exact ⟨a, .scale ha, hrefused⟩
    | decimal k => exact ⟨_, .root, .decimalFactor⟩
  | clamp low high e ih =>
    by_cases hbounds : high < low
    · exact ⟨_, .root, .invertedClamp hbounds⟩
    · obtain ⟨a, ha, hrefused⟩ := ih (by simpa [value?, hbounds] using h)
      exact ⟨a, .clamp ha, hrefused⟩
  | sum es ih =>
    cases es with
    | nil => exact ⟨_, .root, .noTerms⟩
    | cons e es =>
      obtain ⟨e', he', hnone⟩ := (value?_sum_eq_none_iff e es).mp h
      obtain ⟨a, ha, hrefused⟩ := ih e' he' hnone
      exact ⟨a, .term he' ha, hrefused⟩
  | product es ih =>
    cases es with
    | nil => exact ⟨_, .root, .noFactors⟩
    | cons e es =>
      obtain ⟨e', he', hnone⟩ := (value?_product_eq_none_iff e es).mp h
      obtain ⟨a, ha, hrefused⟩ := ih e' he' hnone
      exact ⟨a, .factor he' ha, hrefused⟩
  | quotient op l r ihl ihr =>
    by_cases hop : op = .divide
    · exact ⟨_, .root, hop ▸ .division⟩
    · rcases (value?_quotient_eq_none_iff hop l r).mp h with hl | hr | hzero
      · obtain ⟨a, ha, hrefused⟩ := ihl hl
        exact ⟨a, .left ha, hrefused⟩
      · obtain ⟨a, ha, hrefused⟩ := ihr hr
        exact ⟨a, .right ha, hrefused⟩
      · obtain ⟨i, hi⟩ := Grid.mem_points.mp hp
        exact ⟨_, .root, .zeroDivisor hop hi hzero⟩

lemma exists_refused_iff (hpoints : g.points ≠ []) :
    (∃ a, a.Occurs e ∧ g.Refuses a) ↔ ∃ p ∈ g.points, e.value? p = none := by
  constructor
  · rintro ⟨a, ha, hrefused⟩
    obtain ⟨p, hp, hnone⟩ := exists_value?_eq_none_of_refuses hpoints hrefused
    exact ⟨p, hp, ha.value?_eq_none hnone⟩
  · rintro ⟨p, hp, hnone⟩
    exact exists_refused_of_value?_eq_none hp hnone

lemma Computes.get?_eq {points : List Point} {value : Point → Option Int32} {s : Span Int32}
    (h : Computes points value (.ok s)) {i : Nat} {p : Point} (hp : points[i]? = some p) :
    s.get? i = value p := by
  have hi := congrArg (·[i]?) h.2
  simp only [List.getElem?_map, hp, Option.map_some, Option.map_eq_some_iff] at hi
  obtain ⟨v, hv, heq⟩ := hi
  rw [Span.get?_eq_getElem?, hv, heq]

lemma Computes.length_eq {points : List Point} {value : Point → Option Int32} {s : Span Int32}
    (h : Computes points value (.ok s)) : s.length = points.length := by
  have hlength := congrArg List.length h.2
  rwa [List.length_map, List.length_map, Span.length_toList] at hlength

section

variable (hx : g.x.WellFormed) (hy : g.y.WellFormed) (hlength : g.y.length = g.x.length)
  (hpos : 0 < g.x.length)

include hx hy hlength hpos

lemma evaluate_points (e : Expr) : Computes g.points (fun p => e.value? p) (e.evaluate g) :=
  e.evaluate_computes (Grid.covers_points hlength hx hy) (Grid.points_ne_nil hlength hpos)

theorem evaluate_exact (e : Expr) :
    ((∃ s, e.evaluate g = .ok s) ↔ ∀ a, a.Occurs e → ¬ g.Refuses a) ∧
    ∀ s, e.evaluate g = .ok s → s.WellFormed ∧ s.length = g.x.length ∧
      ∀ i p, g.Places i p → s.get? i = e.value? p := by
  have hcomputes := evaluate_points hx hy hlength hpos e
  have hrefused := exists_refused_iff (e := e) (Grid.points_ne_nil hlength hpos)
  cases hs : e.evaluate g with
  | error fault =>
    rw [hs] at hcomputes
    obtain ⟨a, ha, hbad⟩ := hrefused.mpr hcomputes
    refine ⟨⟨?_, fun h => (h a ha hbad).elim⟩, fun s h => nomatch h⟩
    rintro ⟨s, h⟩
    exact nomatch h
  | ok s =>
    rw [hs] at hcomputes
    refine ⟨⟨fun _ a ha hbad => ?_, fun _ => ⟨s, rfl⟩⟩, ?_⟩
    · obtain ⟨p, hp, hnone⟩ := hrefused.mp ⟨a, ha, hbad⟩
      obtain ⟨i, hi⟩ := List.mem_iff_getElem?.mp hp
      have hget := hcomputes.get?_eq hi
      obtain ⟨v, hv⟩ := Span.exists_get?_of_lt
        (hcomputes.length_eq ▸ (List.getElem?_eq_some_iff.mp hi).1)
      exact nomatch hv.symm.trans (hget.trans hnone)
    · rintro s' ⟨⟩
      exact ⟨hcomputes.1, hcomputes.length_eq.trans (Grid.length_points hlength),
        fun i p hp => hcomputes.get?_eq (Grid.getElem?_points.mpr hp)⟩

end

theorem evaluate_remainders :
    let g : Grid Int32 :=
      ⟨.linear [⟨3, ⟨0, 1⟩⟩, ⟨3, ⟨0, 1⟩⟩], .dense [0, 0, 0, 1, 1, 1], 7⟩
    let squares : Expr := .product [.var .x, .var .x, .var .t]
    let e : Expr := .quotient .remainder squares (.sum [.var .y, .literal (.int 2)])
    let e' : Expr := .quotient .remainder squares (.var .y)
    g.x.WellFormed ∧ g.y.WellFormed ∧ g.y.length = g.x.length ∧ 0 < g.x.length ∧
    (∀ a, a.Occurs e → ¬ g.Refuses a) ∧
    (∃ s, e.evaluate g = .ok s ∧ s.WellFormed ∧ s.length = 6 ∧ s.get? 5 = e.value? ⟨2, 1, 7⟩) ∧
    e.value? ⟨2, 1, 7⟩ = some 1 ∧ ¬ ∃ s, e'.evaluate g = .ok s := by
  intro g squares e e'
  have hx : g.x.WellFormed := by simp [g, Span.WellFormed, Run.WellFormed]
  have hpos : 0 < g.x.length := by decide
  have hs : e.evaluate g = .ok _ := rfl
  obtain ⟨hiff, hpixels⟩ := evaluate_exact hx trivial rfl hpos e
  obtain ⟨hiff', -⟩ := evaluate_exact hx trivial rfl hpos e'
  obtain ⟨hformed, hlength, hget⟩ := hpixels _ hs
  refine ⟨hx, trivial, rfl, hpos, hiff.mp ⟨_, hs⟩,
    ⟨_, hs, hformed, hlength, hget 5 ⟨2, 1, 7⟩ ⟨rfl, rfl, rfl⟩⟩, rfl, fun h => ?_⟩
  exact hiff'.mp h e' .root (.zeroDivisor (i := 0) (p := ⟨0, 0, 7⟩) (fun h => nomatch h) ⟨rfl, rfl, rfl⟩ rfl)

end Expr

end VideoRemap

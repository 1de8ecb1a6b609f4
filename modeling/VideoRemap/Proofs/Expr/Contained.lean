import VideoRemap.Proofs.Expr.Bound
import VideoRemap.Proofs.Expr.Ideal

/-!
Bounds with exact endpoints hold. Where no value is too large for 32 bits, the value of an expression
without alignment lies in its bound at every point of the box. With alignment it can lie below.
-/

namespace VideoRemap.Expr

variable {place : Variable → Int} {b : Box Int} {p : Point} {e : Expr} {es : List Expr} {us : List Int}

lemma ideals?_cons (h : ideals? place (e :: es) = some us) :
    ∃ u us', e.ideal? place = some u ∧ ideals? place es = some us' ∧ us = u :: us' := by
  simp only [ideals?, Option.bind_eq_bind, Option.bind_eq_some_iff] at h
  obtain ⟨u, hu, us', hus, hcons⟩ := h
  exact ⟨u, us', hu, hus, (Option.some.inj hcons).symm⟩

lemma quotient_ideal?_eq_some {op : Quotient} {l r : Expr} {u : Int}
    (h : (quotient op l r).ideal? place = some u) :
    ∃ v w, l.ideal? place = some v ∧ r.ideal? place = some w ∧ op.ideal? v w = some u := by
  simp only [ideal?, Option.bind_eq_bind, Option.bind_eq_some_iff] at h
  obtain ⟨v, hv, w, hw, hop⟩ := h
  exact ⟨v, w, hv, hw, hop⟩

section

variable {combine : Interval Int → Interval Int → Interval Int} {op : Int → Int → Int}
  (hcombine : ∀ {i j u v}, u ∈ i → v ∈ j → op u v ∈ combine i j)

include hcombine

lemma foldl_mem_boundOnto (hes : ∀ e ∈ es, ∀ u, e.ideal? place = some u → u ∈ e.bound b)
    (hus : ideals? place es = some us) {i : Interval Int} {u : Int} (hu : u ∈ i) :
    us.foldl op u ∈ boundOnto b combine i es := by
  induction es generalizing i u us with
  | nil =>
    cases hus
    exact hu
  | cons e es ih =>
    obtain ⟨v, us', hv, hus', rfl⟩ := ideals?_cons hus
    rw [boundOnto, List.foldl_cons]
    apply ih
    · exact fun e he => hes e (List.mem_cons_of_mem _ he)
    · exact hus'
    · exact hcombine hu (hes e List.mem_cons_self v hv)

lemma foldl_mem_boundOnto_cons {unit : Int} (hunit : ∀ u, op unit u = u)
    (hes : ∀ e' ∈ e :: es, ∀ u, e'.ideal? place = some u → u ∈ e'.bound b)
    (hus : ideals? place (e :: es) = some us) :
    us.foldl op unit ∈ boundOnto b combine (e.bound b) es := by
  obtain ⟨u, us', hu, hus', rfl⟩ := ideals?_cons hus
  rw [List.foldl_cons, hunit]
  apply foldl_mem_boundOnto hcombine
  · exact fun e' he' => hes e' (List.mem_cons_of_mem _ he')
  · exact hus'
  · exact hes e List.mem_cons_self u hu

end

lemma ideal?_mem_bound (hplace : ∀ v, place v ∈ b.coordinate v)
    (halign : ∀ l r, (quotient .align l r).Occurs e → ∀ u, l.ideal? place = some u → u ∈ l.bound b →
      ∀ v, (quotient .align l r).ideal? place = some v → v ∈ l.bound b)
    {u : Int} (hu : e.ideal? place = some u) : u ∈ e.bound b := by
  induction e using Expr.induct generalizing u with
  | var v =>
    cases hu
    exact hplace v
  | literal k =>
    cases k with
    | int k =>
      cases hu
      exact Interval.mem_point _
    | decimal k => cases hu
  | scale k e ih =>
    cases k with
    | int k =>
      rw [ideal?, Option.map_eq_some_iff] at hu
      obtain ⟨u, hu, rfl⟩ := hu
      rw [bound]
      exact Interval.mem_scale (ih (fun l r h => halign l r (.scale h)) hu) _
    | decimal k => cases hu
  | clamp low high e ih =>
    rw [ideal?] at hu
    split at hu
    · cases hu
    · rename_i hbounds
      obtain ⟨v, hv, rfl⟩ := Option.map_eq_some_iff.mp hu
      rw [Int32.lt_iff_toInt_lt] at hbounds
      rw [bound]
      exact Interval.mem_clamp (Int.not_lt.mp hbounds) (ih (fun l r h => halign l r (.clamp h)) hv)
  | sum es ih =>
    cases es with
    | nil => cases hu
    | cons e es =>
      have hall : ∀ e' ∈ e :: es, ∀ u, e'.ideal? place = some u → u ∈ e'.bound b :=
        fun e' he' u => ih e' he' fun l r h => halign l r (.term he' h)
      rw [ideal?_sum, Option.map_eq_some_iff] at hu
      obtain ⟨us, hus, rfl⟩ := hu
      rw [bound]
      exact foldl_mem_boundOnto_cons Interval.mem_add Int.zero_add hall hus
  | product es ih =>
    cases es with
    | nil => cases hu
    | cons e es =>
      have hall : ∀ e' ∈ e :: es, ∀ u, e'.ideal? place = some u → u ∈ e'.bound b :=
        fun e' he' u => ih e' he' fun l r h => halign l r (.factor he' h)
      rw [ideal?_product, Option.map_eq_some_iff] at hu
      obtain ⟨us, hus, rfl⟩ := hu
      rw [bound]
      exact foldl_mem_boundOnto_cons Interval.mem_mul Int.one_mul hall hus
  | quotient op l r ihl ihr =>
    obtain ⟨v, w, hv, hw, hop⟩ := quotient_ideal?_eq_some hu
    have hvl : v ∈ l.bound b := ihl (fun l' r' h => halign l' r' (.left h)) hv
    have hwr : w ∈ r.bound b := ihr (fun l' r' h => halign l' r' (.right h)) hw
    rw [bound]
    cases op with
    | divide => cases hop
    | remainder =>
      rw [Quotient.ideal?] at hop
      split at hop
      · cases hop
      · rename_i hzero
        cases hop
        exact Interval.mem_remainder hzero hvl hwr
    | align => exact halign l r .root v hv hvl u hu

lemma align_le {u k v : Int} (hu : 0 ≤ u) (hv : Quotient.ideal? .align u k = some v) : v ≤ u := by
  rw [Quotient.ideal?] at hv
  split at hv
  · cases hv
  · cases hv
    have := Int.tmod_nonneg k hu
    omega

lemma ideal?_mem_bound_of_aligned (hplace : ∀ v, place v ∈ b.coordinate v)
    (hnonneg : ∀ a : Expr, a.Occurs e → ∀ u, a.ideal? place = some u → 0 ≤ u)
    (haligned : ∀ l k, (quotient .align l k).Occurs e →
      ∀ u, (quotient .align l k).ideal? place = some u → (l.bound b).a ≤ u)
    {u : Int} (hu : e.ideal? place = some u) : u ∈ e.bound b := by
  apply ideal?_mem_bound hplace ?_ hu
  intro l k hoccurs v hv hmem w hw
  have hdividend : 0 ≤ v := hnonneg l ((Occurs.left .root).trans hoccurs) v hv
  obtain ⟨v', k', hv', -, hop⟩ := quotient_ideal?_eq_some hw
  obtain rfl : v' = v := Option.some.inj (hv'.symm.trans hv)
  exact ⟨haligned l k hoccurs w hw, Int.le_trans (align_le hdividend hop) hmem.2⟩

/-- The first terms of a sum and the first factors of a product may be too large for 32 bits; only what
a node comes to may not. Nothing is asked of the tree but that it has no alignment: with a decimal or a
division in it there is no value. -/
theorem evaluate_mem_bound (halign : ∀ l r, ¬ (quotient .align l r).Occurs e)
    (hbox : ∀ v, (p.coordinate v).toInt ∈ b.coordinate v)
    (hfits : e.Fits fun v => (p.coordinate v).toInt) :
    (∀ v, e.value? p = some v → v.toInt ∈ e.bound b) ∧
    ∀ (g : Grid Int32) (i : Nat) (s : Span Int32), g.x.WellFormed → g.y.WellFormed →
      g.y.length = g.x.length → g.Places i p → e.evaluate g = .ok s →
      ∃ v, s.get? i = some v ∧ v.toInt ∈ e.bound b := by
  have hvalue : ∀ v, e.value? p = some v → v.toInt ∈ e.bound b := by
    intro v hv
    rw [value?_eq_ideal? (fun _ => (Int32.ofInt_toInt _).symm) hfits, Option.map_eq_some_iff] at hv
    obtain ⟨u, hu, rfl⟩ := hv
    rw [hfits.toInt_ofInt hu]
    exact ideal?_mem_bound hbox (fun l r h => absurd h (halign l r)) hu
  refine ⟨hvalue, fun g i s hx hy hlength hp hs => ?_⟩
  have hpos : 0 < g.x.length := Nat.zero_lt_of_lt (Span.lt_length_of_get? hp.1)
  have hcomputes := evaluate_points hx hy hlength hpos e
  rw [hs] at hcomputes
  have hpoint : g.points[i]? = some p := Grid.getElem?_points.mpr hp
  obtain ⟨v, hv⟩ := Span.exists_get?_of_lt
    (hcomputes.length_eq ▸ (List.getElem?_eq_some_iff.mp hpoint).1)
  exact ⟨v, hv, hvalue v ((hcomputes.get?_eq hpoint).symm.trans hv)⟩

theorem evaluate_mem_bound_left_of_origin :
    let e : Expr := .sum [.quotient .remainder (.product [.var .x, .var .y, .var .t])
      (.sum [.var .y, .literal (.int 3)]), .scale (.int (-2)) (.clamp 0 7 (.var .t))]
    let b : Box Int := ⟨⟨-4, -1⟩, ⟨2, 2⟩, ⟨5, 9⟩⟩
    let g : Grid Int32 := ⟨.linear [⟨4, ⟨-4, 1⟩⟩], .dense [2, 2, 2, 2], 9⟩
    (∀ l r, ¬ (quotient .align l r).Occurs e) ∧
    (∀ v, ((⟨-3, 2, 9⟩ : Point).coordinate v).toInt ∈ b.coordinate v) ∧
    (e.Fits fun v => ((⟨-3, 2, 9⟩ : Point).coordinate v).toInt) ∧
    g.Places 1 ⟨-3, 2, 9⟩ ∧ e.value? ⟨-3, 2, 9⟩ = some (-18) ∧ -18 ∈ e.bound b ∧
    ∃ s, e.evaluate g = .ok s ∧ ∃ v, s.get? 1 = some v ∧ v.toInt ∈ e.bound b := by
  intro e b g
  have halign : ∀ l r, ¬ (quotient .align l r).Occurs e := by
    intro l r h
    have hmem := mem_nodes.mpr h
    simp [e, nodes, nodesOf] at hmem
  have hbox : ∀ v, ((⟨-3, 2, 9⟩ : Point).coordinate v).toInt ∈ b.coordinate v := by
    intro v
    cases v <;> decide
  have hfits : e.Fits fun v => ((⟨-3, 2, 9⟩ : Point).coordinate v).toInt := by decide +kernel
  have hplaces : g.Places 1 ⟨-3, 2, 9⟩ := ⟨rfl, rfl, rfl⟩
  have hx : g.x.WellFormed := by simp [g, Span.WellFormed, Run.WellFormed]
  have hs : e.evaluate g = .ok _ := rfl
  obtain ⟨hvalue, hpixels⟩ := evaluate_mem_bound halign hbox hfits
  exact ⟨halign, hbox, hfits, hplaces, rfl, hvalue (-18) rfl, _, hs,
    hpixels g 1 _ hx trivial rfl hplaces hs⟩

end VideoRemap.Expr

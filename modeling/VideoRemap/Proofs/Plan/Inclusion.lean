import VideoRemap.Proofs.Interval.Double
import VideoRemap.Proofs.Plan

/-!
Fewer output frames need nothing that more of them do not need. The bound of an exact expression
in a smaller box lies inside its bound in the larger one, and so do the frames it covers. Endpoints
that are doubles give the same frames as exact ones while no bound on the way leaves 53 bits.
-/

namespace VideoRemap

namespace Expr

mutual

/-- The bound of every part of the tree fits, and so does every sum and product of bounds on the way to
one. -/
def boundFits (b : Box Int) : Expr → Bool
  | var v => decide (b.coordinate v).Fits
  | literal _ => true
  | scale k e => e.boundFits b && decide ((scale k e).bound b).Fits
  | clamp _ _ e => e.boundFits b
  | sum [] => true
  | sum (e :: es) => e.boundFits b && fitsOnto b Interval.add (e.bound b) es
  | product [] => true
  | product (e :: es) => e.boundFits b && fitsOnto b Interval.mul (e.bound b) es
  | quotient _ l r => l.boundFits b && r.boundFits b

def fitsOnto (b : Box Int) (combine : Interval Int → Interval Int → Interval Int) (acc : Interval Int) :
    List Expr → Bool
  | [] => true
  | e :: es => e.boundFits b && decide (combine acc (e.bound b)).Fits &&
      fitsOnto b combine (combine acc (e.bound b)) es

end

section

variable {b c : Box Int}

lemma fitsOnto_of_nested {combine : Interval Int → Interval Int → Interval Int}
    (hcombine : ∀ {i i' j j' : Interval Int}, i.Nested i' → j.Nested j' →
      (combine i j).Nested (combine i' j'))
    {es : List Expr} (hes : ∀ e ∈ es, (e.bound b).Nested (e.bound c))
    (hfits : ∀ e ∈ es, e.boundFits c = true → e.boundFits b = true) {i j : Interval Int}
    (h : i.Nested j) (hc : fitsOnto c combine j es = true) : fitsOnto b combine i es = true := by
  induction es generalizing i j with
  | nil => rfl
  | cons e es ih =>
    rw [fitsOnto, Bool.and_eq_true, Bool.and_eq_true, decide_eq_true_iff] at hc ⊢
    obtain ⟨⟨he, hcombined⟩, hrest⟩ := hc
    have hnested := hcombine h (hes e List.mem_cons_self)
    refine ⟨⟨hfits e List.mem_cons_self he, hnested.fits hcombined⟩, ?_⟩
    apply ih
    · exact fun e he => hes e (List.mem_cons_of_mem _ he)
    · exact fun e he => hfits e (List.mem_cons_of_mem _ he)
    · exact hnested
    · exact hrest

lemma fitsOnto_cons_of_nested {combine : Interval Int → Interval Int → Interval Int}
    (hcombine : ∀ {i i' j j' : Interval Int}, i.Nested i' → j.Nested j' →
      (combine i j).Nested (combine i' j'))
    {e : Expr} {es : List Expr} (hall : ∀ e' ∈ e :: es, (e'.bound b).Nested (e'.bound c))
    (hfits : ∀ e' ∈ e :: es, e'.boundFits c = true → e'.boundFits b = true)
    (hc : e.boundFits c = true ∧ fitsOnto c combine (e.bound c) es = true) :
    e.boundFits b = true ∧ fitsOnto b combine (e.bound b) es = true := by
  refine ⟨hfits e List.mem_cons_self hc.1, ?_⟩
  apply fitsOnto_of_nested hcombine
  · exact fun e' he' => hall e' (List.mem_cons_of_mem _ he')
  · exact fun e' he' => hfits e' (List.mem_cons_of_mem _ he')
  · exact hall e List.mem_cons_self
  · exact hc.2

lemma boundFits_of_nested (h : b.Nested c) {e : Expr} (he : e.isExact = true)
    (hc : e.boundFits c = true) : e.boundFits b = true := by
  induction e using Expr.induct with
  | var v =>
    rw [boundFits, decide_eq_true_iff] at hc ⊢
    exact (h v).fits hc
  | literal k => rw [boundFits]
  | scale k e ih =>
    have hnested := bound_nested h he
    cases k with
    | int k =>
      rw [boundFits, Bool.and_eq_true, decide_eq_true_iff] at hc ⊢
      exact ⟨ih he hc.1, hnested.fits hc.2⟩
    | decimal k => simp [isExact] at he
  | clamp low high e ih =>
    rw [boundFits] at hc ⊢
    exact ih he hc
  | sum es ih =>
    have hexact := allExact_iff.mp he
    cases es with
    | nil => rw [boundFits]
    | cons e es =>
      rw [boundFits, Bool.and_eq_true] at hc ⊢
      apply fitsOnto_cons_of_nested Interval.Nested.add
      · exact fun e' he' => bound_nested h (hexact e' he')
      · exact fun e' he' => ih e' he' (hexact e' he')
      · exact hc
  | product es ih =>
    have hexact := allExact_iff.mp he
    cases es with
    | nil => rw [boundFits]
    | cons e es =>
      rw [boundFits, Bool.and_eq_true] at hc ⊢
      apply fitsOnto_cons_of_nested Interval.Nested.mul
      · exact fun e' he' => bound_nested h (hexact e' he')
      · exact fun e' he' => ih e' he' (hexact e' he')
      · exact hc
  | quotient op l r ihl ihr =>
    obtain ⟨-, hl, hr⟩ := isExact_quotient he
    rw [boundFits, Bool.and_eq_true] at hc ⊢
    exact ⟨ihl hl hc.1, ihr hr hc.2⟩

end

section

variable {b : Box Int} {c : Box Float}

lemma boundOnto_holds {combine : Interval Int → Interval Int → Interval Int}
    {combine' : Interval Float → Interval Float → Interval Float}
    (hcombine : ∀ {i i' : Interval Float} {j j' : Interval Int}, i.Holds j → i'.Holds j' →
      (combine j j').Fits → (combine' i i').Holds (combine j j'))
    {es : List Expr} (hes : ∀ e ∈ es, e.boundFits b = true → (e.bound c).Holds (e.bound b))
    {i : Interval Float} {j : Interval Int} (h : i.Holds j) (hfits : fitsOnto b combine j es = true) :
    (boundOnto c combine' i es).Holds (boundOnto b combine j es) := by
  induction es generalizing i j with
  | nil => exact h
  | cons e es ih =>
    rw [fitsOnto, Bool.and_eq_true, Bool.and_eq_true, decide_eq_true_iff] at hfits
    obtain ⟨⟨he, hcombined⟩, hrest⟩ := hfits
    rw [boundOnto, boundOnto]
    apply ih
    · exact fun e he => hes e (List.mem_cons_of_mem _ he)
    · exact hcombine h (hes e List.mem_cons_self he) hcombined
    · exact hrest

lemma boundOnto_cons_holds {combine : Interval Int → Interval Int → Interval Int}
    {combine' : Interval Float → Interval Float → Interval Float}
    (hcombine : ∀ {i i' : Interval Float} {j j' : Interval Int}, i.Holds j → i'.Holds j' →
      (combine j j').Fits → (combine' i i').Holds (combine j j'))
    {e : Expr} {es : List Expr}
    (hall : ∀ e' ∈ e :: es, e'.boundFits b = true → (e'.bound c).Holds (e'.bound b))
    (hfits : e.boundFits b = true ∧ fitsOnto b combine (e.bound b) es = true) :
    (boundOnto c combine' (e.bound c) es).Holds (boundOnto b combine (e.bound b) es) := by
  apply boundOnto_holds hcombine
  · exact fun e' he' => hall e' (List.mem_cons_of_mem _ he')
  · exact hall e List.mem_cons_self hfits.1
  · exact hfits.2

lemma int32_fits (k : Int32) : k.toInt.natAbs + 1 < 2 ^ 53 := by
  have hlow := k.le_toInt
  have hhigh := k.toInt_lt
  omega

lemma bound_holds (hbox : ∀ v, (b.coordinate v).Fits → (c.coordinate v).Holds (b.coordinate v))
    {e : Expr} (he : e.isExact = true) (hfits : e.boundFits b = true) :
    (e.bound c).Holds (e.bound b) := by
  have hint (k : Int32) : Number.IsInt (Endpoint.ofInt k.toInt : Float) k.toInt :=
    Number.IsInt.ofInt (Nat.lt_of_succ_lt (int32_fits k))
  induction e using Expr.induct with
  | var v =>
    rw [boundFits, decide_eq_true_iff] at hfits
    exact hbox v hfits
  | literal k =>
    cases k with
    | int k => exact Interval.holds_point (int32_fits k)
    | decimal k => simp [isExact] at he
  | scale k e ih =>
    rw [boundFits, Bool.and_eq_true, decide_eq_true_iff] at hfits
    cases k with
    | int k => exact (ih he hfits.1).scale (hint k) hfits.2
    | decimal k => simp [isExact] at he
  | clamp low high e ih =>
    rw [boundFits] at hfits
    exact (ih he hfits).clamp (hint low) (hint high) (int32_fits low) (int32_fits high)
  | sum es ih =>
    have hexact := allExact_iff.mp he
    cases es with
    | nil => exact Interval.holds_point (k := 0) (by decide)
    | cons e es =>
      rw [boundFits, Bool.and_eq_true] at hfits
      rw [bound, bound]
      apply boundOnto_cons_holds Interval.Holds.add
      · exact fun e' he' => ih e' he' (hexact e' he')
      · exact hfits
  | product es ih =>
    have hexact := allExact_iff.mp he
    cases es with
    | nil => exact Interval.holds_point (k := 1) (by decide)
    | cons e es =>
      rw [boundFits, Bool.and_eq_true] at hfits
      rw [bound, bound]
      apply boundOnto_cons_holds Interval.Holds.mul
      · exact fun e' he' => ih e' he' (hexact e' he')
      · exact hfits
  | quotient op l r ihl ihr =>
    obtain ⟨hop, hl, hr⟩ := isExact_quotient he
    rw [boundFits, Bool.and_eq_true] at hfits
    cases op with
    | divide => exact absurd rfl hop
    | remainder => exact (ihl hl hfits.1).remainder (ihr hr hfits.2)
    | align => exact ihl hl hfits.1

end

end Expr

namespace Plan

lemma box_holds (width height : Nat) (r : FrameRange) (v : Variable)
    (hfits : ((box width height r : Box Int).coordinate v).Fits) :
    ((box width height r : Box Float).coordinate v).Holds ((box width height r).coordinate v) := by
  have hbetween {a b : Nat} (h : (Interval.between (a : Int) b).Fits) :
      (Interval.between (Endpoint.ofInt a : Float) (Endpoint.ofInt b)).Holds (.between (a : Int) b) := by
    have hends : (a : Int).natAbs + 1 < 2 ^ 53 ∧ (b : Int).natAbs + 1 < 2 ^ 53 := by
      unfold Interval.between at h
      split at h
      · exact h
      · exact h.symm
    exact Interval.holds_between (Number.IsInt.ofInt (Nat.lt_of_succ_lt hends.1))
      (Number.IsInt.ofInt (Nat.lt_of_succ_lt hends.2)) hends.1 hends.2
  cases v with
  | x => exact hbetween (a := 0) hfits
  | y => exact hbetween (a := 0) hfits
  | t => exact hbetween hfits

lemma cover_float {e : Expr} (he : e.isExact = true) {width height frameCount : Nat} (budget batch : Nat)
    (hcount : frameCount < 2 ^ 53) {r : FrameRange} (hfits : e.boundFits (box width height r) = true) :
    (ofExpr Float e width height frameCount budget batch).cover r =
      (ofExpr Int e width height frameCount budget batch).cover r :=
  (Expr.bound_holds (box_holds width height r) he hfits).cover hcount

/-- An exact expression has a bound in order, inside its bound in any larger box. So a range of output
frames covers no source frame that a longer one around it does not cover, and the plan that runs covers
what exact endpoints cover, unless some bound of the longer range is too large for doubles. -/
theorem inclusion_monotone {e : Expr} (he : e.isExact = true) :
    (∀ b c : Box Int, b.Nested c → (e.bound b).Nested (e.bound c)) ∧
      ∀ (width height frameCount budget batch : Nat) (r r' : FrameRange), r.Inside r' →
        let exact := ofExpr Int e width height frameCount budget batch
        let running := ofExpr Float e width height frameCount budget batch
        (exact.cover r).Nested (exact.cover r') ∧
          (frameCount < 2 ^ 53 → e.boundFits (box width height r') = true →
            running.cover r = exact.cover r ∧ running.cover r' = exact.cover r') := by
  refine ⟨fun b c h => Expr.bound_nested h he, ?_⟩
  intro width height frameCount budget batch r r' hinside exact running
  have hbox := box_nested width height hinside
  refine ⟨(Expr.bound_nested hbox he).cover frameCount, fun hcount hfits => ⟨?_, ?_⟩⟩
  · exact cover_float he budget batch hcount (Expr.boundFits_of_nested hbox he hfits)
  · exact cover_float he budget batch hcount hfits

theorem inclusion_monotone_of_loop :
    let e : Expr := .sum [.literal (.int 10), .quotient .remainder (.var .t) (.literal (.int 8)),
      .scale (.int (-2)) (.quotient .align (.var .y) (.literal (.int 1)))]
    let p := ofExpr Float e 4 3 100 10 4
    e.isExact = true ∧ e.boundFits (box 4 3 ⟨0, 20⟩) = true ∧
      (e.bound (box 4 3 ⟨3, 5⟩)).Nested (e.bound (box 4 3 ⟨0, 20⟩)) ∧
      p.cover ⟨3, 5⟩ = ⟨9, 15⟩ ∧ p.cover ⟨0, 20⟩ = ⟨6, 19⟩ := by
  intro e p
  have hinside : (⟨3, 5⟩ : FrameRange).Inside ⟨0, 20⟩ := ⟨by decide, by decide, by decide⟩
  have hfits : e.boundFits (box 4 3 ⟨0, 20⟩) = true := by decide
  obtain ⟨hbound, hcover⟩ := inclusion_monotone (e := e) (by decide)
  obtain ⟨-, hrunning⟩ := hcover 4 3 100 10 4 ⟨3, 5⟩ ⟨0, 20⟩ hinside
  obtain ⟨hfew, hmany⟩ := hrunning (by decide) hfits
  refine ⟨by decide, hfits, hbound _ _ (box_nested 4 3 hinside), ?_, ?_⟩
  · exact hfew.trans (by decide)
  · exact hmany.trans (by decide)

end Plan

end VideoRemap

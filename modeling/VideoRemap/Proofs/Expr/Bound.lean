import VideoRemap.Expr.Bound
import VideoRemap.Proofs.Expr.Undefined
import VideoRemap.Proofs.Interval

namespace VideoRemap

def Box.Nested (b c : Box Int) : Prop := ∀ v, (b.coordinate v).Nested (c.coordinate v)

namespace Expr

variable {b c : Box Int}

lemma boundOnto_nested {combine : Interval Int → Interval Int → Interval Int}
    (hcombine : ∀ {i i' j j' : Interval Int}, i.Nested i' → j.Nested j' →
      (combine i j).Nested (combine i' j'))
    {es : List Expr} (hes : ∀ e ∈ es, (e.bound b).Nested (e.bound c)) {i j : Interval Int}
    (h : i.Nested j) : (boundOnto b combine i es).Nested (boundOnto c combine j es) := by
  induction es generalizing i j with
  | nil => exact h
  | cons e es ih =>
    rw [boundOnto, boundOnto]
    apply ih
    · exact fun e he => hes e (List.mem_cons_of_mem _ he)
    · exact hcombine h (hes e List.mem_cons_self)

lemma boundOnto_cons_nested {combine : Interval Int → Interval Int → Interval Int}
    (hcombine : ∀ {i i' j j' : Interval Int}, i.Nested i' → j.Nested j' →
      (combine i j).Nested (combine i' j'))
    {e : Expr} {es : List Expr} (hall : ∀ e' ∈ e :: es, (e'.bound b).Nested (e'.bound c)) :
    (boundOnto b combine (e.bound b) es).Nested (boundOnto c combine (e.bound c) es) := by
  apply boundOnto_nested hcombine
  · exact fun e' he' => hall e' (List.mem_cons_of_mem _ he')
  · exact hall e List.mem_cons_self

theorem bound_nested (h : b.Nested c) {e : Expr} (he : e.isExact = true) :
    (e.bound b).Nested (e.bound c) := by
  induction e using Expr.induct with
  | var v => exact h v
  | literal k =>
    rw [bound, bound]
    exact Interval.nested_point _
  | scale k e ih =>
    cases k with
    | int k =>
      rw [bound, bound]
      exact (ih he).scale _
    | decimal k => simp [isExact] at he
  | clamp low high e ih =>
    rw [bound, bound]
    exact (ih he).clamp _ _
  | sum es ih =>
    have hexact := allExact_iff.mp he
    cases es with
    | nil =>
      rw [bound, bound]
      exact Interval.nested_point _
    | cons e es =>
      rw [bound, bound]
      exact boundOnto_cons_nested Interval.Nested.add fun e' he' => ih e' he' (hexact e' he')
  | product es ih =>
    have hexact := allExact_iff.mp he
    cases es with
    | nil =>
      rw [bound, bound]
      exact Interval.nested_point _
    | cons e es =>
      rw [bound, bound]
      exact boundOnto_cons_nested Interval.Nested.mul fun e' he' => ih e' he' (hexact e' he')
  | quotient op l r ihl ihr =>
    obtain ⟨hop, hl, hr⟩ := isExact_quotient he
    rw [bound, bound]
    cases op with
    | divide => exact absurd rfl hop
    | remainder => exact (ihl hl).remainder (ihr hr)
    | align => exact ihl hl

end Expr

end VideoRemap

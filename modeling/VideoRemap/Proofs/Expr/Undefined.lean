import VideoRemap.Expr.Value
import VideoRemap.Proofs.Expr.Evaluate

namespace VideoRemap.Expr

inductive Undefined (p : Point) : Expr → Prop
  | invertedClamp {low high e} : high < low → Undefined p (clamp low high e)
  | noTerms : Undefined p (sum [])
  | noFactors : Undefined p (product [])
  | zeroDivisor {op l r} : op ≠ .divide → r.value? p = some 0 → Undefined p (quotient op l r)
  | scale {k e} : Undefined p e → Undefined p (scale k e)
  | clamp {low high e} : Undefined p e → Undefined p (clamp low high e)
  | term {e es} : e ∈ es → Undefined p e → Undefined p (sum es)
  | factor {e es} : e ∈ es → Undefined p e → Undefined p (product es)
  | left {op l r} : Undefined p l → Undefined p (quotient op l r)
  | right {op l r} : Undefined p r → Undefined p (quotient op l r)

variable {p : Point}

lemma allExact_iff {es : List Expr} : allExact es = true ↔ ∀ e ∈ es, e.isExact = true := by
  induction es with
  | nil => simp [allExact]
  | cons e es ih => simp [allExact, ih]

lemma values?_eq_none_iff {es : List Expr} : values? p es = none ↔ ∃ e ∈ es, e.value? p = none := by
  induction es with
  | nil => simp [values?]
  | cons e es ih =>
    rw [values?]
    cases he : e.value? p with
    | none => simp [he]
    | some v => cases hes : values? p es <;> simp [he, ← ih, hes]

lemma value?_sum_eq_none_iff (e : Expr) (es : List Expr) :
    (sum (e :: es)).value? p = none ↔ ∃ e' ∈ e :: es, e'.value? p = none := by
  rw [value?, Option.map_eq_none_iff, values?_eq_none_iff]
  simp

lemma value?_product_eq_none_iff (e : Expr) (es : List Expr) :
    (product (e :: es)).value? p = none ↔ ∃ e' ∈ e :: es, e'.value? p = none := by
  rw [value?, Option.map_eq_none_iff, values?_eq_none_iff]
  simp

lemma quotient_value?_eq_none_iff {op : Quotient} (h : op ≠ .divide) (a b : Int32) :
    op.value? a b = none ↔ b = 0 := by
  cases op with
  | divide => exact absurd rfl h
  | remainder => simp [Quotient.value?]
  | align => simp [Quotient.value?]

lemma value?_quotient_eq_none_iff {op : Quotient} (hop : op ≠ .divide) (l r : Expr) :
    (quotient op l r).value? p = none ↔
      l.value? p = none ∨ r.value? p = none ∨ r.value? p = some 0 := by
  rw [value?]
  cases l.value? p with
  | none => simp
  | some a =>
    cases r.value? p with
    | none => simp
    | some b => simp [quotient_value?_eq_none_iff hop]

lemma isExact_quotient {op : Quotient} {l r : Expr} (h : (quotient op l r).isExact = true) :
    op ≠ .divide ∧ l.isExact = true ∧ r.isExact = true := by
  cases op with
  | divide => simp [isExact] at h
  | remainder => simpa [isExact] using h
  | align => simpa [isExact] using h

theorem value?_eq_none_iff {e : Expr} (h : e.isExact = true) : e.value? p = none ↔ e.Undefined p := by
  induction e using Expr.induct with
  | var v =>
    constructor
    · intro hnone
      simp [value?] at hnone
    · rintro ⟨⟩
  | literal k =>
    cases k with
    | int k =>
      constructor
      · intro hnone
        simp [value?] at hnone
      · rintro ⟨⟩
    | decimal k => simp [isExact] at h
  | scale k e ih =>
    cases k with
    | int k =>
      rw [value?, Option.map_eq_none_iff, ih h]
      constructor
      · exact .scale
      · rintro ⟨⟩
        assumption
    | decimal k => simp [isExact] at h
  | clamp low high e ih =>
    rw [value?]
    by_cases hbounds : high < low
    · rw [if_pos hbounds]
      exact ⟨fun _ => .invertedClamp hbounds, fun _ => rfl⟩
    · rw [if_neg hbounds, Option.map_eq_none_iff, ih h]
      constructor
      · exact .clamp
      · intro hundefined
        cases hundefined with
        | invertedClamp hlt => exact absurd hlt hbounds
        | clamp he => exact he
  | sum es ih =>
    cases es with
    | nil => exact ⟨fun _ => .noTerms, fun _ => by rw [value?]⟩
    | cons e es =>
      have hexact := allExact_iff.mp h
      rw [value?_sum_eq_none_iff]
      constructor
      · rintro ⟨e', he', hnone⟩
        exact .term he' ((ih e' he' (hexact e' he')).mp hnone)
      · intro hundefined
        cases hundefined with
        | term he' hundefined => exact ⟨_, he', (ih _ he' (hexact _ he')).mpr hundefined⟩
  | product es ih =>
    cases es with
    | nil => exact ⟨fun _ => .noFactors, fun _ => by rw [value?]⟩
    | cons e es =>
      have hexact := allExact_iff.mp h
      rw [value?_product_eq_none_iff]
      constructor
      · rintro ⟨e', he', hnone⟩
        exact .factor he' ((ih e' he' (hexact e' he')).mp hnone)
      · intro hundefined
        cases hundefined with
        | factor he' hundefined => exact ⟨_, he', (ih _ he' (hexact _ he')).mpr hundefined⟩
  | quotient op l r ihl ihr =>
    obtain ⟨hop, hl, hr⟩ := isExact_quotient h
    rw [value?_quotient_eq_none_iff hop, ihl hl, ihr hr]
    constructor
    · rintro (hl | hr | hzero)
      · exact .left hl
      · exact .right hr
      · exact .zeroDivisor hop hzero
    · intro hundefined
      cases hundefined with
      | zeroDivisor _ hzero => exact Or.inr (Or.inr hzero)
      | left hl => exact Or.inl hl
      | right hr => exact Or.inr (Or.inl hr)

end VideoRemap.Expr

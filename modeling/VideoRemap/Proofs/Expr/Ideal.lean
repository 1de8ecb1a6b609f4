import VideoRemap.Expr.Ideal
import VideoRemap.Proofs.Expr.Exact

/-!
Expressions in 32 bits and in integers of any size. As long as the value of every node fits into 32
bits the two agree, also where a sum or a product wraps around on its way.
-/

namespace VideoRemap.Expr

mutual

def nodes : Expr → List Expr
  | var v => [var v]
  | literal k => [literal k]
  | scale k e => scale k e :: e.nodes
  | clamp low high e => clamp low high e :: e.nodes
  | sum es => sum es :: nodesOf es
  | product es => product es :: nodesOf es
  | quotient op l r => quotient op l r :: (l.nodes ++ r.nodes)

def nodesOf : List Expr → List Expr
  | [] => []
  | e :: es => e.nodes ++ nodesOf es

end

lemma mem_nodesOf {a : Expr} {es : List Expr} : a ∈ nodesOf es ↔ ∃ e ∈ es, a ∈ e.nodes := by
  induction es with
  | nil => simp [nodesOf]
  | cons e es ih => simp [nodesOf, ih]

lemma mem_nodes {a e : Expr} : a ∈ e.nodes ↔ a.Occurs e := by
  constructor
  · intro h
    induction e using Expr.induct with
    | var v => exact List.mem_singleton.mp h ▸ .root
    | literal k => exact List.mem_singleton.mp h ▸ .root
    | scale k e ih =>
      rcases List.mem_cons.mp h with rfl | h
      · exact .root
      · exact .scale (ih h)
    | clamp low high e ih =>
      rcases List.mem_cons.mp h with rfl | h
      · exact .root
      · exact .clamp (ih h)
    | sum es ih =>
      rcases List.mem_cons.mp h with rfl | h
      · exact .root
      · obtain ⟨e, he, h⟩ := mem_nodesOf.mp h
        exact .term he (ih e he h)
    | product es ih =>
      rcases List.mem_cons.mp h with rfl | h
      · exact .root
      · obtain ⟨e, he, h⟩ := mem_nodesOf.mp h
        exact .factor he (ih e he h)
    | quotient op l r ihl ihr =>
      rcases List.mem_cons.mp h with rfl | h
      · exact .root
      rcases List.mem_append.mp h with h | h
      · exact .left (ihl h)
      · exact .right (ihr h)
  · intro h
    induction h with
    | root => cases a <;> exact List.mem_cons_self
    | scale _ ih => exact List.mem_cons_of_mem _ ih
    | clamp _ ih => exact List.mem_cons_of_mem _ ih
    | term he _ ih => exact List.mem_cons_of_mem _ (mem_nodesOf.mpr ⟨_, he, ih⟩)
    | factor he _ ih => exact List.mem_cons_of_mem _ (mem_nodesOf.mpr ⟨_, he, ih⟩)
    | left _ ih => exact List.mem_cons_of_mem _ (List.mem_append_left _ ih)
    | right _ ih => exact List.mem_cons_of_mem _ (List.mem_append_right _ ih)

instance {P : Expr → Prop} [DecidablePred P] (e : Expr) : Decidable (∀ a : Expr, a.Occurs e → P a) :=
  decidable_of_iff (∀ a ∈ e.nodes, P a) (by simp only [mem_nodes])

lemma Occurs.trans {a b c : Expr} (h : a.Occurs b) (h' : b.Occurs c) : a.Occurs c := by
  induction h' with
  | root => exact h
  | scale _ ih => exact .scale ih
  | clamp _ ih => exact .clamp ih
  | term he _ ih => exact .term he ih
  | factor he _ ih => exact .factor he ih
  | left _ ih => exact .left ih
  | right _ ih => exact .right ih

/-- No node has a value outside 32 bits. The first few terms of a sum or factors of a product may. -/
def Fits (place : Variable → Int) (e : Expr) : Prop :=
  ∀ a : Expr, a.Occurs e → ∀ u ∈ a.ideal? place, -0x80000000 ≤ u ∧ u < 0x80000000

instance (place : Variable → Int) (e : Expr) : Decidable (e.Fits place) :=
  inferInstanceAs (Decidable (∀ a : Expr, a.Occurs e → ∀ u ∈ a.ideal? place, _))

variable {place : Variable → Int} {p : Point} {e e' : Expr}

lemma Fits.of_occurs (h : e.Fits place) (he : e'.Occurs e) : e'.Fits place :=
  fun a ha => h a (ha.trans he)

lemma toInt_ofInt {u : Int} (h : -0x80000000 ≤ u ∧ u < 0x80000000) : (Int32.ofInt u).toInt = u :=
  Int32.toInt_ofInt_of_le h.1 h.2

lemma Fits.toInt_ofInt (h : e.Fits place) {u : Int} (hu : e.ideal? place = some u) :
    (Int32.ofInt u).toInt = u :=
  Expr.toInt_ofInt (h e .root u hu)

lemma quotient_value?_ofInt (op : Quotient) {a b : Int} (ha : -0x80000000 ≤ a ∧ a < 0x80000000)
    (hb : -0x80000000 ≤ b ∧ b < 0x80000000) :
    op.value? (Int32.ofInt a) (Int32.ofInt b) = (op.ideal? a b).map Int32.ofInt := by
  have hzero : Int32.ofInt b = 0 ↔ b = 0 := by
    rw [← Int32.toInt_inj, toInt_ofInt hb]
    rfl
  have hmod : Int32.ofInt a % Int32.ofInt b = Int32.ofInt (a.tmod b) := by
    rw [← Int32.ofInt_toInt (Int32.ofInt a % Int32.ofInt b), Int32.toInt_mod, toInt_ofInt ha,
      toInt_ofInt hb]
  cases op with
  | divide => rfl
  | remainder =>
    simp only [Quotient.value?, Quotient.ideal?, hzero, hmod]
    split <;> rfl
  | align =>
    simp only [Quotient.value?, Quotient.ideal?, hzero, hmod, ← Int32.ofInt_sub]
    split <;> rfl

lemma values?_eq_ideals? {es : List Expr}
    (h : ∀ e ∈ es, e.value? p = (e.ideal? place).map Int32.ofInt) :
    values? p es = (ideals? place es).map (List.map Int32.ofInt) := by
  induction es with
  | nil => rfl
  | cons e es ih =>
    rw [values?, ideals?, h e List.mem_cons_self, ih fun e he => h e (List.mem_cons_of_mem _ he)]
    cases e.ideal? place <;> cases ideals? place es <;> rfl

lemma ideal?_sum (place : Variable → Int) (e : Expr) (es : List Expr) :
    (sum (e :: es)).ideal? place = (ideals? place (e :: es)).map fun us => us.foldl (· + ·) 0 := by
  rw [ideal?]
  exact List.cons_ne_nil e es

lemma ideal?_product (place : Variable → Int) (e : Expr) (es : List Expr) :
    (product (e :: es)).ideal? place = (ideals? place (e :: es)).map fun us => us.foldl (· * ·) 1 := by
  rw [ideal?]
  exact List.cons_ne_nil e es

lemma sum_ofInt (us : List Int) :
    (us.map Int32.ofInt).sum = Int32.ofInt (us.foldl (· + ·) 0) := by
  have hfold (a : Int) : (us.map Int32.ofInt).foldl (· + ·) (Int32.ofInt a) =
      Int32.ofInt (us.foldl (· + ·) a) := by
    induction us generalizing a with
    | nil => rfl
    | cons u us ih => rw [List.map_cons, List.foldl_cons, List.foldl_cons, ← Int32.ofInt_add, ih]
  rw [← hfold, foldl_add_eq]
  exact (Int32.zero_add _).symm

lemma foldl_mul_ofInt (us : List Int) :
    (us.map Int32.ofInt).foldl (· * ·) 1 = Int32.ofInt (us.foldl (· * ·) 1) := by
  have hfold (a : Int) : (us.map Int32.ofInt).foldl (· * ·) (Int32.ofInt a) =
      Int32.ofInt (us.foldl (· * ·) a) := by
    induction us generalizing a with
    | nil => rfl
    | cons u us ih => rw [List.map_cons, List.foldl_cons, List.foldl_cons, ← Int32.ofInt_mul, ih]
  exact hfold 1

theorem value?_eq_ideal? (hplace : ∀ v, p.coordinate v = Int32.ofInt (place v)) (h : e.Fits place) :
    e.value? p = (e.ideal? place).map Int32.ofInt := by
  induction e using Expr.induct with
  | var v =>
    rw [value?, ideal?, hplace]
    rfl
  | literal k =>
    cases k with
    | int k => simp only [value?, ideal?, Option.map_some, Int32.ofInt_toInt]
    | decimal k => rfl
  | scale k e ih =>
    cases k with
    | int k =>
      rw [value?, ideal?, ih (h.of_occurs (.scale .root))]
      cases e.ideal? place with
      | none => rfl
      | some u => simp only [Option.map_some, Int32.ofInt_mul, Int32.ofInt_toInt]
    | decimal k => rfl
  | clamp low high e ih =>
    have he : e.Fits place := h.of_occurs (.clamp .root)
    rw [value?, ideal?, ih he]
    split
    · rfl
    · cases hu : e.ideal? place with
      | none => rfl
      | some u =>
        have hclamp : max low (min (Int32.ofInt u) high) =
            Int32.ofInt (max low.toInt (min u high.toInt)) := by
          rw [← Int32.ofInt_toInt (max low (min (Int32.ofInt u) high)), toInt_max, toInt_min,
            he.toInt_ofInt hu]
        simp only [Option.map_some, hclamp]
  | sum es ih =>
    cases es with
    | nil => rfl
    | cons e es =>
      have hvalues : values? p (e :: es) = (ideals? place (e :: es)).map (List.map Int32.ofInt) :=
        values?_eq_ideals? fun e' he' => ih e' he' (h.of_occurs (.term he' .root))
      rw [value?, hvalues, ideal?_sum]
      · cases ideals? place (e :: es) with
        | none => rfl
        | some us => simp only [Option.map_some, sum_ofInt]
      · exact List.cons_ne_nil e es
  | product es ih =>
    cases es with
    | nil => rfl
    | cons e es =>
      have hvalues : values? p (e :: es) = (ideals? place (e :: es)).map (List.map Int32.ofInt) :=
        values?_eq_ideals? fun e' he' => ih e' he' (h.of_occurs (.factor he' .root))
      rw [value?, hvalues, ideal?_product]
      · cases ideals? place (e :: es) with
        | none => rfl
        | some us => simp only [Option.map_some, foldl_mul_ofInt]
      · exact List.cons_ne_nil e es
  | quotient op l r ihl ihr =>
    have hl : l.Fits place := h.of_occurs (.left .root)
    have hr : r.Fits place := h.of_occurs (.right .root)
    rw [value?, ideal?, ihl hl, ihr hr]
    cases hu : l.ideal? place with
    | none => rfl
    | some a =>
      cases hv : r.ideal? place with
      | none => rfl
      | some b => exact quotient_value?_ofInt op (hl l .root a hu) (hr r .root b hv)

end VideoRemap.Expr

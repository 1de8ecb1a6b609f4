import VideoRemap.Expr.Evaluate
import VideoRemap.Proofs.Span.Length
import VideoRemap.Proofs.Span.WellFormed

namespace VideoRemap

def Fault.OfValue : Fault → Prop
  | invertedClamp .. | zeroDivisor .. | noOperands | notExact _ => True
  | _ => False

lemma Fault.OfValue.kind_eq {e : Fault} (h : e.OfValue) : e.kind = .evaluation := by
  cases e <;> first | rfl | exact h.elim

namespace Expr

@[elab_as_elim]
theorem induct {motive : Expr → Prop} (var : ∀ v, motive (.var v)) (literal : ∀ v, motive (.literal v))
    (scale : ∀ k e, motive e → motive (.scale k e))
    (clamp : ∀ low high e, motive e → motive (.clamp low high e))
    (sum : ∀ es, (∀ e ∈ es, motive e) → motive (.sum es))
    (product : ∀ es, (∀ e ∈ es, motive e) → motive (.product es))
    (quotient : ∀ op l r, motive l → motive r → motive (.quotient op l r)) : ∀ e, motive e
  | .var v => var v
  | .literal v => literal v
  | .scale k e => scale k e (induct var literal scale clamp sum product quotient e)
  | .clamp low high e => clamp low high e (induct var literal scale clamp sum product quotient e)
  | .sum es => sum es fun e _ => induct var literal scale clamp sum product quotient e
  | .product es => product es fun e _ => induct var literal scale clamp sum product quotient e
  | .quotient op l r =>
    quotient op l r (induct var literal scale clamp sum product quotient l)
      (induct var literal scale clamp sum product quotient r)

variable {α : Type}

def Yields (P : Span α → Prop) : Except Fault (Span α) → Prop
  | .ok s => P s
  | .error e => e.OfValue

namespace Yields

variable {P Q : Span α → Prop} {r : Except Fault (Span α)}

lemma bind {k : Span α → Except Fault (Span α)} (h : Yields P r) (hk : ∀ s, P s → Yields Q (k s)) :
    Yields Q (r >>= k) := by
  cases r with
  | error e => exact h
  | ok s => exact hk s h

lemma map {f : Span α → Span α} (h : Yields P r) (hf : ∀ s, P s → Q (f s)) : Yields Q (f <$> r) := by
  cases r with
  | error e => exact h
  | ok s => exact hf s h

end Yields

variable [Scalar α] {g : Grid α}

lemma evaluateOnto_yields {P : Span α → Prop} {combine : Span α → Span α → Span α}
    (hcombine : ∀ a b, P a → P b → P (combine a b)) {acc : Span α} (hacc : P acc) {es : List Expr}
    (hes : ∀ e ∈ es, Yields P (e.evaluate g)) : Yields P (evaluateOnto g combine acc es) := by
  induction es generalizing acc with
  | nil => exact hacc
  | cons e es ih =>
    simp only [evaluateOnto]
    refine (hes e List.mem_cons_self).bind fun s hs => ?_
    exact ih (hcombine acc s hacc hs) fun e he => hes e (List.mem_cons_of_mem _ he)

structure Kept (g : Grid α) (P : Span α → Prop) : Prop where
  coordinate (v : Variable) : P (g.coordinate v)
  constant (v : α) : P (.constant g.pixelCount v)
  scale (k : α) {a : Span α} : P a → P (a.scale k)
  clamp (low high : α) {a : Span α} : P a → P (a.clamp low high)
  add {a b : Span α} : P a → P b → P (a + b)
  mul {a b : Span α} : P a → P b → P (a * b)
  zipWith? {f : α → α → Option α} {a b s : Span α} : P a → P b → Span.zipWith? f a b = some s → P s

lemma evaluate_yields {P : Span α → Prop} (h : Kept g P) (e : Expr) : Yields P (e.evaluate g) := by
  induction e using Expr.induct with
  | var v =>
    simp only [evaluate]
    exact h.coordinate v
  | literal v =>
    simp only [evaluate]
    split
    · exact h.constant _
    · trivial
  | scale k e ih =>
    simp only [evaluate]
    split
    · exact ih.map fun s hs => h.scale _ hs
    · trivial
  | clamp low high e ih =>
    simp only [evaluate]
    split
    · trivial
    · exact ih.map fun s hs => h.clamp _ _ hs
  | sum es ih =>
    cases es with
    | nil => trivial
    | cons e es =>
      simp only [evaluate]
      refine (ih e List.mem_cons_self).bind fun s hs => ?_
      exact evaluateOnto_yields (fun a b => h.add) hs fun e he => ih e (List.mem_cons_of_mem _ he)
  | product es ih =>
    cases es with
    | nil => trivial
    | cons e es =>
      simp only [evaluate]
      refine (ih e List.mem_cons_self).bind fun s hs => ?_
      exact evaluateOnto_yields (fun a b => h.mul) hs fun e he => ih e (List.mem_cons_of_mem _ he)
  | quotient op l r ihl ihr =>
    simp only [evaluate]
    split
    · trivial
    refine ihl.bind fun a ha => ihr.bind fun b hb => ?_
    split
    case h_1 s hs => exact h.zipWith? ha hb hs
    case h_2 => trivial

lemma kept_length (hg : g.y.length = g.x.length) : Kept g fun s => s.length = g.pixelCount where
  coordinate
    | .x => rfl
    | .y => hg
    | .t => Span.length_constant _ _
  constant _ := Span.length_constant _ _
  scale k _ ha := (Span.length_scale k _).trans ha
  clamp low high _ ha := (Span.length_clamp low high _).trans ha
  add ha hb := by rw [Span.length_add, ha, hb, Nat.min_self]
  mul ha hb := by rw [Span.length_mul, ha, hb, Nat.min_self]
  zipWith? ha hb hs := by rw [Span.length_zipWith? hs, ha, hb, Nat.min_self]

lemma kept_wellFormed (hx : g.x.WellFormed) (hy : g.y.WellFormed) : Kept g Span.WellFormed where
  coordinate
    | .x => hx
    | .y => hy
    | .t => Span.wellFormed_constant _ _
  constant _ := Span.wellFormed_constant _ _
  scale k _ ha := Span.wellFormed_scale ha k
  clamp low high _ ha := Span.wellFormed_clamp ha low high
  add := Span.wellFormed_add
  mul := Span.wellFormed_mul
  zipWith? ha hb hs := Span.wellFormed_zipWith? ha hb hs

lemma evaluate_ofSize_length (width height t : Nat) (e : Expr) :
    Yields (fun s => s.length = width * height) (e.evaluate (.ofSize width height t : Grid α)) := by
  have h := e.evaluate_yields (kept_length (g := (.ofSize width height t : Grid α))
    (by simp only [Grid.ofSize, Span.length_columns, Span.length_rows]))
  simpa only [Grid.pixelCount, Grid.ofSize, Span.length_columns] using h

end Expr

end VideoRemap

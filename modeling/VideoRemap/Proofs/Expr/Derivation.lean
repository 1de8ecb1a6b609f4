import Mathlib.Tactic.Lemma
import VideoRemap.Expr.Grammar
import VideoRemap.Expr.Parser

/-!
What the grammar derives is read as it is derived. A derivation tells what the parser does with the
tokens it is about, whatever stands around them.
-/

namespace VideoRemap

open VideoRemap.Parser

namespace Grammar

section

variable (c : Constants) (stop : Nat)

def FactorReads (ls : List Lexeme) (e : Expr) : Prop :=
  ∀ (outer : List Waiting) (w : Waiting) (ts rest : List Token), ts.map Token.lexeme = ls →
    readFactor c stop outer w (ts ++ rest) = readOperator c stop outer w.toDone (w.factor e) rest

def FactorsRead (ls : List Lexeme) (es : List Expr) : Prop :=
  ∃ last factors, es = (last :: factors).reverse ∧
    ∀ (outer : List Waiting) (terms : List Expr) (ts rest : List Token), ts.map Token.lexeme = ls →
      readFactor c stop outer ⟨⟨terms, []⟩, none, 0⟩ (ts ++ rest) =
        readOperator c stop outer ⟨terms, factors⟩ last rest

def ProductReads (ls : List Lexeme) (e : Expr) : Prop :=
  ∃ es, e = Expr.collapse .product es ∧ FactorsRead c stop ls es

def TermsRead (ls : List Lexeme) (es : List Expr) : Prop :=
  ∃ (d : Done) (last : Expr), es = (d.term last :: d.terms).reverse ∧
    ∀ (outer : List Waiting) (ts rest : List Token), ts.map Token.lexeme = ls →
      readFactor c stop outer start (ts ++ rest) = readOperator c stop outer d last rest

def SumReads (ls : List Lexeme) (e : Expr) : Prop :=
  ∃ es, e = Expr.collapse .sum es ∧ TermsRead c stop ls es

end

variable {c : Constants} {stop : Nat} {ls ms : List Lexeme} {es : List Expr} {e : Expr}

lemma exists_mark_of_map {m : Mark} {ts : List Token} (h : ts.map Token.lexeme = ls ++ .mark m :: ms) :
    ∃ ts₁ t ts₂, ts = ts₁ ++ t :: ts₂ ∧ ts₁.map Token.lexeme = ls ∧ t.lexeme = .mark m ∧
      ts₂.map Token.lexeme = ms := by
  obtain ⟨ts₁, ts', rfl, h₁, h'⟩ := List.map_eq_append_iff.mp h
  obtain ⟨t, ts₂, rfl, ht, h₂⟩ := List.map_eq_cons_iff.mp h'
  exact ⟨ts₁, t, ts₂, rfl, h₁, ht, h₂⟩

lemma reads_number (v : Literal) : FactorReads c stop [.number v] (.literal v) := by
  intro outer w ts rest hts
  obtain ⟨t, ts, rfl, ht, hnil⟩ := List.map_eq_cons_iff.mp hts
  obtain rfl := List.map_eq_nil_iff.mp hnil
  simp only [List.cons_append, List.nil_append, readFactor, ht]

lemma reads_letter {l : Char} (h : c.symbol? l = some e) : FactorReads c stop [.letter l] e := by
  intro outer w ts rest hts
  obtain ⟨t, ts, rfl, ht, hnil⟩ := List.map_eq_cons_iff.mp hts
  obtain rfl := List.map_eq_nil_iff.mp hnil
  simp only [List.cons_append, List.nil_append, readFactor, ht, h]

lemma SumReads.paren (h : SumReads c stop ls e) :
    FactorReads c stop (.mark .openParen :: ls ++ [.mark .closeParen]) e := by
  obtain ⟨es, rfl, d, last, rfl, hread⟩ := h
  intro outer w ts rest hts
  obtain ⟨t, ts', rfl, ht, hts'⟩ := List.map_eq_cons_iff.mp hts
  obtain ⟨ts', t', ts'', rfl, hinner, ht', hnil⟩ := exists_mark_of_map hts'
  obtain rfl := List.map_eq_nil_iff.mp hnil
  simp only [List.cons_append, List.append_assoc, readFactor, ht, List.nil_append]
  rw [hread _ _ _ hinner]
  simp only [readOperator, ht']
  rfl

lemma FactorReads.plus (h : FactorReads c stop ls e) : FactorReads c stop (.mark .plus :: ls) e := by
  intro outer w ts rest hts
  obtain ⟨t, ts, rfl, ht, hts⟩ := List.map_eq_cons_iff.mp hts
  simp only [List.cons_append, readFactor, ht]
  exact h outer w ts rest hts

lemma repeat_succ {α : Type} (f : α → α) (n : Nat) (a : α) :
    Nat.repeat f (n + 1) a = Nat.repeat f n (f a) := by
  induction n with
  | zero => rfl
  | succ n ih => exact congrArg f ih

lemma factor_succ (w : Waiting) (e : Expr) :
    ({ w with negations := w.negations + 1 } : Waiting).factor e = w.factor e.negate := by
  simp only [Waiting.factor, repeat_succ]

lemma FactorReads.minus (h : FactorReads c stop ls e) :
    FactorReads c stop (.mark .minus :: ls) e.negate := by
  intro outer w ts rest hts
  obtain ⟨t, ts, rfl, ht, hts⟩ := List.map_eq_cons_iff.mp hts
  simp only [List.cons_append, readFactor, ht]
  rw [h outer _ ts rest hts, factor_succ]

lemma FactorReads.first (h : FactorReads c stop ls e) : FactorsRead c stop ls [e] :=
  ⟨e, [], rfl, fun outer terms ts rest hts => h outer ⟨⟨terms, []⟩, none, 0⟩ ts rest hts⟩

lemma FactorsRead.times (h : FactorsRead c stop ls es) (h' : FactorReads c stop ms e) :
    FactorsRead c stop (ls ++ .mark .star :: ms) (es ++ [e]) := by
  obtain ⟨last, factors, rfl, hread⟩ := h
  refine ⟨e, last :: factors, List.reverse_cons.symm, fun outer terms ts rest hts => ?_⟩
  obtain ⟨ts₁, t, ts₂, rfl, h₁, ht, h₂⟩ := exists_mark_of_map hts
  rw [List.append_assoc, hread outer terms ts₁ _ h₁]
  simp only [List.cons_append, readOperator, ht]
  exact h' outer _ ts₂ rest h₂

lemma FactorsRead.over {d : Expr} {m : Mark} {op : Quotient} (h : FactorsRead c stop ls (es ++ [d]))
    (hop : m.quotient? = some op) (h' : FactorReads c stop ms e) :
    FactorsRead c stop (ls ++ .mark m :: ms) (es ++ [.quotient op d e]) := by
  obtain ⟨last, factors, heq, hread⟩ := h
  obtain ⟨rfl, hlast⟩ := List.append_inj' (heq.trans List.reverse_cons) rfl
  obtain rfl : d = last := List.singleton_inj.mp hlast
  refine ⟨.quotient op d e, factors, List.reverse_cons.symm, fun outer terms ts rest hts => ?_⟩
  obtain ⟨ts₁, t, ts₂, rfl, h₁, ht, h₂⟩ := exists_mark_of_map hts
  have hoperator : readOperator c stop outer ⟨terms, factors⟩ d (t :: (ts₂ ++ rest)) =
      readFactor c stop outer (Done.over ⟨terms, factors⟩ op d) (ts₂ ++ rest) := by
    cases m <;> cases hop <;> simp only [readOperator, ht]
  rw [List.append_assoc, hread outer terms ts₁ _ h₁, List.cons_append, hoperator]
  exact h' outer _ ts₂ rest h₂

lemma ProductReads.first (h : ProductReads c stop ls e) : TermsRead c stop ls [e] := by
  obtain ⟨es, rfl, last, factors, rfl, hread⟩ := h
  exact ⟨⟨[], factors⟩, last, rfl, fun outer ts rest hts => hread outer [] ts rest hts⟩

lemma TermsRead.plus (h : TermsRead c stop ls es) (h' : ProductReads c stop ms e) :
    TermsRead c stop (ls ++ .mark .plus :: ms) (es ++ [e]) := by
  obtain ⟨d, last, rfl, hread⟩ := h
  obtain ⟨es', rfl, last', factors, rfl, hread'⟩ := h'
  refine ⟨⟨d.term last :: d.terms, factors⟩, last', List.reverse_cons.symm, fun outer ts rest hts => ?_⟩
  obtain ⟨ts₁, t, ts₂, rfl, h₁, ht, h₂⟩ := exists_mark_of_map hts
  rw [List.append_assoc, hread outer ts₁ _ h₁]
  simp only [List.cons_append, readOperator, ht]
  exact hread' outer _ ts₂ rest h₂

lemma TermsRead.minus (h : TermsRead c stop ls es) (h' : ProductReads c stop (.mark .minus :: ms) e) :
    TermsRead c stop (ls ++ .mark .minus :: ms) (es ++ [e]) := by
  obtain ⟨d, last, rfl, hread⟩ := h
  obtain ⟨es', rfl, last', factors, rfl, hread'⟩ := h'
  refine ⟨⟨d.term last :: d.terms, factors⟩, last', List.reverse_cons.symm, fun outer ts rest hts => ?_⟩
  obtain ⟨ts₁, t, ts₂, rfl, h₁, ht, h₂⟩ := exists_mark_of_map hts
  have hsigned := hread' outer (d.term last :: d.terms) (t :: ts₂) rest (by rw [List.map_cons, ht, h₂])
  rw [List.append_assoc, hread outer ts₁ _ h₁, ← hsigned]
  simp only [List.cons_append, readOperator, readFactor, ht]
  rfl

lemma IsSum.reads (h : IsSum c ls e) : SumReads c stop ls e :=
  @IsSum.rec c (fun ls e _ => SumReads c stop ls e) (fun ls es _ => TermsRead c stop ls es)
    (fun ls e _ => ProductReads c stop ls e) (fun ls es _ => FactorsRead c stop ls es)
    (fun ls e _ => FactorReads c stop ls e)
    (fun _ ih => ⟨_, rfl, ih⟩)
    (fun _ ih => ih.first) (fun _ _ ih ih' => ih.plus ih') (fun _ _ ih ih' => ih.minus ih')
    (fun _ ih => ⟨_, rfl, ih⟩)
    (fun _ ih => ih.first) (fun _ _ ih ih' => ih.times ih') (fun _ hop _ ih ih' => ih.over hop ih')
    reads_number (fun h => reads_letter h) (fun _ ih => ih.paren) (fun _ ih => ih.plus)
    (fun _ ih => ih.minus) ls e h

lemma IsSum.tree_eq {tokens : List Token} (h : IsSum c (tokens.map Token.lexeme) e) :
    tree c stop tokens = .ok e := by
  have hreads : SumReads c stop (tokens.map Token.lexeme) e := h.reads
  obtain ⟨es, rfl, d, last, rfl, hread⟩ := hreads
  have hall := hread [] tokens [] rfl
  rw [List.append_nil] at hall
  exact hall

end Grammar

end VideoRemap

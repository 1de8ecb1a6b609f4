import VideoRemap.Proofs.Expr.Derivation

/-!
The parser accepts what the grammar derives and nothing else. What has been read so far, with the sums
that are still open, always has a derivation behind it.
-/

namespace VideoRemap

open VideoRemap.Parser

namespace Grammar

/-- What stands in front of a product, and the terms there. A minus in front of the product belongs to
the product. -/
inductive Precedes (c : Constants) : List Lexeme → List Lexeme → List Expr → Prop
  | nothing {ms} : Precedes c [] ms []
  | plus {ls es ms} : AreTerms c ls es → Precedes c (ls ++ [.mark .plus]) ms es.reverse
  | minus {ls es ms} : AreTerms c ls es → Precedes c ls (.mark .minus :: ms) es.reverse

def IsDone (c : Constants) (ls : List Lexeme) (d : Done) (last : Expr) : Prop :=
  ∃ ls' ms, ls = ls' ++ ms ∧ Precedes c ls' ms d.terms ∧ AreFactors c ms (last :: d.factors).reverse

def Awaits (c : Constants) (ls : List Lexeme) (w : Waiting) : Prop :=
  ∀ ms e, IsFactor c ms e → IsDone c (ls ++ ms) w.toDone (w.factor e)

inductive Opens (c : Constants) : List Lexeme → List Waiting → Prop
  | nil : Opens c [] []
  | cons {ls ms w outer} : Opens c ls outer → Awaits c ms w →
      Opens c (ls ++ ms ++ [.mark .openParen]) (w :: outer)

variable {c : Constants} {stop : Nat} {ls ms : List Lexeme} {terms : List Expr} {e : Expr} {d : Done}
  {last : Expr} {w : Waiting} {outer : List Waiting} {t : Token} {ts : List Token}

lemma Precedes.append (h : Precedes c ls ms terms) (more : List Lexeme) :
    Precedes c ls (ms ++ more) terms := by
  cases h with
  | nothing => exact .nothing
  | plus h => exact .plus h
  | minus h => exact .minus h

lemma Precedes.areTerms (h : Precedes c ls ms terms) (he : IsProduct c ms e) :
    AreTerms c (ls ++ ms) (e :: terms).reverse := by
  cases h with
  | nothing => exact .first he
  | plus h =>
    rw [List.append_assoc, List.reverse_cons, List.reverse_reverse]
    exact .plus h he
  | minus h =>
    rw [List.reverse_cons, List.reverse_reverse]
    exact .minus h he

lemma IsDone.areTerms (h : IsDone c ls d last) : AreTerms c ls (d.term last :: d.terms).reverse := by
  obtain ⟨ls, ms, rfl, hbefore, hfactors⟩ := h
  exact hbefore.areTerms (.ofFactors hfactors)

lemma IsDone.isSum (h : IsDone c ls d last) : IsSum c ls (d.sum last) := .ofTerms h.areTerms

lemma awaits_start : Awaits c [] start :=
  fun ms _ he => ⟨[], ms, rfl, .nothing, .first he⟩

lemma Awaits.plus (h : Awaits c ls w) : Awaits c (ls ++ [.mark .plus]) w := by
  intro ms e he
  rw [List.append_assoc]
  exact h _ e (.plus he)

lemma Awaits.minus (h : Awaits c ls w) :
    Awaits c (ls ++ [.mark .minus]) { w with negations := w.negations + 1 } := by
  intro ms e he
  rw [List.append_assoc, factor_succ]
  exact h _ _ (.minus he)

lemma IsDone.times (h : IsDone c ls d last) : Awaits c (ls ++ [.mark .star]) (d.times last) := by
  obtain ⟨ls, ms, rfl, hbefore, hfactors⟩ := h
  intro ms' e he
  refine ⟨ls, ms ++ .mark .star :: ms', by simp, hbefore.append _, ?_⟩
  change AreFactors c _ (e :: last :: d.factors).reverse
  rw [List.reverse_cons]
  exact .times hfactors he

lemma IsDone.over {m : Mark} {op : Quotient} (h : IsDone c ls d last) (hop : m.quotient? = some op) :
    Awaits c (ls ++ [.mark m]) (d.over op last) := by
  obtain ⟨ls, ms, rfl, hbefore, hfactors⟩ := h
  intro ms' e he
  refine ⟨ls, ms ++ .mark m :: ms', by simp, hbefore.append _, ?_⟩
  change AreFactors c _ (.quotient op last e :: d.factors).reverse
  rw [List.reverse_cons] at hfactors ⊢
  exact .over hfactors hop he

lemma IsDone.plus (h : IsDone c ls d last) : Awaits c (ls ++ [.mark .plus]) (d.plus last 0) := by
  intro ms e he
  refine ⟨ls ++ [.mark .plus], ms, rfl, ?_, .first he⟩
  rw [← List.reverse_reverse (Done.terms _)]
  exact .plus h.areTerms

lemma IsDone.minus (h : IsDone c ls d last) : Awaits c (ls ++ [.mark .minus]) (d.plus last 1) := by
  intro ms e he
  refine ⟨ls, .mark .minus :: ms, by simp, ?_, .first (.minus he)⟩
  rw [← List.reverse_reverse (Done.terms _)]
  exact .minus h.areTerms

lemma Awaits.paren (h : Awaits c ls w) (he : IsSum c ms e) :
    IsDone c (ls ++ (.mark .openParen :: ms ++ [.mark .closeParen])) w.toDone (w.factor e) :=
  h _ e (.paren he)

section

variable (c stop ts)

def FactorDerives : Prop :=
  ∀ outer w ls ms e, readFactor c stop outer w ts = .ok e → Opens c ls outer → Awaits c ms w →
    IsSum c (ls ++ ms ++ ts.map Token.lexeme) e

def OperatorDerives : Prop :=
  ∀ outer d last ls ms e, readOperator c stop outer d last ts = .ok e → Opens c ls outer →
    IsDone c ms d last → IsSum c (ls ++ ms ++ ts.map Token.lexeme) e

end

lemma map_lexeme_cons {l : Lexeme} (ls ms : List Lexeme) (hl : t.lexeme = l) (ts : List Token) :
    ls ++ ms ++ (t :: ts).map Token.lexeme = ls ++ (ms ++ [l]) ++ ts.map Token.lexeme := by
  simp [hl]

lemma FactorDerives.next {l : Lexeme} (h : FactorDerives c stop ts) (hl : t.lexeme = l)
    (hread : readFactor c stop outer w ts = .ok e) (hopen : Opens c ls outer)
    (hw : Awaits c (ms ++ [l]) w) : IsSum c (ls ++ ms ++ (t :: ts).map Token.lexeme) e := by
  rw [map_lexeme_cons ls ms hl]
  exact h _ _ _ _ _ hread hopen hw

lemma OperatorDerives.next {l : Lexeme} (h : OperatorDerives c stop ts) (hl : t.lexeme = l)
    (hread : readOperator c stop outer d last ts = .ok e) (hopen : Opens c ls outer)
    (hd : IsDone c (ms ++ [l]) d last) : IsSum c (ls ++ ms ++ (t :: ts).map Token.lexeme) e := by
  rw [map_lexeme_cons ls ms hl]
  exact h _ _ _ _ _ _ hread hopen hd

lemma factorDerives_nil : FactorDerives c stop [] := by
  intro outer w ls ms e h
  cases h

lemma operatorDerives_nil : OperatorDerives c stop [] := by
  intro outer d last ls ms e h hopen hdone
  cases hopen with
  | nil =>
    cases h
    simpa using hdone.isSum
  | cons => cases h

lemma FactorDerives.cons (h : FactorDerives c stop ts) (h' : OperatorDerives c stop ts) (t : Token) :
    FactorDerives c stop (t :: ts) := by
  intro outer w ls ms e hread hopen hawaits
  cases hl : t.lexeme with
  | number v =>
    simp only [readFactor, hl] at hread
    exact h'.next hl hread hopen (hawaits _ _ (.number v))
  | letter l =>
    simp only [readFactor, hl] at hread
    cases hsymbol : c.symbol? l with
    | none =>
      rw [hsymbol] at hread
      cases hread
    | some e' =>
      rw [hsymbol] at hread
      exact h'.next hl hread hopen (hawaits _ _ (.letter hsymbol))
  | mark m =>
    cases m with
    | openParen =>
      simp only [readFactor, hl] at hread
      have hsum := h _ _ _ _ _ hread (.cons hopen hawaits) awaits_start
      rwa [List.append_nil, List.append_assoc ls ms, ← map_lexeme_cons ls ms hl] at hsum
    | plus =>
      simp only [readFactor, hl] at hread
      exact h.next hl hread hopen hawaits.plus
    | minus =>
      simp only [readFactor, hl] at hread
      exact h.next hl hread hopen hawaits.minus
    | _ =>
      simp only [readFactor, hl] at hread
      cases hread

lemma OperatorDerives.cons (h : FactorDerives c stop ts) (h' : OperatorDerives c stop ts) (t : Token) :
    OperatorDerives c stop (t :: ts) := by
  intro outer d last ls ms e hread hopen hdone
  cases hl : t.lexeme with
  | number v =>
    simp only [readOperator, hl] at hread
    cases hread
  | letter l =>
    simp only [readOperator, hl] at hread
    cases hread
  | mark m =>
    cases m with
    | star =>
      simp only [readOperator, hl] at hread
      exact h.next hl hread hopen hdone.times
    | plus =>
      simp only [readOperator, hl] at hread
      exact h.next hl hread hopen hdone.plus
    | minus =>
      simp only [readOperator, hl] at hread
      exact h.next hl hread hopen hdone.minus
    | slash =>
      simp only [readOperator, hl] at hread
      exact h.next hl hread hopen (hdone.over rfl)
    | hash =>
      simp only [readOperator, hl] at hread
      exact h.next hl hread hopen (hdone.over rfl)
    | underscore =>
      simp only [readOperator, hl] at hread
      exact h.next hl hread hopen (hdone.over rfl)
    | closeParen =>
      simp only [readOperator, hl] at hread
      cases hopen with
      | nil => cases hread
      | @cons ls ms' w outer hopen hawaits =>
        have hsum := h' _ _ _ _ _ _ hread hopen (hawaits.paren hdone.isSum)
        simpa [hl] using hsum
    | _ =>
      simp only [readOperator, hl] at hread
      cases hread

/-- The two functions take the tokens in turn, so that one induction has to say both. -/
lemma derives (c : Constants) (stop : Nat) (ts : List Token) :
    FactorDerives c stop ts ∧ OperatorDerives c stop ts := by
  induction ts with
  | nil => exact ⟨factorDerives_nil, operatorDerives_nil⟩
  | cons t ts ih => exact ⟨ih.1.cons ih.2 t, OperatorDerives.cons ih.1 ih.2 t⟩

lemma tree_eq_ok_iff {tokens : List Token} :
    tree c stop tokens = .ok e ↔ IsSum c (tokens.map Token.lexeme) e := by
  constructor
  · intro h
    simpa using (derives c stop tokens).1 [] start [] [] e h .nil awaits_start
  · exact IsSum.tree_eq

lemma IsSum.unique {e' : Expr} (h : IsSum c ls e) (h' : IsSum c ls e') : e = e' := by
  have htokens : (ls.map fun l => (⟨l, 0, 0⟩ : Token)).map Token.lexeme = ls := by
    rw [List.map_map]
    exact List.map_id ls
  rw [← htokens] at h h'
  have hread : tree c 0 (ls.map fun l => (⟨l, 0, 0⟩ : Token)) = .ok e := h.tree_eq
  exact Except.ok.inj (hread.symm.trans h'.tree_eq)

end Grammar

open Grammar in
/-- A text is read exactly if all its tokens make up a sum, and the sum is one tree only. -/
theorem Expr.parse_exact (c : Constants) :
    (∀ text e, Expr.parse c text = .ok e ↔
      ∃ tokens, lex text.toList = .ok tokens ∧ IsSum c (tokens.map Token.lexeme) e) ∧
    ∀ ls e e', IsSum c ls e → IsSum c ls e' → e = e' := by
  refine ⟨fun text e => ?_, fun ls e e' => IsSum.unique⟩
  rw [Expr.parse]
  cases hlex : lex text.toList with
  | error fault => simp [bind, Except.bind]
  | ok tokens => simp [bind, Except.bind, tree_eq_ok_iff]

open Grammar in
theorem Expr.parse_exact_of_difference :
    let c : Constants := ⟨4, 3, 9⟩
    let e : Expr := .sum [.var .t, .quotient .remainder (.negate (.var .x))
      (.sum [.var .y, .literal (.int 4)])]
    ∃ tokens, lex "t-x#(y+w)".toList = .ok tokens ∧ IsSum c (tokens.map Token.lexeme) e ∧
      ∀ e', IsSum c (tokens.map Token.lexeme) e' → e = e' := by
  intro c e
  have hlex : lex "t-x#(y+w)".toList = .ok [⟨.letter 't', 0, 1⟩, ⟨.mark .minus, 1, 2⟩,
      ⟨.letter 'x', 2, 3⟩, ⟨.mark .hash, 3, 4⟩, ⟨.mark .openParen, 4, 5⟩, ⟨.letter 'y', 5, 6⟩,
      ⟨.mark .plus, 6, 7⟩, ⟨.letter 'w', 7, 8⟩, ⟨.mark .closeParen, 8, 9⟩] := by
    simp [lex, lexFrom, isBlank, Mark.ofChar?, Functor.map, Except.map]
  have hparse : parse c "t-x#(y+w)" = .ok e := by
    rw [parse, hlex]
    rfl
  obtain ⟨hiff, hunique⟩ := parse_exact c
  obtain ⟨tokens, hlex, hsum⟩ := (hiff _ e).mp hparse
  exact ⟨tokens, hlex, hsum, fun e' h' => hunique _ e e' hsum h'⟩

end VideoRemap

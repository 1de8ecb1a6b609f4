import VideoRemap.Proofs.Expr.Exact

/-!
Evaluation in any arithmetic fails at a node of the tree, and only because of that node. Single
precision comes upon no such node but those that have no value in any arithmetic.
-/

namespace VideoRemap

lemma Span.exists_zipWith? {α : Type} [Scalar α] {f : α → α → Option α}
    (h : ∀ u v, ∃ w, f u v = some w) (a b : Span α) : ∃ s, zipWith? f a b = some s := by
  have hne (u v : α) : f u v ≠ none := by
    obtain ⟨w, hw⟩ := h u v
    exact hw ▸ Option.some_ne_none w
  have hdense (a b : Span α) :
      ∃ s, dense <$> ((a.toList.zip b.toList).mapM fun p => f p.1 p.2) = some s := by
    refine Option.ne_none_iff_exists'.mp fun hnone => ?_
    obtain ⟨p, -, hfail⟩ := Traversal.mapM_eq_none_iff.mp (Option.map_eq_none_iff.mp hnone)
    exact hne p.1 p.2 hfail
  cases a <;> cases b
  case sparse.sparse rs ss =>
    refine Option.ne_none_iff_exists'.mp fun hnone => ?_
    obtain ⟨p, -, hfail⟩ := Traversal.mapM_eq_none_iff.mp (Option.map_eq_none_iff.mp hnone)
    exact hne p.left p.right (Option.map_eq_none_iff.mp hfail)
  all_goals exact hdense _ _

namespace Expr

inductive Malformed : Expr → Prop
  | noTerms : Malformed (sum [])
  | noFactors : Malformed (product [])
  | invertedClamp {low high e} : high < low → Malformed (clamp low high e)

inductive Fractional : Expr → Prop
  | decimal {v} : Fractional (literal (.decimal v))
  | decimalFactor {k e} : Fractional (scale (.decimal k) e)
  | division {l r} : Fractional (quotient .divide l r)

end Expr

/-- At this node evaluation over `g` goes no further, and that is the fault it raises. -/
inductive Grid.Stops {α : Type} [Scalar α] (g : Grid α) : Expr → Fault → Prop
  | fractional {a} : Scalar.integral α = true → a.Fractional → g.Stops a (.notExact a)
  | noTerms : g.Stops (.sum []) .noOperands
  | noFactors : g.Stops (.product []) .noOperands
  | invertedClamp {low high e} : high < low → g.Stops (.clamp low high e) (.invertedClamp low high)
  | zeroDivisor {op l r a b} : ¬ (op = .divide ∧ Scalar.integral α = true) →
      l.evaluate g = .ok a → r.evaluate g = .ok b →
      Span.zipWith? (Scalar.quotient? op) a b = none →
      g.Stops (.quotient op l r) (.zeroDivisor op (.quotient op l r))

namespace Expr

open Traversal

variable {α : Type} [Scalar α] {g : Grid α} {a e : Expr} {fault : Fault}

lemma Malformed.stops (h : a.Malformed) : ∃ fault, g.Stops a fault := by
  cases h with
  | noTerms => exact ⟨_, .noTerms⟩
  | noFactors => exact ⟨_, .noFactors⟩
  | invertedClamp hlt => exact ⟨_, .invertedClamp hlt⟩

lemma Occurs.isExact (h : a.Occurs e) (he : e.isExact = true) : a.isExact = true := by
  induction h with
  | root => exact he
  | @scale k e _ ih =>
    cases k with
    | int k => exact ih he
    | decimal k => simp [Expr.isExact] at he
  | clamp _ ih => exact ih he
  | term hmem _ ih => exact ih (allExact_iff.mp he _ hmem)
  | factor hmem _ ih => exact ih (allExact_iff.mp he _ hmem)
  | left _ ih => exact ih (isExact_quotient he).2.1
  | right _ ih => exact ih (isExact_quotient he).2.2

lemma Fractional.isExact_eq_false (h : a.Fractional) : a.isExact = false := by
  cases h <;> rfl

lemma exists_fractional (h : e.isExact = false) : ∃ a : Expr, a.Occurs e ∧ a.Fractional := by
  induction e using Expr.induct with
  | var v => exact nomatch h
  | literal k =>
    cases k with
    | int k => exact nomatch h
    | decimal k => exact ⟨_, .root, .decimal⟩
  | scale k e ih =>
    cases k with
    | int k =>
      obtain ⟨a, ha, hfractional⟩ := ih h
      exact ⟨a, .scale ha, hfractional⟩
    | decimal k => exact ⟨_, .root, .decimalFactor⟩
  | clamp low high e ih =>
    obtain ⟨a, ha, hfractional⟩ := ih h
    exact ⟨a, .clamp ha, hfractional⟩
  | sum es ih =>
    obtain ⟨e, he, hexact⟩ : ∃ e ∈ es, e.isExact = false := by
      simpa [isExact, ← Bool.not_eq_true, allExact_iff] using h
    obtain ⟨a, ha, hfractional⟩ := ih e he hexact
    exact ⟨a, .term he ha, hfractional⟩
  | product es ih =>
    obtain ⟨e, he, hexact⟩ : ∃ e ∈ es, e.isExact = false := by
      simpa [isExact, ← Bool.not_eq_true, allExact_iff] using h
    obtain ⟨a, ha, hfractional⟩ := ih e he hexact
    exact ⟨a, .factor he ha, hfractional⟩
  | quotient op l r ihl ihr =>
    by_cases hop : op = .divide
    · exact ⟨_, .root, hop ▸ .division⟩
    · have hoperand : l.isExact = false ∨ r.isExact = false := by
        rw [← Bool.and_eq_false_iff, ← h]
        cases op <;> simp_all [isExact]
      rcases hoperand with hl | hr
      · obtain ⟨a, ha, hfractional⟩ := ihl hl
        exact ⟨a, .left ha, hfractional⟩
      · obtain ⟨a, ha, hfractional⟩ := ihr hr
        exact ⟨a, .right ha, hfractional⟩

lemma evaluate_of_stops (h : g.Stops a fault) : a.evaluate g = .error fault := by
  cases h with
  | fractional hintegral ha =>
    cases ha <;> simp [evaluate, Literal.scalar?, hintegral]
  | noTerms => rfl
  | noFactors => rfl
  | invertedClamp hlt => simp only [evaluate, if_pos hlt]
  | zeroDivisor hop hl hr hzip =>
    simp only [evaluate, if_neg hop, hl, hr, bind, Except.bind, hzip]

section

variable {combine : Span α → Span α → Span α} {first : Expr} {es : List Expr}

lemma evaluateOnto_eq_ok {acc s : Span α} (h : evaluateOnto g combine acc es = .ok s) (he : e ∈ es) :
    ∃ s, e.evaluate g = .ok s := by
  induction es generalizing acc with
  | nil => exact nomatch he
  | cons e' es ih =>
    rw [evaluateOnto] at h
    obtain ⟨s', hs', hrest⟩ := bind_eq_ok_iff.mp h
    rcases List.mem_cons.mp he with rfl | he
    · exact ⟨s', hs'⟩
    · exact ih hrest he

lemma evaluateOnto_eq_error {acc : Span α} (h : evaluateOnto g combine acc es = .error fault) :
    ∃ e ∈ es, e.evaluate g = .error fault := by
  induction es generalizing acc with
  | nil => exact nomatch h
  | cons e es ih =>
    rw [evaluateOnto] at h
    rcases bind_eq_error_iff.mp h with he | ⟨s, -, hrest⟩
    · exact ⟨e, List.mem_cons_self, he⟩
    · obtain ⟨e', he', hfault⟩ := ih hrest
      exact ⟨e', List.mem_cons_of_mem _ he', hfault⟩

lemma operand_of_ok {s : Span α} (h : (do evaluateOnto g combine (← first.evaluate g) es) = .ok s)
    (he : e ∈ first :: es) : ∃ s, e.evaluate g = .ok s := by
  obtain ⟨acc, hfirst, hrest⟩ := bind_eq_ok_iff.mp h
  rcases List.mem_cons.mp he with rfl | he
  · exact ⟨acc, hfirst⟩
  · exact evaluateOnto_eq_ok hrest he

lemma operand_of_error (h : (do evaluateOnto g combine (← first.evaluate g) es) = .error fault) :
    ∃ e ∈ first :: es, e.evaluate g = .error fault := by
  rcases bind_eq_error_iff.mp h with hfirst | ⟨acc, -, hrest⟩
  · exact ⟨first, List.mem_cons_self, hfirst⟩
  · obtain ⟨e, he, hfault⟩ := evaluateOnto_eq_error hrest
    exact ⟨e, List.mem_cons_of_mem _ he, hfault⟩

end

lemma Occurs.evaluates (h : a.Occurs e) (he : ∃ s, e.evaluate g = .ok s) :
    ∃ s, a.evaluate g = .ok s := by
  induction h with
  | root => exact he
  | scale _ ih =>
    obtain ⟨s, hs⟩ := he
    rw [evaluate] at hs
    split at hs
    · obtain ⟨s', hs', -⟩ := map_eq_ok_iff.mp hs
      exact ih ⟨s', hs'⟩
    · cases hs
  | clamp _ ih =>
    obtain ⟨s, hs⟩ := he
    rw [evaluate] at hs
    split at hs
    · cases hs
    · obtain ⟨s', hs', -⟩ := map_eq_ok_iff.mp hs
      exact ih ⟨s', hs'⟩
  | @term e es hmem _ ih =>
    obtain ⟨s, hs⟩ := he
    cases es with
    | nil => cases hmem
    | cons first es =>
      rw [evaluate] at hs
      exact ih (operand_of_ok hs hmem)
  | @factor e es hmem _ ih =>
    obtain ⟨s, hs⟩ := he
    cases es with
    | nil => cases hmem
    | cons first es =>
      rw [evaluate] at hs
      exact ih (operand_of_ok hs hmem)
  | left _ ih =>
    obtain ⟨s, hs⟩ := he
    rw [evaluate] at hs
    split at hs
    · cases hs
    · obtain ⟨s', hs', -⟩ := bind_eq_ok_iff.mp hs
      exact ih ⟨s', hs'⟩
  | right _ ih =>
    obtain ⟨s, hs⟩ := he
    rw [evaluate] at hs
    split at hs
    · cases hs
    · obtain ⟨_, -, hs⟩ := bind_eq_ok_iff.mp hs
      obtain ⟨s', hs', -⟩ := bind_eq_ok_iff.mp hs
      exact ih ⟨s', hs'⟩

lemma exists_stops_of_root {fault' : Fault} (hstops : g.Stops e fault') (h : e.evaluate g = .error fault) :
    ∃ a, a.Occurs e ∧ g.Stops a fault := by
  obtain rfl : fault' = fault := Except.error.inj ((evaluate_of_stops hstops).symm.trans h)
  exact ⟨e, .root, hstops⟩

lemma exists_stops (h : e.evaluate g = .error fault) : ∃ a, a.Occurs e ∧ g.Stops a fault := by
  induction e using Expr.induct with
  | var v => simp [evaluate] at h
  | literal k =>
    cases k with
    | int k => simp [evaluate, Literal.scalar?] at h
    | decimal k =>
      by_cases hintegral : Scalar.integral α = true
      · exact exists_stops_of_root (.fractional hintegral .decimal) h
      · simp [evaluate, Literal.scalar?, hintegral] at h
  | scale k e ih =>
    cases k with
    | int k =>
      simp only [evaluate, Literal.scalar?] at h
      obtain ⟨a, ha, hstops⟩ := ih (map_eq_error_iff.mp h)
      exact ⟨a, .scale ha, hstops⟩
    | decimal k =>
      by_cases hintegral : Scalar.integral α = true
      · exact exists_stops_of_root (.fractional hintegral .decimalFactor) h
      · simp only [evaluate, Literal.scalar?, hintegral] at h
        obtain ⟨a, ha, hstops⟩ := ih (map_eq_error_iff.mp h)
        exact ⟨a, .scale ha, hstops⟩
  | clamp low high e ih =>
    by_cases hbounds : high < low
    · exact exists_stops_of_root (.invertedClamp hbounds) h
    · rw [evaluate, if_neg hbounds] at h
      obtain ⟨a, ha, hstops⟩ := ih (map_eq_error_iff.mp h)
      exact ⟨a, .clamp ha, hstops⟩
  | sum es ih =>
    cases es with
    | nil => exact exists_stops_of_root .noTerms h
    | cons first es =>
      rw [evaluate] at h
      obtain ⟨e, he, hfault⟩ := operand_of_error h
      obtain ⟨a, ha, hstops⟩ := ih e he hfault
      exact ⟨a, .term he ha, hstops⟩
  | product es ih =>
    cases es with
    | nil => exact exists_stops_of_root .noFactors h
    | cons first es =>
      rw [evaluate] at h
      obtain ⟨e, he, hfault⟩ := operand_of_error h
      obtain ⟨a, ha, hstops⟩ := ih e he hfault
      exact ⟨a, .factor he ha, hstops⟩
  | quotient op l r ihl ihr =>
    by_cases hop : op = .divide ∧ Scalar.integral α = true
    · obtain ⟨rfl, hintegral⟩ := hop
      exact exists_stops_of_root (.fractional hintegral .division) h
    · rw [evaluate, if_neg hop] at h
      rcases bind_eq_error_iff.mp h with hl | ⟨a, hl, h⟩
      · obtain ⟨a, ha, hstops⟩ := ihl hl
        exact ⟨a, .left ha, hstops⟩
      rcases bind_eq_error_iff.mp h with hr | ⟨b, hr, h⟩
      · obtain ⟨a, ha, hstops⟩ := ihr hr
        exact ⟨a, .right ha, hstops⟩
      cases hzip : Span.zipWith? (Scalar.quotient? op) a b with
      | some s => simp [hzip] at h
      | none =>
        simp only [hzip] at h
        cases h
        exact ⟨_, .root, .zeroDivisor hop hl hr hzip⟩

lemma evaluate_error_iff :
    (∃ fault, e.evaluate g = .error fault) ↔ ∃ a fault, a.Occurs e ∧ g.Stops a fault := by
  constructor
  · rintro ⟨fault, h⟩
    obtain ⟨a, ha, hstops⟩ := exists_stops h
    exact ⟨a, fault, ha, hstops⟩
  · rintro ⟨a, fault, ha, hstops⟩
    cases he : e.evaluate g with
    | error fault' => exact ⟨fault', rfl⟩
    | ok s =>
      obtain ⟨s', hs'⟩ := ha.evaluates ⟨s, he⟩
      exact nomatch hs'.symm.trans (evaluate_of_stops hstops)

lemma isExact_of_evaluate (hintegral : Scalar.integral α = true) {s : Span α}
    (h : e.evaluate g = .ok s) : e.isExact = true := by
  refine Bool.not_eq_false _ ▸ fun hexact => ?_
  obtain ⟨a, ha, hfractional⟩ := exists_fractional hexact
  obtain ⟨s', hs'⟩ := ha.evaluates ⟨s, h⟩
  exact nomatch hs'.symm.trans (evaluate_of_stops (.fractional hintegral hfractional))

lemma refused_of_notExact (h : e.evaluate g = .error (.notExact a)) :
    Scalar.integral α = true ∧ e.isExact = false := by
  obtain ⟨a', ha', hstops⟩ := exists_stops h
  cases hstops with
  | fractional hintegral hfractional =>
    refine ⟨hintegral, Bool.eq_false_iff.mpr fun hexact => ?_⟩
    exact nomatch (ha'.isExact hexact).symm.trans hfractional.isExact_eq_false

section

variable {g : Grid Float32}

lemma exists_quotient? (op : Quotient) (u v : Float32) : ∃ w, Scalar.quotient? op u v = some w := by
  cases op <;> exact ⟨_, rfl⟩

lemma malformed_of_stops (h : g.Stops a fault) : a.Malformed := by
  cases h with
  | fractional hintegral _ => exact nomatch hintegral
  | noTerms => exact .noTerms
  | noFactors => exact .noFactors
  | invertedClamp hlt => exact .invertedClamp hlt
  | @zeroDivisor op _ _ _ _ _ _ _ hzip =>
    obtain ⟨s, hs⟩ := Span.exists_zipWith? (exists_quotient? op) _ _
    exact nomatch hs.symm.trans hzip

lemma evaluate_single_error_iff :
    (∃ fault, e.evaluate g = .error fault) ↔ ∃ a : Expr, a.Occurs e ∧ a.Malformed := by
  rw [evaluate_error_iff]
  constructor
  · rintro ⟨a, fault, ha, hstops⟩
    exact ⟨a, ha, malformed_of_stops hstops⟩
  · rintro ⟨a, ha, hmalformed⟩
    obtain ⟨fault, hstops⟩ := hmalformed.stops (g := g)
    exact ⟨a, fault, ha, hstops⟩

end

end Expr

end VideoRemap

import Mathlib.Data.List.Basic
import VideoRemap.Proofs.Expr.Contained
import VideoRemap.Proofs.Expr.Spelling

/-!
The minus between terms. It is read as the sign of the first factor behind it, and since remainders and
alignment keep to the sign of the dividend, the whole term behind it is subtracted.
-/

namespace VideoRemap

namespace Grammar

/-- Outside parentheses no plus and no minus comes behind a factor. With `depth` parentheses open;
`behind` says that a factor is what came last. -/
def SignsOnly (depth : Nat) (behind : Bool) : List Lexeme → Prop
  | [] => True
  | .number _ :: ls | .letter _ :: ls => SignsOnly depth true ls
  | .mark .openParen :: ls => SignsOnly (depth + 1) false ls
  | .mark .closeParen :: ls => SignsOnly (depth - 1) true ls
  | .mark .plus :: ls | .mark .minus :: ls =>
    (depth = 0 → behind = false) ∧ SignsOnly depth false ls
  | .mark _ :: ls => SignsOnly depth false ls

def EndsFactor (ls : List Lexeme) : Prop :=
  ∀ depth rest, SignsOnly depth false (ls ++ rest) → SignsOnly depth true rest

section

variable {c : Constants} {ls ms : List Lexeme} {es : List Expr} {e : Expr}

lemma EndsFactor.behind_operator {m : Mark} (h : EndsFactor ls) (h' : EndsFactor ms)
    (hm : ∀ depth rest, SignsOnly depth true (.mark m :: rest) → SignsOnly depth false rest) :
    EndsFactor (ls ++ .mark m :: ms) := by
  intro depth rest hall
  rw [List.append_assoc] at hall
  exact h' depth rest (hm depth _ (h depth _ hall))

lemma EndsFactor.over {m : Mark} {op : Quotient} (h : EndsFactor ls) (hop : m.quotient? = some op)
    (h' : EndsFactor ms) : EndsFactor (ls ++ .mark m :: ms) := by
  refine h.behind_operator h' fun depth rest hrest => ?_
  cases m <;> cases hop <;> exact hrest

lemma EndsFactor.behind_term (h : EndsFactor ls) (h' : EndsFactor (.mark .minus :: ms)) :
    EndsFactor (ls ++ .mark .minus :: ms) := by
  intro depth rest hall
  rw [List.append_assoc] at hall
  exact h' depth rest ⟨fun _ => rfl, (h depth _ hall).2⟩

lemma EndsFactor.paren (h : EndsFactor ls) :
    EndsFactor (.mark .openParen :: ls ++ [.mark .closeParen]) := by
  intro depth rest hall
  rw [List.append_assoc] at hall
  exact h (depth + 1) _ hall

lemma IsSum.endsFactor (h : IsSum c ls e) : EndsFactor ls :=
  @IsSum.rec c (fun ls _ _ => EndsFactor ls) (fun ls _ _ => EndsFactor ls) (fun ls _ _ => EndsFactor ls)
    (fun ls _ _ => EndsFactor ls) (fun ls _ _ => EndsFactor ls)
    (fun _ ih => ih)
    (fun _ ih => ih) (fun _ _ ih ih' => ih.behind_operator ih' fun _ _ h => h.2)
    (fun _ _ ih ih' => ih.behind_term ih')
    (fun _ ih => ih)
    (fun _ ih => ih) (fun _ _ ih ih' => ih.behind_operator ih' fun _ _ h => h)
    (fun _ hop _ ih ih' => ih.over hop ih')
    (fun _ _ _ h => h) (fun _ _ _ h => h) (fun _ ih => ih.paren)
    (fun _ ih depth rest h => ih depth rest h.2) (fun _ ih depth rest h => ih depth rest h.2) ls e h

lemma AreTerms.endsFactor (h : AreTerms c ls es) : EndsFactor ls :=
  IsSum.endsFactor (.ofTerms h)

lemma IsSum.isProduct (h : IsSum c ls e) (hsigns : SignsOnly 0 false ls) : IsProduct c ls e := by
  cases h with
  | ofTerms hterms =>
    cases hterms with
    | first h => exact h
    | plus h _ => exact absurd ((h.endsFactor 0 _ hsigns).1 rfl) (by decide)
    | minus h _ => exact absurd ((h.endsFactor 0 _ hsigns).1 rfl) (by decide)

end

end Grammar

namespace Expr

structure Opposite (e e' : Expr) : Prop where
  isExact : e'.isExact = e.isExact
  value? : ∀ p, e'.value? p = none ↔ e.value? p = none
  ideal? : ∀ place, e'.ideal? place = (e.ideal? place).map fun u => -u

section

variable {d d' e : Expr}

lemma opposite_negate (e : Expr) : Opposite e e.negate where
  isExact := rfl
  value? p := by rw [negate, Expr.value?, Option.map_eq_none_iff]
  ideal? place := by
    rw [negate, Expr.ideal?]
    congr 1
    funext u
    exact Int.mul_neg_one u

lemma neg_quotient_ideal? (op : Quotient) (a b : Int) :
    op.ideal? (-a) b = (op.ideal? a b).map fun u => -u := by
  cases op with
  | divide => rfl
  | remainder =>
    simp only [Quotient.ideal?, Int.neg_tmod]
    split <;> rfl
  | align =>
    simp only [Quotient.ideal?, Int.neg_tmod]
    split
    · rfl
    · rw [Option.map_some]
      congr 1
      omega

lemma Opposite.quotient (h : Opposite d d') (op : Quotient) (e : Expr) :
    Opposite (.quotient op d e) (.quotient op d' e) where
  isExact := by cases op <;> simp [Expr.isExact, h.isExact]
  value? p := by
    by_cases hop : op = .divide
    · rw [hop, value?_division, value?_division]
    · rw [value?_quotient_eq_none_iff hop, value?_quotient_eq_none_iff hop, h.value?]
  ideal? place := by
    rw [Expr.ideal?, Expr.ideal?, h.ideal?]
    cases d.ideal? place with
    | none => rfl
    | some a =>
      cases e.ideal? place with
      | none => rfl
      | some b => exact neg_quotient_ideal? op a b

lemma foldl_mul_neg (a : Int) (us : List Int) : us.foldl (· * ·) (-a) = -us.foldl (· * ·) a := by
  induction us generalizing a with
  | nil => rfl
  | cons u us ih => rw [List.foldl_cons, List.foldl_cons, Int.neg_mul, ih]

lemma Opposite.product (h : Opposite d d') (es : List Expr) :
    Opposite (.product (d :: es)) (.product (d' :: es)) where
  isExact := by simp [Expr.isExact, allExact, h.isExact]
  value? p := by simp [value?_product_eq_none_iff, h.value?]
  ideal? place := by
    rw [ideal?_product, ideal?_product, ideals?, ideals?, h.ideal?]
    cases d.ideal? place with
    | none => rfl
    | some a =>
      cases ideals? place es with
      | none => rfl
      | some us =>
        change some ((-a :: us).foldl (· * ·) 1) = some (-(a :: us).foldl (· * ·) 1)
        rw [List.foldl_cons, List.foldl_cons, Int.one_mul, Int.one_mul, foldl_mul_neg]

lemma Opposite.collapse (h : Opposite d d') (es : List Expr) :
    Opposite (Expr.collapse .product (d :: es)) (Expr.collapse .product (d' :: es)) := by
  cases es with
  | nil => exact h
  | cons e es => exact h.product (e :: es)

lemma isExact_sum_concat {es : List Expr} (hes : es ≠ []) (e' : Expr) :
    (sum (es ++ [e'])).isExact = ((Expr.collapse .sum es).isExact && e'.isExact) := by
  match es with
  | [e] => simp [Expr.collapse, Expr.isExact, allExact]
  | e :: e'' :: es =>
    rw [Bool.eq_iff_iff, Bool.and_eq_true]
    simp only [Expr.collapse, Expr.isExact, allExact_iff, List.forall_mem_append,
      List.forall_mem_singleton]

lemma value?_sum_concat {es : List Expr} (hes : es ≠ []) (e' : Expr) (p : Point) :
    (sum (es ++ [e'])).value? p = none ↔
      (Expr.collapse .sum es).value? p = none ∨ e'.value? p = none := by
  match es with
  | [e] => simp [Expr.collapse, value?_sum_eq_none_iff]
  | e :: e'' :: es => simp [Expr.collapse, value?_sum_eq_none_iff, or_assoc]

lemma ideals?_concat (place : Variable → Int) (es : List Expr) (e' : Expr) :
    ideals? place (es ++ [e']) = (ideals? place es).bind fun us => (e'.ideal? place).map fun u => us ++ [u] := by
  induction es with
  | nil =>
    simp only [List.nil_append, ideals?]
    cases e'.ideal? place <;> rfl
  | cons e es ih =>
    rw [List.cons_append, ideals?, ideals?, ih]
    cases e.ideal? place with
    | none => rfl
    | some u =>
      cases ideals? place es with
      | none => rfl
      | some us => cases e'.ideal? place <;> rfl

lemma ideal?_sum_concat {es : List Expr} (hes : es ≠ []) (e' : Expr) (place : Variable → Int) :
    (sum (es ++ [e'])).ideal? place = ((Expr.collapse .sum es).ideal? place).bind fun u =>
      (e'.ideal? place).map fun v => u + v := by
  obtain ⟨e, es, rfl⟩ := List.exists_cons_of_ne_nil hes
  have hterms : (Expr.collapse .sum (e :: es)).ideal? place =
      (ideals? place (e :: es)).map fun us => us.foldl (· + ·) 0 := by
    cases es with
    | nil =>
      simp only [Expr.collapse, ideals?]
      cases e.ideal? place with
      | none => rfl
      | some u => exact congrArg some (Int.zero_add u).symm
    | cons e'' es => exact ideal?_sum place e (e'' :: es)
  rw [hterms, List.cons_append, ideal?_sum, ← List.cons_append, ideals?_concat]
  cases ideals? place (e :: es) with
  | none => rfl
  | some us =>
    cases e'.ideal? place with
    | none => rfl
    | some v => simp only [Option.bind_some, Option.map_some, List.foldl_concat]

end

end Expr

namespace Grammar

open VideoRemap.Expr

variable {c : Constants} {ls ms : List Lexeme} {es : List Expr} {e : Expr}

/-- With a minus in front these factors are others, the first of which is the opposite. -/
def TakesMinus (c : Constants) (ls : List Lexeme) (es : List Expr) : Prop :=
  ∃ d d' rest, es = d :: rest ∧ AreFactors c (.mark .minus :: ls) (d' :: rest) ∧ Opposite d d'

lemma IsFactor.takesMinus (h : IsFactor c ls e) : TakesMinus c ls [e] :=
  ⟨e, e.negate, [], rfl, .first (.minus h), opposite_negate e⟩

lemma TakesMinus.times (h : TakesMinus c ls es) (h' : IsFactor c ms e) :
    TakesMinus c (ls ++ .mark .star :: ms) (es ++ [e]) := by
  obtain ⟨d, d', rest, rfl, hfactors, hopposite⟩ := h
  exact ⟨d, d', rest ++ [e], rfl, .times hfactors h', hopposite⟩

lemma TakesMinus.over {a : Expr} {m : Mark} {op : Quotient} (h : TakesMinus c ls (es ++ [a]))
    (hop : m.quotient? = some op) (h' : IsFactor c ms e) :
    TakesMinus c (ls ++ .mark m :: ms) (es ++ [.quotient op a e]) := by
  obtain ⟨d, d', rest, heq, hfactors, hopposite⟩ := h
  cases es with
  | nil =>
    obtain ⟨rfl, rfl⟩ := List.cons.inj heq
    have hquotient : AreFactors c (.mark .minus :: ls ++ .mark m :: ms) ([] ++ [.quotient op d' e]) :=
      .over hfactors hop h'
    exact ⟨_, _, [], rfl, hquotient, hopposite.quotient op e⟩
  | cons d es =>
    obtain ⟨rfl, rfl⟩ := List.cons.inj heq
    have hquotient : AreFactors c (.mark .minus :: ls ++ .mark m :: ms) (d' :: es ++ [.quotient op a e]) :=
      .over hfactors hop h'
    exact ⟨d, d', _, rfl, hquotient, hopposite⟩

lemma AreFactors.takesMinus (h : AreFactors c ls es) : TakesMinus c ls es :=
  @AreFactors.rec c (fun _ _ _ => True) (fun _ _ _ => True) (fun _ _ _ => True)
    (fun ls es _ => TakesMinus c ls es) (fun _ _ _ => True)
    (fun _ _ => trivial) (fun _ _ => trivial) (fun _ _ _ _ => trivial) (fun _ _ _ _ => trivial)
    (fun _ _ => trivial)
    (fun h _ => h.takesMinus) (fun _ h ih _ => ih.times h) (fun _ hop h ih _ => ih.over hop h)
    (fun _ => trivial) (fun _ => trivial) (fun _ _ => trivial) (fun _ _ => trivial) (fun _ _ => trivial) ls es h

lemma IsProduct.exists_opposite (h : IsProduct c ls e) :
    ∃ e', IsProduct c (.mark .minus :: ls) e' ∧ Opposite e e' := by
  cases h with
  | ofFactors h =>
    obtain ⟨d, d', rest, rfl, hfactors, hopposite⟩ := h.takesMinus
    exact ⟨_, .ofFactors hfactors, hopposite.collapse rest⟩

lemma AreTerms.ne_nil (h : AreTerms c ls es) : es ≠ [] := by
  cases h <;> simp

end Grammar

namespace Expr

structure IsDifference (e a b : Expr) : Prop where
  isExact : e.isExact = (a.isExact && b.isExact)
  value? : ∀ p, e.value? p = none ↔ a.value? p = none ∨ b.value? p = none
  ideal? : ∀ place, e.ideal? place = (a.ideal? place).bind fun u => (b.ideal? place).map fun v => u - v

lemma Opposite.isDifference {es : List Expr} {b b' : Expr} (h : Opposite b b') (hes : es ≠ []) :
    IsDifference (.sum (es ++ [b'])) (Expr.collapse .sum es) b where
  isExact := by rw [isExact_sum_concat hes, h.isExact]
  value? p := by rw [value?_sum_concat hes, h.value?]
  ideal? place := by
    rw [ideal?_sum_concat hes, h.ideal?]
    congr 1
    funext u
    rw [Option.map_map]
    rfl

lemma exists_difference {c : Constants} {ls ms : List Lexeme} {a b : Expr}
    (ha : Grammar.IsSum c ls a) (hb : Grammar.IsProduct c ms b) :
    ∃ e, Grammar.IsSum c (ls ++ .mark .minus :: ms) e ∧ IsDifference e a b := by
  cases ha with
  | @ofTerms ls es hterms =>
    obtain ⟨b', hb', hopposite⟩ := hb.exists_opposite
    refine ⟨.sum (es ++ [b']), ?_, hopposite.isDifference hterms.ne_nil⟩
    have hsum := Grammar.IsSum.ofTerms (.minus hterms hb')
    obtain ⟨d, rest, rfl⟩ := List.exists_cons_of_ne_nil hterms.ne_nil
    cases rest <;> exact hsum

def IsOneProduct (text : String) : Prop :=
  ∃ tokens, lex text.toList = .ok tokens ∧ Grammar.SignsOnly 0 false (tokens.map Token.lexeme)

section

variable {g : Grid Int32} {e a b : Expr} {p : Point}

section

variable (hx : g.x.WellFormed) (hy : g.y.WellFormed) (hlength : g.y.length = g.x.length)
  (hpos : 0 < g.x.length)

include hx hy hlength hpos

lemma exists_get?_of_evaluate {s : Span Int32} (hs : e.evaluate g = .ok s) {i : Nat} (hp : g.Places i p) :
    ∃ v, s.get? i = some v ∧ e.value? p = some v := by
  have hcomputes := evaluate_points hx hy hlength hpos e
  rw [hs] at hcomputes
  have hpoint : g.points[i]? = some p := Grid.getElem?_points.mpr hp
  obtain ⟨v, hv⟩ := Span.exists_get?_of_lt
    (hcomputes.length_eq ▸ (List.getElem?_eq_some_iff.mp hpoint).1)
  exact ⟨v, hv, (hcomputes.get?_eq hpoint).symm.trans hv⟩

lemma exists_evaluate_iff :
    (∃ s, e.evaluate g = .ok s) ↔ ∀ p ∈ g.points, ¬ e.value? p = none := by
  have hcomputes := evaluate_points hx hy hlength hpos e
  cases hs : e.evaluate g with
  | error fault =>
    rw [hs] at hcomputes
    obtain ⟨p, hp, hnone⟩ := hcomputes
    refine ⟨?_, fun h => absurd hnone (h p hp)⟩
    rintro ⟨s, h⟩
    exact nomatch h
  | ok s =>
    rw [hs] at hcomputes
    refine ⟨fun _ p hp hnone => ?_, fun _ => ⟨s, rfl⟩⟩
    have hmem : none ∈ s.toList.map some := by
      rw [hcomputes.2]
      exact List.mem_map.mpr ⟨p, hp, hnone⟩
    simp at hmem

lemma IsDifference.evaluates_iff (h : IsDifference e a b) :
    (∃ s, e.evaluate g = .ok s) ↔ (∃ s, a.evaluate g = .ok s) ∧ ∃ s, b.evaluate g = .ok s := by
  rw [exists_evaluate_iff hx hy hlength hpos, exists_evaluate_iff hx hy hlength hpos,
    exists_evaluate_iff hx hy hlength hpos, ← forall₂_and]
  simp only [h.value?, not_or]

end

lemma IsDifference.value?_eq (h : IsDifference e a b)
    (ha : a.Fits fun v => (p.coordinate v).toInt) (hb : b.Fits fun v => (p.coordinate v).toInt)
    (he : e.Fits fun v => (p.coordinate v).toInt) {u v w : Int32} (hu : a.value? p = some u)
    (hv : b.value? p = some v) (hw : e.value? p = some w) : w.toInt = u.toInt - v.toInt := by
  have hplace (v : Variable) : p.coordinate v = Int32.ofInt (p.coordinate v).toInt :=
    (Int32.ofInt_toInt _).symm
  rw [value?_eq_ideal? hplace ha, Option.map_eq_some_iff] at hu
  rw [value?_eq_ideal? hplace hb, Option.map_eq_some_iff] at hv
  rw [value?_eq_ideal? hplace he, Option.map_eq_some_iff] at hw
  obtain ⟨u, hu, rfl⟩ := hu
  obtain ⟨v, hv, rfl⟩ := hv
  obtain ⟨w, hw, rfl⟩ := hw
  rw [ha.toInt_ofInt hu, hb.toInt_ofInt hv, he.toInt_ofInt hw]
  rw [h.ideal?, hu, hv] at hw
  exact (Option.some.inj hw).symm

end

/-- A minus between a sum and a product subtracts the whole product. The difference of whole numbers is a
whole number; a frame of it can be evaluated if frames of both can be; and its value is exact at every pixel
where nothing leaves 32 bits on the way. -/
theorem parse_minus (c : Constants) {a p : String} {ea ep : Expr} (ha : Expr.parse c a = .ok ea)
    (hp : Expr.parse c p = .ok ep) (hproduct : IsOneProduct p) (hea : ea.isExact = true)
    (hep : ep.isExact = true) :
    ∃ e, Expr.parse c (a ++ "-" ++ p) = .ok e ∧ e.isExact = true ∧
      ∀ g : Grid Int32, g.x.WellFormed → g.y.WellFormed → g.y.length = g.x.length → 0 < g.x.length →
        ((∃ s, e.evaluate g = .ok s) ↔ (∃ s, ea.evaluate g = .ok s) ∧ ∃ s, ep.evaluate g = .ok s) ∧
        ∀ s sa sp, e.evaluate g = .ok s → ea.evaluate g = .ok sa → ep.evaluate g = .ok sp →
          ∀ i pt, g.Places i pt → (∀ e' ∈ [ea, ep, e], e'.Fits fun v => (pt.coordinate v).toInt) →
          ∃ u v w, sa.get? i = some u ∧ sp.get? i = some v ∧ s.get? i = some w ∧
            w.toInt = u.toInt - v.toInt := by
  obtain ⟨ls, hls, hsum⟩ := Expr.parse_eq_ok_iff.mp ha
  obtain ⟨tokens, hlex, hsigns⟩ := hproduct
  simp only [Expr.parse, hlex, bind, Except.bind] at hp
  have hterm := (Grammar.tree_eq_ok_iff.mp hp).isProduct hsigns
  obtain ⟨e, he, hdifference⟩ := exists_difference hsum hterm
  have htext : Spells (a ++ "-" ++ p).toList (ls ++ .mark .minus :: tokens.map Token.lexeme) := by
    have hjoined := hls.join .minus (.of_lexFrom hlex)
    simpa [Mark.char] using hjoined
  refine ⟨e, Expr.parse_eq_ok_iff.mpr ⟨_, htext, he⟩, by rw [hdifference.isExact, hea, hep]; rfl, ?_⟩
  intro g hx hy hlength hpos
  refine ⟨hdifference.evaluates_iff hx hy hlength hpos, fun s sa sp hs hsa hsp i pt hplaces hfits => ?_⟩
  obtain ⟨u, hget, hu⟩ := exists_get?_of_evaluate hx hy hlength hpos hsa hplaces
  obtain ⟨v, hget', hv⟩ := exists_get?_of_evaluate hx hy hlength hpos hsp hplaces
  obtain ⟨w, hget'', hw⟩ := exists_get?_of_evaluate hx hy hlength hpos hs hplaces
  exact ⟨u, v, w, hget, hget', hget'', hdifference.value?_eq (hfits ea (by simp)) (hfits ep (by simp))
    (hfits e (by simp)) hu hv hw⟩

theorem parse_minus_of_signed_remainder :
    let c : Constants := ⟨4, 3, 9⟩
    let g : Grid Int32 := ⟨.dense [5, 8], .dense [0, 1], 9⟩
    ∃ ea ep e, Expr.parse c "t+1" = .ok ea ∧ Expr.parse c "-x#(y+2)*3" = .ok ep ∧
      IsOneProduct "-x#(y+2)*3" ∧ ea.isExact = true ∧ ep.isExact = true ∧
      Expr.parse c "t+1--x#(y+2)*3" = .ok e ∧ e.isExact = true ∧
      (g.x.WellFormed ∧ g.y.WellFormed ∧ g.y.length = g.x.length ∧ 0 < g.x.length) ∧
      (g.Places 1 ⟨8, 1, 9⟩ ∧
        ∀ e' ∈ [ea, ep, e], e'.Fits fun v => ((⟨8, 1, 9⟩ : Point).coordinate v).toInt) ∧
      ∃ s sa sp, e.evaluate g = .ok s ∧ ea.evaluate g = .ok sa ∧ ep.evaluate g = .ok sp ∧
        ∃ u v w, sa.get? 1 = some u ∧ sp.get? 1 = some v ∧ s.get? 1 = some w ∧
          w.toInt = u.toInt - v.toInt ∧ w = 16 := by
  intro c g
  let ea : Expr := .sum [.var .t, .literal (.int 1)]
  let product (x : Expr) : Expr := .product [.quotient .remainder x
    (.sum [.var .y, .literal (.int 2)]), .literal (.int 3)]
  let ep : Expr := product (.negate (.var .x))
  let e : Expr := .sum [.var .t, .literal (.int 1), product (.negate (.negate (.var .x)))]
  have ha : Expr.parse c "t+1" = .ok ea := by with_unfolding_all rfl
  have hp : Expr.parse c "-x#(y+2)*3" = .ok ep := by with_unfolding_all rfl
  have hparse : Expr.parse c "t+1--x#(y+2)*3" = .ok e := by with_unfolding_all rfl
  have hproduct : IsOneProduct "-x#(y+2)*3" := by
    refine ⟨_, (by with_unfolding_all rfl : lex "-x#(y+2)*3".toList = .ok _), ?_⟩
    simp [Grammar.SignsOnly]
  have hplaces : g.Places 1 ⟨8, 1, 9⟩ := ⟨rfl, rfl, rfl⟩
  have hfits : ∀ e' ∈ [ea, ep, e],
      e'.Fits fun v => ((⟨8, 1, 9⟩ : Point).coordinate v).toInt := by decide +kernel
  obtain ⟨e', he', hexact, hevaluate⟩ := parse_minus c ha hp hproduct rfl rfl
  obtain rfl : e' = e := Except.ok.inj (he'.symm.trans hparse)
  obtain ⟨-, hpixels⟩ := hevaluate g trivial trivial rfl (by decide)
  have hs : e.evaluate g = .ok (.dense [13, 16]) := by
    subst g e product
    with_unfolding_all rfl
  obtain ⟨u, v, w, hu, hv, hw, hdifference⟩ := hpixels _ _ _ hs rfl rfl 1 _ hplaces hfits
  exact ⟨ea, ep, e, ha, hp, hproduct, rfl, rfl, hparse, hexact, ⟨trivial, trivial, rfl, by decide⟩,
    ⟨hplaces, hfits⟩, _, _, _, hs, rfl, rfl, u, v, w, hu, hv, hw, hdifference,
    (Option.some.inj hw).symm⟩

end Expr

end VideoRemap

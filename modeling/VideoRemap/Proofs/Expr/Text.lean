import Mathlib.Data.List.TakeWhile
import VideoRemap.Proofs.Expr.Spelling

namespace VideoRemap

def Literal.IsPlain : Literal → Prop
  | .int v => 0 ≤ v
  | .decimal _ => False

def Constants.ArePlain (c : Constants) : Prop := 0 ≤ c.width ∧ 0 ≤ c.height ∧ 0 ≤ c.length

def Lexeme.IsPlain : Lexeme → Prop
  | .number v => v.IsPlain
  | _ => True

inductive Expr.IsReadable : Expr → Prop
  | var {v} : IsReadable (.var v)
  | literal {v : Literal} : v.IsPlain → IsReadable (.literal v)
  | negate {e} : IsReadable e → IsReadable e.negate
  | sum {es} : 2 ≤ es.length → (∀ e ∈ es, IsReadable e) → IsReadable (.sum es)
  | product {es} : 2 ≤ es.length → (∀ e ∈ es, IsReadable e) → IsReadable (.product es)
  | quotient {op l r} : IsReadable l → IsReadable r → IsReadable (.quotient op l r)

section

variable {cs : List Char} {ls ms : List Lexeme}

lemma Digits.isPlain_of_literal {d : Digits} {v : Literal} (h : d.literal? = some v)
    (hpoint : '.' ∉ d.spelling) : v.IsPlain := by
  cases hplaces : d.places with
  | some places =>
    rw [Digits.spelling, hplaces] at hpoint
    simp at hpoint
  | none =>
    simp only [Digits.literal?, hplaces] at h
    split at h
    case isTrue hlt =>
      cases h
      exact Int32.zero_le_ofNat_of_lt hlt
    case isFalse => cases h

lemma Spells.isPlain (h : Spells cs ls) (hpoint : '.' ∉ cs) : ∀ l ∈ ls, l.IsPlain := by
  induction h with
  | nil => exact fun _ hl => nomatch hl
  | blank _ _ ih => exact ih fun hc => hpoint (List.mem_cons_of_mem _ hc)
  | @number c cs v ls _ hv _ ih =>
    rw [← Digits.spelling_ofFront (c :: cs), List.mem_append, not_or] at hpoint
    exact List.forall_mem_cons.mpr ⟨Digits.isPlain_of_literal hv hpoint.1, ih hpoint.2⟩
  | letter _ _ ih =>
    exact List.forall_mem_cons.mpr ⟨trivial, ih fun hc => hpoint (List.mem_cons_of_mem _ hc)⟩
  | mark _ _ ih =>
    exact List.forall_mem_cons.mpr ⟨trivial, ih fun hc => hpoint (List.mem_cons_of_mem _ hc)⟩

lemma spells_digits {n : Nat} (h : n < 0x80000000) :
    Spells (Nat.toDigits 10 n) [.number (.int (Int32.ofNat n))] := by
  have hdigits : ∀ c ∈ Nat.toDigits 10 n, c.isDigit = true :=
    fun c hc => Nat.isDigit_of_mem_toDigits (by decide) (by decide) hc
  have hfront : Digits.ofFront (Nat.toDigits 10 n) = ⟨Nat.toDigits 10 n, none, []⟩ := by
    rw [Digits.ofFront, List.takeWhile_eq_self_iff.mpr hdigits, List.dropWhile_eq_nil_iff.mpr hdigits]
    rfl
  have hliteral : (Digits.ofFront (Nat.toDigits 10 n)).literal? = some (.int (Int32.ofNat n)) := by
    rw [hfront]
    simp only [Digits.literal?, Nat.ofDigitChars_toDigits (b := 10) (by decide) (by decide), if_pos h]
  have hrest : Spells (Digits.ofFront (Nat.toDigits 10 n)).rest [] := by
    rw [hfront]
    exact .nil
  cases hcs : Nat.toDigits 10 n with
  | nil => exact absurd hcs Nat.toDigits_ne_nil
  | cons c cs =>
    rw [hcs] at hdigits hliteral hrest
    exact .number (hdigits c List.mem_cons_self) hliteral hrest

lemma spells_intText {v : Int32} (h : 0 ≤ v) :
    Spells (Number.intText v.toInt) [.number (.int v)] := by
  have hnonneg : 0 ≤ v.toInt := Int32.le_iff_toInt_le.mp h
  have hlt : v.toInt.natAbs < 0x80000000 := by
    have := v.toInt_lt
    omega
  have hv : Int32.ofNat v.toInt.natAbs = v := by
    apply Int32.toInt_inj.mp
    rw [Int32.toInt_ofNat_of_lt hlt]
    omega
  have hdigits := spells_digits hlt
  rw [hv] at hdigits
  rwa [Number.intText, if_neg (by omega)]

end

namespace Grammar

variable {c : Constants} {ls : List Lexeme} {es : List Expr} {e : Expr}

lemma isReadable_symbol (hc : c.ArePlain) {l : Char} (h : c.symbol? l = some e) : e.IsReadable := by
  simp only [Constants.symbol?] at h
  split at h <;> cases h
  case h_5 => exact .literal hc.1
  case h_6 => exact .literal hc.2.1
  case h_7 => exact .literal hc.2.2
  all_goals exact .var

def Readably (ls : List Lexeme) (e : Expr) : Prop := (∀ l ∈ ls, l.IsPlain) → e.IsReadable

def AllReadably (ls : List Lexeme) (es : List Expr) : Prop :=
  (∀ l ∈ ls, l.IsPlain) → es ≠ [] ∧ ∀ e ∈ es, e.IsReadable

lemma isPlain_behind_mark {m : Mark} (h : ∀ l ∈ .mark m :: ls, l.IsPlain) : ∀ l ∈ ls, l.IsPlain :=
  (List.forall_mem_cons.mp h).2

lemma isPlain_around_mark {m : Mark} (h : ∀ l ∈ ls ++ .mark m :: ms, l.IsPlain) :
    (∀ l ∈ ls, l.IsPlain) ∧ ∀ l ∈ ms, l.IsPlain :=
  ⟨(List.forall_mem_append.mp h).1, isPlain_behind_mark (List.forall_mem_append.mp h).2⟩

lemma Readably.first (h : Readably ls e) : AllReadably ls [e] :=
  fun hls => ⟨List.cons_ne_nil _ _, List.forall_mem_singleton.mpr (h hls)⟩

lemma AllReadably.next {m : Mark} (h : AllReadably ls es) (h' : Readably ms e) :
    AllReadably (ls ++ .mark m :: ms) (es ++ [e]) := by
  intro hplain
  obtain ⟨hls, hms⟩ := isPlain_around_mark hplain
  refine ⟨by simp, List.forall_mem_append.mpr ⟨(h hls).2, ?_⟩⟩
  exact List.forall_mem_singleton.mpr (h' hms)

lemma AllReadably.over {m : Mark} {op : Quotient} {d : Expr} (h : AllReadably ls (es ++ [d]))
    (h' : Readably ms e) : AllReadably (ls ++ .mark m :: ms) (es ++ [.quotient op d e]) := by
  intro hplain
  obtain ⟨hls, hms⟩ := isPlain_around_mark hplain
  obtain ⟨hes, hd⟩ := List.forall_mem_append.mp (h hls).2
  refine ⟨by simp, List.forall_mem_append.mpr ⟨hes, ?_⟩⟩
  exact List.forall_mem_singleton.mpr (.quotient (List.forall_mem_singleton.mp hd) (h' hms))

lemma AllReadably.collapse {operation : List Expr → Expr} (h : AllReadably ls es)
    (hop : ∀ {es}, 2 ≤ es.length → (∀ e ∈ es, e.IsReadable) → (operation es).IsReadable) :
    Readably ls (Expr.collapse operation es) := by
  intro hls
  obtain ⟨hne, hall⟩ := h hls
  match es with
  | [] => exact absurd rfl hne
  | [e] => exact hall e List.mem_cons_self
  | e :: e' :: es => exact hop (by simp) hall

lemma IsSum.readably (hc : c.ArePlain) (h : IsSum c ls e) : Readably ls e :=
  @IsSum.rec c (fun ls e _ => Readably ls e) (fun ls es _ => AllReadably ls es)
    (fun ls e _ => Readably ls e) (fun ls es _ => AllReadably ls es) (fun ls e _ => Readably ls e)
    (fun _ ih => ih.collapse .sum)
    (fun _ ih => ih.first) (fun _ _ ih ih' => ih.next ih')
    (fun _ _ ih ih' => ih.next fun hms => ih' (List.forall_mem_cons.mpr ⟨trivial, hms⟩))
    (fun _ ih => ih.collapse .product)
    (fun _ ih => ih.first) (fun _ _ ih ih' => ih.next ih') (fun _ _ _ ih ih' => ih.over ih')
    (fun _ hplain => .literal (hplain _ List.mem_cons_self))
    (fun h _ => isReadable_symbol hc h)
    (fun _ ih hplain => ih (isPlain_around_mark (isPlain_behind_mark hplain)).1)
    (fun _ ih hplain => ih (isPlain_behind_mark hplain))
    (fun _ ih hplain => .negate (ih (isPlain_behind_mark hplain))) ls e h

def ReadsBack (c : Constants) (e : Expr) : Prop := ∃ ls, IsFactor c ls e ∧ Spells e.chars ls

section

variable {cs : List Char}

lemma joined_cons (sep : Char) (e : Expr) (es : List Expr) :
    Expr.joined sep (e :: es) = e.chars ++ es.flatMap fun e => sep :: e.chars := by
  induction es generalizing e with
  | nil => simp [Expr.joined]
  | cons e' es ih => simp [Expr.joined, ih]

lemma exists_lexemes_of_operands (Are : List Lexeme → List Expr → Prop) (m : Mark)
    (next : ∀ {ls es ms e}, Are ls es → IsFactor c ms e → Are (ls ++ .mark m :: ms) (es ++ [e]))
    (hls : Are ls es) (hcs : Spells cs ls) {more : List Expr} (hmore : ∀ e ∈ more, ReadsBack c e) :
    ∃ ls', Are ls' (es ++ more) ∧ Spells (cs ++ more.flatMap fun e => m.char :: e.chars) ls' := by
  induction more generalizing ls es cs with
  | nil => exact ⟨ls, by simpa using hls, by simpa using hcs⟩
  | cons e more ih =>
    obtain ⟨⟨ms, hms, hchars⟩, hmore⟩ := List.forall_mem_cons.mp hmore
    simpa using ih (next hls hms) (hcs.join m hchars) hmore

lemma IsSum.readsBack (h : IsSum c ls e) (hcs : Spells cs ls) (hchars : e.chars = '(' :: cs ++ [')']) :
    ReadsBack c e := by
  refine ⟨.mark .openParen :: ls ++ [.mark .closeParen], .paren h, ?_⟩
  rw [hchars]
  exact (hcs.cons_mark .openParen).join .closeParen .nil

end

lemma isProduct_of_factor (h : IsFactor c ls e) : IsProduct c ls e := .ofFactors (.first h)

lemma isSum_of_factor (h : IsFactor c ls e) : IsSum c ls e := .ofTerms (.first (isProduct_of_factor h))

lemma ReadsBack.sum (hes : 2 ≤ es.length) (h : ∀ e ∈ es, ReadsBack c e) : ReadsBack c (.sum es) := by
  match es with
  | e :: e' :: es =>
    obtain ⟨⟨ls, hls, hchars⟩, hmore⟩ := List.forall_mem_cons.mp h
    obtain ⟨ls, hterms, hspells⟩ := exists_lexemes_of_operands (AreTerms c) .plus
      (fun h h' => .plus h (isProduct_of_factor h')) (.first (isProduct_of_factor hls)) hchars hmore
    exact IsSum.readsBack (.ofTerms hterms) hspells (by rw [Expr.chars, joined_cons]; rfl)

lemma ReadsBack.product (hes : 2 ≤ es.length) (h : ∀ e ∈ es, ReadsBack c e) :
    ReadsBack c (.product es) := by
  match es with
  | e :: e' :: es =>
    obtain ⟨⟨ls, hls, hchars⟩, hmore⟩ := List.forall_mem_cons.mp h
    obtain ⟨ls, hfactors, hspells⟩ := exists_lexemes_of_operands (AreFactors c) .star
      .times (.first hls) hchars hmore
    exact IsSum.readsBack (.ofTerms (.first (.ofFactors hfactors))) hspells
      (by rw [Expr.chars, joined_cons]; rfl)

lemma exists_mark_of_quotient (op : Quotient) : ∃ m : Mark, m.quotient? = some op ∧ m.char = op.symbol := by
  cases op
  · exact ⟨.slash, rfl, rfl⟩
  · exact ⟨.hash, rfl, rfl⟩
  · exact ⟨.underscore, rfl, rfl⟩

lemma ReadsBack.quotient {l r : Expr} (op : Quotient) (hl : ReadsBack c l) (hr : ReadsBack c r) :
    ReadsBack c (.quotient op l r) := by
  obtain ⟨ls, hls, hlchars⟩ := hl
  obtain ⟨ms, hms, hrchars⟩ := hr
  obtain ⟨m, hop, hsymbol⟩ := exists_mark_of_quotient op
  have hfirst : AreFactors c ls ([] ++ [l]) := .first hls
  have hfactors : AreFactors c (ls ++ .mark m :: ms) ([] ++ [.quotient op l r]) :=
    .over hfirst hop hms
  exact IsSum.readsBack (.ofTerms (.first (.ofFactors hfactors))) (hlchars.join m hrchars)
    (by rw [Expr.chars, hsymbol]; simp)

lemma ReadsBack.negate (h : ReadsBack c e) : ReadsBack c e.negate := by
  obtain ⟨ls, hls, hchars⟩ := h
  refine ⟨.mark .minus :: ls, .minus hls, ?_⟩
  rw [Expr.negate, Expr.chars, if_pos rfl]
  exact hchars.cons_mark .minus

lemma readsBack_var (v : Variable) : ReadsBack c (.var v) := by
  cases v
  all_goals exact ⟨_, .letter rfl, .letter (by decide) .nil⟩

lemma readsBack_literal {v : Literal} (h : v.IsPlain) : ReadsBack c (.literal v) := by
  cases v with
  | int v => exact ⟨_, .number _, spells_intText h⟩
  | decimal v => exact h.elim

lemma readsBack_of_isReadable (c : Constants) (h : e.IsReadable) : ReadsBack c e := by
  induction h with
  | var => exact readsBack_var _
  | literal hv => exact readsBack_literal hv
  | negate _ ih => exact ih.negate
  | sum hes _ ih => exact .sum hes ih
  | product hes _ ih => exact .product hes ih
  | quotient _ _ ihl ihr => exact .quotient _ ihl ihr

end Grammar

/-- Without decimals, what is written is read back as it was, whatever parentheses and signs stood in the
text that it was read from. -/
theorem Expr.parse_text (c : Constants) (hwidth : 0 ≤ c.width) (hheight : 0 ≤ c.height)
    (hlength : 0 ≤ c.length) (text : String) (hpoint : '.' ∉ text.toList) (e : Expr)
    (h : Expr.parse c text = .ok e) : Expr.parse c e.text = .ok e := by
  obtain ⟨ls, hspells, hsum⟩ := Expr.parse_eq_ok_iff.mp h
  have hreadable : e.IsReadable := hsum.readably ⟨hwidth, hheight, hlength⟩ (hspells.isPlain hpoint)
  obtain ⟨ms, hfactor, hchars⟩ := Grammar.readsBack_of_isReadable c hreadable
  refine Expr.parse_eq_ok_iff.mpr ⟨ms, ?_, Grammar.isSum_of_factor hfactor⟩
  rwa [Expr.text, String.toList_ofList]

theorem Expr.parse_text_of_nested :
    let c : Constants := ⟨4, 3, 9⟩
    let text := "-(x-2)*y#-(w_3)/t--5+((h))"
    let e : Expr := .sum [
      .product [.negate (.sum [.var .x, .negate (.literal (.int 2))]),
        .quotient .divide (.quotient .remainder (.var .y)
          (.negate (.quotient .align (.literal (.int 4)) (.literal (.int 3))))) (.var .t)],
      .negate (.negate (.literal (.int 5))), .literal (.int 3)]
    (0 ≤ c.width ∧ 0 ≤ c.height ∧ 0 ≤ c.length) ∧ '.' ∉ text.toList ∧ parse c text = .ok e ∧
      e.text = "((-(x+-2)*((y#-(4_3))/t))+--5+3)" ∧ parse c e.text = .ok e := by
  intro c text e
  have hpoint : '.' ∉ text.toList := by decide
  have hparse : parse c text = .ok e := by
    subst c text e
    with_unfolding_all rfl
  have hback := parse_text c (by decide) (by decide) (by decide) text hpoint e hparse
  exact ⟨by decide, hpoint, hparse, by decide +kernel, hback⟩

end VideoRemap

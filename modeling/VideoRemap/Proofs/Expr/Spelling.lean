import VideoRemap.Proofs.Expr.Parser
import VideoRemap.Proofs.Traversal

/-!
Texts and their lexemes, without the places. Where a text is cut in front of a mark, its lexemes are cut
there too, and two texts with a mark between them can be joined.
-/

namespace VideoRemap

inductive Spells : List Char → List Lexeme → Prop
  | nil : Spells [] []
  | blank {c cs ls} : isBlank c = true → Spells cs ls → Spells (c :: cs) ls
  | number {c cs v ls} : c.isDigit = true → (Digits.ofFront (c :: cs)).literal? = some v →
      Spells (Digits.ofFront (c :: cs)).rest ls → Spells (c :: cs) (.number v :: ls)
  | letter {c cs ls} : c.isAlpha = true → Spells cs ls → Spells (c :: cs) (.letter c :: ls)
  | mark {c cs m ls} : Mark.ofChar? c = some m → Spells cs ls → Spells (c :: cs) (.mark m :: ls)

def EndsNumber (cs : List Char) : Prop := ∀ c ∈ cs.head?, c.isDigit = false ∧ c ≠ '.'

section

variable {c : Char} {m : Mark}

lemma Mark.ofChar?_eq_some : Mark.ofChar? c = some m ↔ c = m.char := by
  constructor
  · intro h
    simp only [Mark.ofChar?] at h
    split at h <;> cases h <;> rfl
  · rintro rfl
    cases m <;> rfl

lemma Mark.not_isDigit_char (m : Mark) : m.char.isDigit = false := by
  cases m <;> rfl

lemma Mark.not_isAlpha_char (m : Mark) : m.char.isAlpha = false := by
  cases m <;> rfl

lemma Mark.not_isBlank_char (m : Mark) : isBlank m.char = false := by
  cases m <;> rfl

lemma not_blank_of_alphanumeric (h : c.isAlphanum = true) : isBlank c = false := by
  rw [← Bool.not_eq_true]
  intro hblank
  simp only [isBlank, Bool.or_eq_true, beq_iff_eq] at hblank
  rcases hblank with (((rfl | rfl) | rfl) | rfl) | rfl <;> exact absurd h (by decide)

lemma toNat_of_isAlpha (h : c.isAlpha = true) :
    (65 ≤ c.toNat ∧ c.toNat ≤ 90) ∨ (97 ≤ c.toNat ∧ c.toNat ≤ 122) := by
  change (decide (65 ≤ c.val ∧ c.val ≤ 90) || (decide (97 ≤ c.val) && decide (c.val ≤ 122))) = true at h
  simp only [Bool.or_eq_true, Bool.and_eq_true, decide_eq_true_eq, UInt32.le_iff_toNat_le] at h
  exact h

lemma not_digit_of_alpha (h : c.isAlpha = true) : c.isDigit = false := by
  rw [← Bool.not_eq_true]
  intro hdigit
  have halpha := toNat_of_isAlpha h
  obtain ⟨hzero, hnine⟩ := Char.isDigit_iff_toNat.mp hdigit
  change 48 ≤ c.toNat at hzero
  change c.toNat ≤ 57 at hnine
  omega

end

lemma endsNumber_mark (m : Mark) (cs : List Char) : EndsNumber (m.char :: cs) := by
  intro c hc
  obtain rfl := Option.some_inj.mp hc
  exact ⟨m.not_isDigit_char, by cases m <;> decide⟩

section

variable {cs cs' : List Char}

lemma EndsNumber.takeWhile_append (h : EndsNumber cs') :
    (cs ++ cs').takeWhile Char.isDigit = cs.takeWhile Char.isDigit := by
  induction cs with
  | nil =>
    cases cs' with
    | nil => rfl
    | cons c cs' => simp [(h c rfl).1]
  | cons c cs ih => by_cases hc : c.isDigit <;> simp [hc, ih]

lemma EndsNumber.dropWhile_append (h : EndsNumber cs') :
    (cs ++ cs').dropWhile Char.isDigit = cs.dropWhile Char.isDigit ++ cs' := by
  induction cs with
  | nil =>
    cases cs' with
    | nil => rfl
    | cons c cs' => simp [(h c rfl).1]
  | cons c cs ih => by_cases hc : c.isDigit <;> simp [hc, ih]

lemma EndsNumber.before_append (h : EndsNumber cs') (whole rest : List Char) :
    Digits.before whole (rest ++ cs') =
      { Digits.before whole rest with rest := (Digits.before whole rest).rest ++ cs' } := by
  match rest with
  | [] =>
    match cs' with
    | [] => rfl
    | c :: cs' => simp [Digits.before, (h c rfl).2]
  | c :: rest =>
    by_cases hpoint : c = '.'
    · subst hpoint
      simp only [List.cons_append, Digits.before, h.takeWhile_append, h.dropWhile_append]
    · simp [Digits.before, hpoint]

lemma EndsNumber.ofFront_append (h : EndsNumber cs') : Digits.ofFront (cs ++ cs') =
    { Digits.ofFront cs with rest := (Digits.ofFront cs).rest ++ cs' } := by
  rw [Digits.ofFront, h.takeWhile_append, h.dropWhile_append, h.before_append]
  rfl

lemma exists_ofFront_eq {m : Mark} {rest : List Char}
    (h : (Digits.ofFront cs).rest = rest ++ m.char :: cs') : ∃ cs₁, cs = cs₁ ++ m.char :: cs' ∧
      Digits.ofFront cs₁ = { Digits.ofFront cs with rest := rest } := by
  obtain ⟨cs₁, rfl⟩ : ∃ cs₁, cs = cs₁ ++ m.char :: cs' :=
    ⟨(Digits.ofFront cs).spelling ++ rest, by rw [List.append_assoc, ← h, Digits.spelling_ofFront]⟩
  rw [(endsNumber_mark m cs').ofFront_append] at h ⊢
  obtain rfl := List.append_cancel_right h
  exact ⟨cs₁, rfl, rfl⟩

end

namespace Spells

variable {cs cs' : List Char} {ls ms : List Lexeme} {m : Mark}

lemma of_lexFrom {pos : Nat} {tokens : List Token} (h : lexFrom pos cs = .ok tokens) :
    Spells cs (tokens.map Token.lexeme) := by
  induction pos, cs using lexFrom.induct generalizing tokens with
  | case1 pos =>
    rw [lexFrom] at h
    obtain rfl := Except.ok.inj h
    exact .nil
  | case2 pos c cs hblank ih =>
    rw [lexFrom, if_pos hblank] at h
    exact .blank hblank (ih h)
  | case3 pos c cs hblank hdigit =>
    rename_i d hnone
    have hliteral : (Digits.ofFront (c :: cs)).literal? = none := hnone
    simp only [lexFrom, if_neg hblank, if_pos hdigit, hliteral] at h
    cases h
  | case4 pos c cs hblank hdigit =>
    rename_i d stop v hv ih
    have hliteral : (Digits.ofFront (c :: cs)).literal? = some v := hv
    simp only [lexFrom, if_neg hblank, if_pos hdigit, hliteral] at h
    obtain ⟨tokens, hlex, rfl⟩ := Traversal.map_eq_ok_iff.mp h
    exact .number hdigit hv (ih hlex)
  | case5 pos c cs hblank hdigit halpha ih =>
    rw [lexFrom, if_neg hblank, if_neg hdigit, if_pos halpha] at h
    obtain ⟨tokens, hlex, rfl⟩ := Traversal.map_eq_ok_iff.mp h
    exact .letter halpha (ih hlex)
  | case6 pos c cs hblank hdigit halpha m hm ih =>
    simp only [lexFrom, if_neg hblank, if_neg hdigit, if_neg halpha, hm] at h
    obtain ⟨tokens, hlex, rfl⟩ := Traversal.map_eq_ok_iff.mp h
    exact .mark hm (ih hlex)
  | case7 pos c cs hblank hdigit halpha hnone =>
    simp only [lexFrom, if_neg hblank, if_neg hdigit, if_neg halpha, hnone] at h
    cases h

lemma exists_lexFrom (h : Spells cs ls) (pos : Nat) :
    ∃ tokens, lexFrom pos cs = .ok tokens ∧ tokens.map Token.lexeme = ls := by
  induction h generalizing pos with
  | nil => exact ⟨[], by rw [lexFrom], rfl⟩
  | blank hc _ ih =>
    obtain ⟨tokens, hlex, rfl⟩ := ih (pos + 1)
    exact ⟨tokens, by rw [lexFrom, if_pos hc, hlex], rfl⟩
  | @number c cs v ls hc hv _ ih =>
    have hblank := not_blank_of_alphanumeric (c := c) (by simp [Char.isAlphanum, hc])
    let stop := pos + (Digits.ofFront (c :: cs)).spelling.length
    obtain ⟨tokens, hlex, rfl⟩ := ih stop
    refine ⟨⟨.number v, pos, stop⟩ :: tokens, ?_, rfl⟩
    simp only [lexFrom, hblank, hc, hv, stop, hlex, Bool.false_eq_true, if_false, if_true]
    rfl
  | @letter c cs ls hc _ ih =>
    have hblank := not_blank_of_alphanumeric (c := c) (by simp [Char.isAlphanum, hc])
    obtain ⟨tokens, hlex, rfl⟩ := ih (pos + 1)
    refine ⟨⟨.letter c, pos, pos + 1⟩ :: tokens, ?_, rfl⟩
    simp only [lexFrom, hblank, not_digit_of_alpha hc, hc, hlex, Bool.false_eq_true, if_false, if_true]
    rfl
  | @mark c cs m ls hm _ ih =>
    obtain rfl := Mark.ofChar?_eq_some.mp hm
    obtain ⟨tokens, hlex, rfl⟩ := ih (pos + 1)
    refine ⟨⟨.mark m, pos, pos + 1⟩ :: tokens, ?_, rfl⟩
    simp only [lexFrom, m.not_isBlank_char, m.not_isDigit_char, m.not_isAlpha_char, hm, hlex,
      Bool.false_eq_true, if_false]
    rfl

lemma cons_mark (m : Mark) (h : Spells cs ls) : Spells (m.char :: cs) (.mark m :: ls) :=
  .mark (Mark.ofChar?_eq_some.mpr rfl) h

lemma blanks {bs : List Char} (hbs : ∀ b ∈ bs, isBlank b = true) (h : Spells cs ls) :
    Spells (bs ++ cs) ls := by
  induction bs with
  | nil => exact h
  | cons b bs ih =>
    exact .blank (hbs b List.mem_cons_self) (ih fun c hc => hbs c (List.mem_cons_of_mem _ hc))

lemma nil_iff : Spells cs [] ↔ ∀ c ∈ cs, isBlank c = true := by
  constructor
  · intro h
    generalize hls : ([] : List Lexeme) = ls at h
    induction h with
    | nil => exact fun c hc => nomatch hc
    | blank hc _ ih => exact List.forall_mem_cons.mpr ⟨hc, ih hls⟩
    | _ => cases hls
  · intro h
    rw [← List.append_nil cs]
    exact .blanks h .nil

lemma append (h : Spells cs ls) (h' : Spells cs' ms) (hend : EndsNumber cs') :
    Spells (cs ++ cs') (ls ++ ms) := by
  induction h with
  | nil => exact h'
  | blank hc _ ih => exact .blank hc ih
  | @number c cs v ls hc hv _ ih =>
    have hfront : Digits.ofFront (c :: cs ++ cs') = _ := hend.ofFront_append
    apply Spells.number hc
    · exact (congrArg Digits.literal? hfront).trans hv
    · exact hfront ▸ ih
  | letter hc _ ih => exact .letter hc ih
  | mark hm _ ih => exact .mark hm ih

lemma join (h : Spells cs ls) (m : Mark) (h' : Spells cs' ms) :
    Spells (cs ++ m.char :: cs') (ls ++ .mark m :: ms) :=
  h.append (h'.cons_mark m) (endsNumber_mark m cs')

lemma exists_cut (h : Spells cs (ls ++ .mark m :: ms)) :
    ∃ cs₁ cs₂, cs = cs₁ ++ m.char :: cs₂ ∧ Spells cs₁ ls ∧ Spells cs₂ ms := by
  generalize hall : ls ++ .mark m :: ms = all at h
  induction h generalizing ls with
  | nil => simp at hall
  | @blank c cs all hc _ ih =>
    obtain ⟨cs₁, cs₂, rfl, h₁, h₂⟩ := ih hall
    exact ⟨c :: cs₁, cs₂, rfl, .blank hc h₁, h₂⟩
  | @number c cs v all hc hv _ ih =>
    cases ls with
    | nil => cases hall
    | cons l ls =>
      obtain ⟨rfl, rfl⟩ := List.cons.inj hall
      obtain ⟨rest, cs₂, hrest, h₁, h₂⟩ := ih rfl
      obtain ⟨cs₁, hcs, hfront⟩ := exists_ofFront_eq hrest
      cases cs₁ with
      | nil =>
        obtain rfl := (List.cons.inj hcs).1
        exact absurd hc (by simp [m.not_isDigit_char])
      | cons d cs₁ =>
        obtain ⟨rfl, rfl⟩ := List.cons.inj hcs
        refine ⟨c :: cs₁, cs₂, rfl, .number hc ?_ ?_, h₂⟩
        · exact (congrArg Digits.literal? hfront).trans hv
        · rw [hfront]
          exact h₁
  | @letter c cs all hc _ ih =>
    cases ls with
    | nil => cases hall
    | cons l ls =>
      obtain ⟨rfl, rfl⟩ := List.cons.inj hall
      obtain ⟨cs₁, cs₂, rfl, h₁, h₂⟩ := ih rfl
      exact ⟨c :: cs₁, cs₂, rfl, .letter hc h₁, h₂⟩
  | @mark c cs m' all hm h ih =>
    obtain rfl := Mark.ofChar?_eq_some.mp hm
    cases ls with
    | nil =>
      cases hall
      exact ⟨[], cs, rfl, .nil, h⟩
    | cons l ls =>
      obtain ⟨rfl, rfl⟩ := List.cons.inj hall
      obtain ⟨cs₁, cs₂, rfl, h₁, h₂⟩ := ih rfl
      exact ⟨m'.char :: cs₁, cs₂, rfl, .mark hm h₁, h₂⟩

end Spells

lemma lex_eq_ok_iff {cs : List Char} {ls : List Lexeme} :
    (∃ tokens, lex cs = .ok tokens ∧ tokens.map Token.lexeme = ls) ↔ Spells cs ls := by
  constructor
  · rintro ⟨tokens, hlex, rfl⟩
    exact .of_lexFrom hlex
  · exact fun h => h.exists_lexFrom 0

lemma Expr.parse_eq_ok_iff {c : Constants} {text : String} {e : Expr} : Expr.parse c text = .ok e ↔
    ∃ ls, Spells text.toList ls ∧ Grammar.IsSum c ls e := by
  simp only [Expr.parse, Traversal.bind_eq_ok_iff, ← lex_eq_ok_iff]
  constructor
  · rintro ⟨tokens, hlex, htree⟩
    exact ⟨_, ⟨tokens, hlex, rfl⟩, Grammar.tree_eq_ok_iff.mp htree⟩
  · rintro ⟨_, ⟨tokens, hlex, rfl⟩, hsum⟩
    exact ⟨tokens, hlex, hsum.tree_eq⟩

end VideoRemap

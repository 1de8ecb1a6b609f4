import Mathlib.Algebra.Group.Nat.Defs
import Mathlib.Data.List.TakeWhile
import Mathlib.Tactic.Tauto
import VideoRemap.Proofs.Expr.Triplet

/-!
Where tokens and errors stand in a text. The tokens are pieces of the text with blanks between them, and
every reported offset is one at which a character begins or the text ends.
-/

namespace VideoRemap

open VideoRemap.Parser

inductive Lexeme.Spelled : Lexeme → List Char → Prop
  | letter {c} : c.isAlpha = true → Spelled (.letter c) [c]
  | mark (m) : Spelled (.mark m) [m.char]
  | int {ds} : ds ≠ [] → (∀ c ∈ ds, c.isDigit = true) → Nat.ofDigitChars 10 ds 0 < 2 ^ 31 →
      Spelled (.number (.int (Int32.ofNat (Nat.ofDigitChars 10 ds 0)))) ds
  | decimal {whole places} : whole ≠ [] → (∀ c ∈ whole, c.isDigit = true) →
      (∀ c ∈ places, c.isDigit = true) →
      Spelled (.number (.decimal (Float32.ofScientific (Nat.ofDigitChars 10 (whole ++ places) 0) true
        places.length))) (whole ++ '.' :: places)

/-- The bytes of the token spell its lexeme, and a number goes on neither in front of them nor behind. -/
def Token.Stands (t : Token) (text : List Char) : Prop :=
  ∃ before word behind, text = before ++ word ++ behind ∧ t.start = byteCount before ∧
    t.stop = byteCount (before ++ word) ∧ t.lexeme.Spelled word ∧
    ∀ v, t.lexeme = .number v → EndsNumber before.reverse ∧ EndsNumber behind

structure Tiling (text : List Char) (tokens : List Token) : Prop where
  nonempty : ∀ t ∈ tokens, t.start < t.stop
  ascending : tokens.Pairwise fun t u => t.stop ≤ u.start
  stands : ∀ t ∈ tokens, t.Stands text
  blank : ∀ before c behind, text = before ++ c :: behind →
    (∀ t ∈ tokens, byteCount before < t.start ∨ t.stop ≤ byteCount before) → isBlank c = true

inductive Refused : List Char → ExprProblem → Prop
  | number {ds behind} : ds ≠ [] → (∀ c ∈ ds, c.isDigit = true) → 2 ^ 31 ≤ Nat.ofDigitChars 10 ds 0 →
      EndsNumber behind → Refused (ds ++ behind) .integerOutOfRange
  | character {c behind} : isBlank c = false → (∀ l cs, ¬ Lexeme.Spelled l (c :: cs)) →
      Refused (c :: behind) (.unexpectedCharacter c)

inductive Tiled : List Char → List Char → List Token → Prop
  | nil {before} : Tiled before [] []
  | blank {before c cs ts} : isBlank c = true → Tiled (before ++ [c]) cs ts → Tiled before (c :: cs) ts
  | token {before l word cs ts} : l.Spelled word →
      (∀ v, l = .number v → EndsNumber before.reverse ∧ ∀ c ∈ cs.head?, c.isDigit = false) →
      Tiled (before ++ word) cs ts →
      Tiled before (word ++ cs) (⟨l, byteCount before, byteCount (before ++ word)⟩ :: ts)

section

variable {before cs cs' word : List Char} {c : Char} {l : Lexeme} {ts : List Token} {t : Token}

lemma byteCount_append : byteCount (cs ++ cs') = byteCount cs + byteCount cs' := by
  induction cs with
  | nil => simp [byteCount]
  | cons c cs ih => simp [byteCount, ih, Nat.add_assoc]

lemma byteCount_pos (h : cs ≠ []) : 0 < byteCount cs := by
  cases cs with
  | nil => exact absurd rfl h
  | cons c cs => exact Nat.add_pos_left c.utf8Size_pos _

lemma byteCount_of_ascii (h : ∀ c ∈ cs, c.utf8Size = 1) : byteCount cs = cs.length := by
  induction cs with
  | nil => rfl
  | cons c cs ih =>
    obtain ⟨hc, hcs⟩ := List.forall_mem_cons.mp h
    rw [byteCount, hc, ih hcs, List.length_cons, Nat.add_comm]

lemma utf8ByteSize_ofList (cs : List Char) : (String.ofList cs).utf8ByteSize = byteCount cs := by
  induction cs with
  | nil => rfl
  | cons c cs ih =>
    rw [← List.singleton_append, String.ofList_append, String.utf8ByteSize_append, ih,
      ← String.singleton_eq_ofList, String.utf8ByteSize_singleton, byteCount_append]
    rfl

lemma utf8Size_of_lt (h : c.toNat < 128) : c.utf8Size = 1 := by
  have hval : c.val ≤ 0x7F := UInt32.le_iff_toNat_le.mpr (Nat.le_of_lt_succ h)
  simp [Char.utf8Size, hval]

lemma toNat_lt_of_isDigit (h : c.isDigit = true) : c.toNat < 128 := by
  have hc := Char.isDigit_iff_toNat.mp h
  have hnine : '9'.toNat = 57 := rfl
  omega

lemma toNat_lt_of_isAlpha (h : c.isAlpha = true) : c.toNat < 128 := by
  have halpha := toNat_of_isAlpha h
  omega

lemma toNat_lt_of_isBlank (h : isBlank c = true) : c.toNat < 128 := by
  simp only [isBlank, Bool.or_eq_true, beq_iff_eq] at h
  rcases h with (((rfl | rfl) | rfl) | rfl) | rfl <;> decide

lemma Mark.toNat_char_lt (m : Mark) : m.char.toNat < 128 := by
  cases m <;> decide

lemma Lexeme.Spelled.ne_nil (h : l.Spelled word) : word ≠ [] := by
  cases h with
  | int hne => exact hne
  | _ => simp

lemma EndsNumber.nil : EndsNumber [] := fun _ h => nomatch h

lemma endsNumber_reverse_concat (h : c.isDigit = false) (h' : c ≠ '.') :
    EndsNumber (before ++ [c]).reverse := by
  rw [List.reverse_concat]
  intro d hd
  obtain rfl := Option.some_inj.mp hd
  exact ⟨h, h'⟩

lemma Tiled.ne_point (h : Tiled before cs ts) : ∀ c ∈ cs.head?, c ≠ '.' := by
  intro c hc
  cases h with
  | nil => exact nomatch hc
  | blank hblank _ =>
    rintro rfl
    obtain rfl := Option.some_inj.mp hc
    exact absurd hblank (by decide)
  | token hspelled _ _ =>
    rintro rfl
    cases hspelled with
    | letter halpha =>
      obtain rfl := Option.some_inj.mp hc
      exact absurd halpha (by decide)
    | mark m =>
      have hpoint := Option.some_inj.mp hc
      cases m <;> exact absurd hpoint (by decide)
    | int hne hdigits =>
      obtain ⟨d, ds, rfl⟩ := List.exists_cons_of_ne_nil hne
      obtain rfl := Option.some_inj.mp hc
      exact absurd (hdigits _ List.mem_cons_self) (by decide)
    | decimal hne hdigits =>
      obtain ⟨d, ds, rfl⟩ := List.exists_cons_of_ne_nil hne
      obtain rfl := Option.some_inj.mp hc
      exact absurd (hdigits _ List.mem_cons_self) (by decide)

end

namespace Tiled

variable {before cs : List Char} {ts : List Token}

lemma nonempty (h : Tiled before cs ts) : ∀ t ∈ ts, t.start < t.stop := by
  induction h with
  | nil => exact fun _ h => nomatch h
  | blank _ _ ih => exact ih
  | token hspelled _ _ ih =>
    refine List.forall_mem_cons.mpr ⟨?_, ih⟩
    rw [byteCount_append]
    exact Nat.lt_add_of_pos_right (byteCount_pos hspelled.ne_nil)

lemma le_start (h : Tiled before cs ts) : ∀ t ∈ ts, byteCount before ≤ t.start := by
  induction h with
  | nil => exact fun _ h => nomatch h
  | blank _ _ ih =>
    intro t ht
    have hle := ih t ht
    rw [byteCount_append] at hle
    exact Nat.le_trans (Nat.le_add_right _ _) hle
  | token _ _ _ ih =>
    refine List.forall_mem_cons.mpr ⟨Nat.le_refl _, fun t ht => ?_⟩
    have hle := ih t ht
    rw [byteCount_append] at hle
    exact Nat.le_trans (Nat.le_add_right _ _) hle

lemma ascending (h : Tiled before cs ts) : ts.Pairwise fun t u => t.stop ≤ u.start := by
  induction h with
  | nil => exact .nil
  | blank _ _ ih => exact ih
  | token _ _ htail ih => exact .cons htail.le_start ih

lemma stands (h : Tiled before cs ts) : ∀ t ∈ ts, t.Stands (before ++ cs) := by
  induction h with
  | nil => exact fun _ h => nomatch h
  | @blank before c cs ts _ _ ih =>
    rw [List.append_assoc] at ih
    exact ih
  | @token before l word cs ts hspelled hends htail ih =>
    rw [List.append_assoc] at ih
    refine List.forall_mem_cons.mpr ⟨⟨before, word, cs, (List.append_assoc ..).symm, rfl, rfl, hspelled, ?_⟩, ih⟩
    intro v hv
    obtain ⟨hleft, hright⟩ := hends v hv
    exact ⟨hleft, fun c hc => ⟨hright c hc, htail.ne_point c hc⟩⟩

lemma isBlank_of_free (h : Tiled before cs ts) : ∀ front c behind, cs = front ++ c :: behind →
    (∀ t ∈ ts, byteCount (before ++ front) < t.start ∨ t.stop ≤ byteCount (before ++ front)) →
    isBlank c = true := by
  induction h with
  | nil => exact fun front c behind hcs => by simp at hcs
  | @blank before d cs ts hblank _ ih =>
    intro front c behind hcs hfree
    cases front with
    | nil =>
      obtain ⟨rfl, rfl⟩ := List.cons.inj hcs
      exact hblank
    | cons d' front =>
      obtain ⟨rfl, rfl⟩ := List.cons.inj hcs
      refine ih front c behind rfl ?_
      rwa [List.append_assoc]
  | @token before l word cs ts hspelled _ _ ih =>
    intro front c behind hcs hfree
    obtain ⟨htoken, hfree⟩ := List.forall_mem_cons.mp hfree
    rcases List.append_eq_append_iff.mp hcs with ⟨more, rfl, rfl⟩ | ⟨more, rfl, hmore⟩
    · refine ih more c behind rfl ?_
      rwa [List.append_assoc]
    · cases more with
      | nil =>
        refine ih [] c behind hmore.symm ?_
        rwa [List.append_nil, List.append_nil]
      | cons d more =>
        -- The character lies in the token.
        have hpos := byteCount_pos (List.cons_ne_nil d more)
        simp only [byteCount_append] at htoken
        omega

end Tiled

lemma Tiled.tiling {cs : List Char} {ts : List Token} (h : Tiled [] cs ts) : Tiling cs ts where
  nonempty := h.nonempty
  ascending := h.ascending
  stands := h.stands
  blank := h.isBlank_of_free

section

variable {cs : List Char} {c : Char} {v : Literal}

lemma forall_isDigit_takeWhile (cs : List Char) : ∀ c ∈ cs.takeWhile Char.isDigit, c.isDigit = true :=
  fun _ hc => List.mem_takeWhile_imp hc

lemma head?_dropWhile_isDigit (cs : List Char) :
    ∀ c ∈ (cs.dropWhile Char.isDigit).head?, c.isDigit = false := by
  intro c hc
  have hnot := List.head?_dropWhile_not Char.isDigit cs
  rw [Option.mem_def.mp hc] at hnot
  exact hnot

lemma Digits.before_cases (whole cs : List Char) (hcs : ∀ c ∈ cs.head?, c.isDigit = false) :
    before whole cs = ⟨whole, none, cs⟩ ∧ EndsNumber cs ∨
    ∃ places rest, before whole cs = ⟨whole, some places, rest⟩ ∧
      (∀ c ∈ places, c.isDigit = true) ∧ ∀ c ∈ rest.head?, c.isDigit = false := by
  unfold before
  split
  case h_1 rest =>
    exact Or.inr ⟨_, _, rfl, forall_isDigit_takeWhile rest, head?_dropWhile_isDigit rest⟩
  case h_2 hpoint =>
    refine Or.inl ⟨rfl, fun c hc => ⟨hcs c hc, ?_⟩⟩
    rintro rfl
    obtain ⟨rest, rfl⟩ := List.head?_eq_some_iff.mp hc
    exact hpoint rest rfl

lemma Digits.ofFront_cases (hc : c.isDigit = true) (cs : List Char) :
    ∃ whole, whole ≠ [] ∧ (∀ c ∈ whole, c.isDigit = true) ∧
      ((∃ rest, ofFront (c :: cs) = ⟨whole, none, rest⟩ ∧ EndsNumber rest) ∨
      ∃ places rest, ofFront (c :: cs) = ⟨whole, some places, rest⟩ ∧
        (∀ c ∈ places, c.isDigit = true) ∧ ∀ c ∈ rest.head?, c.isDigit = false) := by
  refine ⟨(c :: cs).takeWhile Char.isDigit, by simp [hc], forall_isDigit_takeWhile _, ?_⟩
  rcases Digits.before_cases ((c :: cs).takeWhile Char.isDigit) ((c :: cs).dropWhile Char.isDigit)
    (head?_dropWhile_isDigit _) with ⟨hfront, hrest⟩ | hpoint
  · exact Or.inl ⟨_, hfront, hrest⟩
  · exact Or.inr hpoint

lemma Digits.ofFront_spelled (hc : c.isDigit = true) (hv : (ofFront (c :: cs)).literal? = some v) :
    (Lexeme.number v).Spelled (ofFront (c :: cs)).spelling ∧
      ∀ d ∈ (ofFront (c :: cs)).rest.head?, d.isDigit = false := by
  obtain ⟨whole, hne, hwhole, ⟨rest, hfront, hrest⟩ | ⟨places, rest, hfront, hplaces, hrest⟩⟩ :=
    ofFront_cases hc cs
  · rw [hfront] at hv ⊢
    simp only [literal?] at hv
    split at hv
    case isTrue hlt =>
      obtain rfl := Option.some_inj.mp hv
      exact ⟨.int hne hwhole hlt, fun c hc => (hrest c hc).1⟩
    case isFalse => cases hv
  · rw [hfront] at hv ⊢
    obtain rfl := Option.some_inj.mp hv
    exact ⟨.decimal hne hwhole hplaces, hrest⟩

lemma Digits.ofFront_refused (hc : c.isDigit = true) (hv : (ofFront (c :: cs)).literal? = none) :
    Refused (c :: cs) .integerOutOfRange := by
  have hcs := spelling_ofFront (c :: cs)
  obtain ⟨whole, hne, hwhole, ⟨rest, hfront, hrest⟩ | ⟨places, rest, hfront, -, -⟩⟩ :=
    ofFront_cases hc cs
  · rw [hfront] at hv hcs
    simp only [literal?] at hv
    split at hv
    case isTrue => cases hv
    case isFalse hge =>
      rw [← hcs]
      exact .number hne hwhole (Nat.le_of_not_lt hge) hrest
  · rw [hfront] at hv
    cases hv

lemma Lexeme.Spelled.utf8Size {l : Lexeme} {word : List Char} (h : l.Spelled word) :
    ∀ c ∈ word, c.utf8Size = 1 := by
  have hdigit {c : Char} (hc : c.isDigit = true) : c.utf8Size = 1 :=
    utf8Size_of_lt (toNat_lt_of_isDigit hc)
  cases h with
  | letter halpha => exact List.forall_mem_singleton.mpr (utf8Size_of_lt (toNat_lt_of_isAlpha halpha))
  | mark m => exact List.forall_mem_singleton.mpr (utf8Size_of_lt m.toNat_char_lt)
  | int _ hdigits => exact fun c hc => hdigit (hdigits c hc)
  | decimal _ hwhole hplaces =>
    refine List.forall_mem_append.mpr ⟨fun c hc => hdigit (hwhole c hc), ?_⟩
    exact List.forall_mem_cons.mpr ⟨by decide, fun c hc => hdigit (hplaces c hc)⟩

lemma refused_of_unexpected (hblank : ¬ isBlank c = true) (hdigit : ¬ c.isDigit = true)
    (halpha : ¬ c.isAlpha = true) (hmark : Mark.ofChar? c = none) :
    Refused (c :: cs) (.unexpectedCharacter c) := by
  refine .character (Bool.not_eq_true _ ▸ hblank) fun l word h => ?_
  generalize hword : c :: word = cs at h
  cases h with
  | letter h =>
    obtain rfl := (List.cons.inj hword).1
    exact halpha h
  | mark m =>
    obtain rfl := (List.cons.inj hword).1
    rw [Mark.ofChar?_eq_some.mpr rfl] at hmark
    cases hmark
  | int _ hdigits => exact hdigit (hdigits c (hword ▸ List.mem_cons_self))
  | decimal hne hwhole _ =>
    obtain ⟨d, whole, rfl⟩ := List.exists_cons_of_ne_nil hne
    obtain rfl := (List.cons.inj hword).1
    exact hdigit (hwhole c List.mem_cons_self)

end

def Reads (before cs : List Char) : Except ExprError (List Token) → Prop
  | .ok ts => Tiled before cs ts
  | .error e => ∃ done rest ts, cs = done ++ rest ∧ Tiled before done ts ∧
      e.offset = byteCount (before ++ done) ∧ Refused rest e.problem

section

variable {before cs word : List Char} {l : Lexeme} {r : Except ExprError (List Token)}

lemma Reads.blank {c : Char} (hc : isBlank c = true) (h : Reads (before ++ [c]) cs r) :
    Reads before (c :: cs) r := by
  cases r with
  | ok ts => exact .blank hc h
  | error e =>
    obtain ⟨done, rest, ts, rfl, htiled, hoffset, hrefused⟩ := h
    exact ⟨c :: done, rest, ts, rfl, .blank hc htiled, by simpa using hoffset, hrefused⟩

lemma Reads.token (hspelled : l.Spelled word)
    (hends : ∀ v, l = .number v → EndsNumber before.reverse ∧ ∀ c ∈ cs.head?, c.isDigit = false)
    (h : Reads (before ++ word) cs r) : Reads before (word ++ cs)
      ((⟨l, byteCount before, byteCount (before ++ word)⟩ :: ·) <$> r) := by
  cases r with
  | ok ts => exact .token hspelled hends h
  | error e =>
    obtain ⟨done, rest, ts, rfl, htiled, hoffset, hrefused⟩ := h
    refine ⟨word ++ done, rest, _, (List.append_assoc ..).symm, .token hspelled ?_ htiled, ?_, hrefused⟩
    · intro v hv
      obtain ⟨hleft, hright⟩ := hends v hv
      refine ⟨hleft, fun c hc => hright c ?_⟩
      cases done with
      | nil => exact nomatch hc
      | cons d done => exact hc
    · rw [hoffset, List.append_assoc]

lemma Reads.next {pos : Nat} {c : Char} (hpos : byteCount before = pos) (hsize : c.utf8Size = 1)
    (hdigit : c.isDigit = false) (hpoint : c ≠ '.')
    (ih : ∀ before', (∀ d ∈ cs.head?, d.isDigit = true → EndsNumber before'.reverse) →
      byteCount before' = pos + 1 → Reads before' cs (lexFrom (pos + 1) cs)) :
    Reads (before ++ [c]) cs (lexFrom (pos + 1) cs) :=
  ih _ (fun _ _ _ => endsNumber_reverse_concat hdigit hpoint)
    (by rw [byteCount_append, hpos, byteCount_of_ascii (List.forall_mem_singleton.mpr hsize)]; rfl)

lemma Reads.single {pos : Nat} {c : Char} (hspelled : l.Spelled [c]) (hnumber : ∀ v, l ≠ .number v)
    (hpos : byteCount before = pos) (hreads : Reads (before ++ [c]) cs (lexFrom (pos + 1) cs)) :
    Reads before (c :: cs) ((⟨l, pos, pos + 1⟩ :: ·) <$> lexFrom (pos + 1) cs) := by
  have htoken := Reads.token hspelled (fun v hv => absurd hv (hnumber v)) hreads
  rw [byteCount_append, byteCount_of_ascii hspelled.utf8Size, hpos] at htoken
  exact htoken

lemma lexFrom_reads (before cs : List Char)
    (hbefore : ∀ c ∈ cs.head?, c.isDigit = true → EndsNumber before.reverse) :
    Reads before cs (lexFrom (byteCount before) cs) := by
  -- What is kept from token to token is `hbefore`: no number begins right behind a digit.
  generalize hpos : byteCount before = pos
  induction pos, cs using lexFrom.induct generalizing before with
  | case1 pos =>
    rw [lexFrom]
    exact .nil
  | case2 pos c cs hblank ih =>
    have hdigit : c.isDigit = false := by
      rw [← Bool.not_eq_true]
      exact fun hdigit => absurd hblank (by simp [not_blank_of_alphanumeric, Char.isAlphanum, hdigit])
    rw [lexFrom, if_pos hblank]
    refine .blank hblank (.next hpos (utf8Size_of_lt (toNat_lt_of_isBlank hblank)) hdigit ?_ ih)
    rintro rfl
    exact absurd hblank (by decide)
  | case3 pos c cs hblank hdigit =>
    rename_i d hnone
    have hliteral : (Digits.ofFront (c :: cs)).literal? = none := hnone
    simp only [lexFrom, if_neg hblank, if_pos hdigit, hliteral]
    exact ⟨[], c :: cs, [], rfl, .nil, by simp [hpos], Digits.ofFront_refused hdigit hliteral⟩
  | case4 pos c cs hblank hdigit =>
    rename_i d stop v hv ih
    have hliteral : (Digits.ofFront (c :: cs)).literal? = some v := hv
    obtain ⟨hspelled, hrest⟩ := Digits.ofFront_spelled hdigit hliteral
    have hstop : byteCount (before ++ (Digits.ofFront (c :: cs)).spelling) = stop := by
      rw [byteCount_append, hpos, byteCount_of_ascii hspelled.utf8Size]
    -- The run of digits is maximal, so that no digit comes behind it.
    have hreads := ih _ (fun d hd hdigit => absurd hdigit (by simp [hrest d hd])) hstop
    have htoken := Reads.token hspelled
      (fun _ _ => ⟨hbefore c rfl hdigit, hrest⟩) hreads
    rw [Digits.spelling_ofFront, hstop, hpos] at htoken
    simp only [lexFrom, if_neg hblank, if_pos hdigit, hliteral]
    exact htoken
  | case5 pos c cs hblank hdigit halpha ih =>
    have hsize : c.utf8Size = 1 := utf8Size_of_lt (toNat_lt_of_isAlpha halpha)
    have hpoint : c ≠ '.' := by
      rintro rfl
      exact absurd halpha (by decide)
    rw [lexFrom, if_neg hblank, if_neg hdigit, if_pos halpha]
    exact .single (.letter halpha) (by simp) hpos
      (.next hpos hsize (not_digit_of_alpha halpha) hpoint ih)
  | case6 pos c cs hblank hdigit halpha m hm ih =>
    obtain rfl := Mark.ofChar?_eq_some.mp hm
    obtain ⟨hend, hpoint⟩ := endsNumber_mark m cs _ rfl
    simp only [lexFrom, if_neg hblank, if_neg hdigit, if_neg halpha, hm]
    exact .single (.mark m) (by simp) hpos
      (.next hpos (utf8Size_of_lt m.toNat_char_lt) hend hpoint ih)
  | case7 pos c cs hblank hdigit halpha hnone =>
    simp only [lexFrom, if_neg hblank, if_neg hdigit, if_neg halpha, hnone]
    exact ⟨[], c :: cs, [], rfl, .nil, by simp [hpos], refused_of_unexpected hblank hdigit halpha hnone⟩

lemma lex_reads (text : List Char) : Reads [] text (lex text) :=
  lexFrom_reads [] text fun _ _ _ => .nil

end

def FailsAmong {α : Type} (stop : Nat) (ts : List Token) (r : Except ExprError α) : Prop :=
  ∀ e, r = .error e → e.offset = stop ∨ ∃ t ∈ ts, e.offset = t.start

namespace FailsAmong

variable {α β : Type} {stop : Nat} {t : Token} {ts ts' : List Token} {r : Except ExprError α}

lemma ok (stop : Nat) (ts : List Token) (a : α) : FailsAmong stop ts (.ok a) := fun _ h => nomatch h

lemma atStop (stop : Nat) (ts : List Token) (p : ExprProblem) :
    FailsAmong (α := α) stop ts (.error ⟨stop, p⟩) := by
  rintro e ⟨⟩
  exact Or.inl rfl

lemma here (stop : Nat) (t : Token) (ts : List Token) (p : ExprProblem) :
    FailsAmong (α := α) stop (t :: ts) (.error ⟨t.start, p⟩) := by
  rintro e ⟨⟩
  exact Or.inr ⟨t, List.mem_cons_self, rfl⟩

lemma mono (h : FailsAmong stop ts r) (hsub : ts ⊆ ts') : FailsAmong stop ts' r := by
  intro e he
  rcases h e he with hstop | ⟨t, ht, hstart⟩
  · exact Or.inl hstop
  · exact Or.inr ⟨t, hsub ht, hstart⟩

lemma cons (h : FailsAmong stop ts r) (t : Token) : FailsAmong stop (t :: ts) r :=
  h.mono (List.subset_cons_self t ts)

end FailsAmong

section

variable (c : Constants) (stop : Nat)

lemma reads_failsAmong (ts : List Token) :
    (∀ outer w, FailsAmong stop ts (readFactor c stop outer w ts)) ∧
      ∀ outer d last, FailsAmong stop ts (readOperator c stop outer d last ts) := by
  -- The two functions take the tokens in turn, so that one induction has to say both.
  induction ts with
  | nil =>
    refine ⟨fun outer w => .atStop stop [] _, fun outer d last => ?_⟩
    simp only [readOperator]
    split
    · exact .ok stop [] _
    · exact .atStop stop [] _
  | cons t ts ih =>
    obtain ⟨ihfactor, ihoperator⟩ := ih
    refine ⟨fun outer w => ?_, fun outer d last => ?_⟩
    · simp only [readFactor]
      split
      · exact (ihoperator _ _ _).cons t
      · split
        · exact (ihoperator _ _ _).cons t
        · exact .here stop t ts _
      · exact (ihfactor _ _).cons t
      · exact (ihfactor _ _).cons t
      · exact (ihfactor _ _).cons t
      · exact .here stop t ts _
      · exact .here stop t ts _
    · simp only [readOperator]
      split
      · exact .here stop t ts _
      · exact (ihfactor _ _).cons t
      · exact (ihfactor _ _).cons t
      · exact (ihfactor _ _).cons t
      · exact (ihfactor _ _).cons t
      · exact (ihfactor _ _).cons t
      · exact (ihfactor _ _).cons t
      · split
        · exact .here stop t ts _
        · exact (ihoperator _ _ _).cons t
      · exact .here stop t ts _

lemma tree_failsAmong (ts : List Token) : FailsAmong stop ts (tree c stop ts) :=
  (reads_failsAmong c stop ts).1 [] start

end

section

variable {tokens inner : List Token} {close : Token} {stop : Nat}

lemma bracketed_failsAmong (stop : Nat) (tokens : List Token) :
    FailsAmong stop tokens (bracketed stop tokens) := by
  cases tokens with
  | nil => exact .atStop stop [] _
  | cons t ts =>
    simp only [bracketed]
    split
    · exact .ok stop _ _
    · exact .atStop stop _ _
    · exact .here stop t ts _

lemma subset_of_bracketed (h : bracketed stop tokens = .ok (inner, close)) :
    inner ⊆ tokens ∧ close ∈ tokens := by
  cases tokens with
  | nil => cases h
  | cons t ts =>
    simp only [bracketed] at h
    split at h
    case h_1 i j hopen hlast =>
      cases h
      exact ⟨List.Subset.trans (List.dropLast_subset ts) (List.subset_cons_self t ts),
        List.mem_cons_of_mem t (List.mem_of_getLast? hlast)⟩
    all_goals cases h

lemma parts_failsAmong (stop close depth : Nat) (part ts : List Token) :
    FailsAmong stop ts (parts close depth part ts) := by
  induction ts generalizing depth part with
  | nil => exact .ok stop [] _
  | cons t ts ih =>
    simp only [parts]
    split
    · exact (ih _ _).cons t
    · split
      · exact .here stop t ts _
      · exact (ih _ _).cons t
    · split
      · exact fun e he => (ih _ _).cons t e (Traversal.map_eq_error_iff.mp he)
      · exact (ih _ _).cons t
    · exact (ih _ _).cons t

lemma subset_of_parts {close depth : Nat} {part ts : List Token} {ps : List (List Token × Nat)}
    (h : parts close depth part ts = .ok ps) :
    ∀ p ∈ ps, p.1 ⊆ part ++ ts ∧ (p.2 = close ∨ ∃ t ∈ ts, p.2 = t.start) := by
  induction ts generalizing depth part ps with
  | nil =>
    cases h
    refine List.forall_mem_singleton.mpr ⟨?_, Or.inl rfl⟩
    simp
  | cons t ts ih =>
    rcases parts_cons h with ⟨depth', htail⟩ | ⟨-, ps', htail, rfl⟩
    · intro p hp
      obtain ⟨hsub, hend⟩ := ih htail p hp
      refine ⟨fun u hu => ?_, hend.imp_right fun ⟨u, hu, heq⟩ => ⟨u, List.mem_cons_of_mem t hu, heq⟩⟩
      have hmem := hsub hu
      simp only [List.cons_append, List.mem_cons, List.mem_append] at hmem ⊢
      tauto
    · refine List.forall_mem_cons.mpr ⟨⟨?_, Or.inr ⟨t, List.mem_cons_self, rfl⟩⟩, fun p hp => ?_⟩
      · exact fun u hu => List.mem_append_left _ (List.mem_reverse.mp hu)
      · obtain ⟨hsub, hend⟩ := ih htail p hp
        refine ⟨fun u hu => ?_, hend.imp_right fun ⟨u, hu, heq⟩ => ⟨u, List.mem_cons_of_mem t hu, heq⟩⟩
        exact List.mem_append_right part (List.mem_cons_of_mem t (hsub hu))

def Reported (size : Nat) (tokens : List Token) (n : Nat) : Prop :=
  n = 0 ∨ n = size ∨ ∃ t ∈ tokens, n = t.start ∨ n = t.stop

lemma FailsAmong.reported {α : Type} {size : Nat} {r : Except ExprError α} {ts : List Token}
    (h : FailsAmong stop ts r) (hsub : ts ⊆ tokens) (hstop : Reported size tokens stop) {e : ExprError}
    (he : r = .error e) : Reported size tokens e.offset := by
  rcases h e he with hoffset | ⟨t, ht, hoffset⟩
  · exact hoffset ▸ hstop
  · exact Or.inr (Or.inr ⟨t, hsub ht, Or.inl hoffset⟩)

lemma reported_start {size : Nat} {t : Token} (ht : t ∈ tokens) : Reported size tokens t.start :=
  Or.inr (Or.inr ⟨t, ht, Or.inl rfl⟩)

lemma reported_lastStop (size : Nat) (tokens : List Token) : Reported size tokens (lastStop tokens) := by
  unfold lastStop
  cases hlast : tokens.getLast? with
  | none => exact Or.inl rfl
  | some t => exact Or.inr (Or.inr ⟨t, List.mem_of_getLast? hlast, Or.inr rfl⟩)

lemma parse_reported {c : Constants} {text : String} {e : ExprError} (h : Expr.parse c text = .error e)
    (hlex : lex text.toList = .ok tokens) : Reported text.utf8ByteSize tokens e.offset := by
  simp only [Expr.parse, hlex, bind, Except.bind] at h
  exact (tree_failsAmong c _ tokens).reported (List.Subset.refl _) (reported_lastStop _ tokens) h

lemma byteCount_toList (text : String) : byteCount text.toList = text.utf8ByteSize := by
  rw [← utf8ByteSize_ofList, String.ofList_toList]

lemma triplet_parse_reported {c : Constants} {text : String} {e : ExprError}
    (h : Triplet.parse c text = .error e) (hlex : lex text.toList = .ok tokens) :
    Reported text.utf8ByteSize tokens e.offset := by
  simp only [Triplet.parse, hlex, byteCount_toList] at h
  change bracketed text.utf8ByteSize tokens >>= _ = _ at h
  rcases Traversal.bind_eq_error_iff.mp h with hbracket | ⟨⟨inner, close⟩, hinner, h⟩
  · exact (bracketed_failsAmong _ tokens).reported (List.Subset.refl _) (Or.inr (Or.inl rfl)) hbracket
  obtain ⟨hsub, hclose⟩ := subset_of_bracketed hinner
  rcases Traversal.bind_eq_error_iff.mp h with hparts | ⟨ps, hps, h⟩
  · exact (parts_failsAmong close.start close.start 0 [] inner).reported hsub (reported_start hclose) hparts
  -- A part ends at a token, and all it reports is that end or one of its own tokens.
  have hpart {p : List Token × Nat} (hp : p ∈ ps) {e : ExprError} (he : tree c p.2 p.1 = .error e) :
      Reported text.utf8ByteSize tokens e.offset := by
    obtain ⟨hpsub, hend⟩ := subset_of_parts hps p hp
    refine (tree_failsAmong c p.2 p.1).reported (List.Subset.trans hpsub hsub) ?_ he
    rcases hend with heq | ⟨t, ht, heq⟩
    · exact heq ▸ reported_start hclose
    · exact heq ▸ reported_start (hsub ht)
  split at h
  case h_1 a b d =>
    rcases Traversal.bind_eq_error_iff.mp h with h | ⟨_, -, h⟩
    · exact hpart (by simp) h
    rcases Traversal.bind_eq_error_iff.mp h with h | ⟨_, -, h⟩
    · exact hpart (by simp) h
    rcases Traversal.bind_eq_error_iff.mp h with h | ⟨_, -, h⟩
    · exact hpart (by simp) h
    · cases h
  case h_2 =>
    obtain rfl := Except.error.inj h
    cases tokens with
    | nil => exact Or.inl rfl
    | cons t ts => exact reported_start List.mem_cons_self

end

def IsBoundary (text : String) (n : Nat) : Prop :=
  n ≤ text.utf8ByteSize ∧ (⟨n⟩ : String.Pos.Raw).IsValid text

section

variable {text : String} {before behind : List Char} {n : Nat} {tokens : List Token} {e : ExprError}

lemma isBoundary_of_append (h : text.toList = before ++ behind) : IsBoundary text (byteCount before) := by
  have hvalid : (⟨byteCount before⟩ : String.Pos.Raw).IsValid text := by
    refine String.Pos.Raw.isValid_iff_exists_append.mpr ⟨.ofList before, .ofList behind, ?_, ?_⟩
    · rw [← String.ofList_append, ← h, String.ofList_toList]
    · rw [← utf8ByteSize_ofList]
      rfl
  exact ⟨hvalid.le_utf8ByteSize, hvalid⟩

lemma Token.Stands.isBoundary {t : Token} (h : t.Stands text.toList) :
    IsBoundary text t.start ∧ IsBoundary text t.stop := by
  obtain ⟨before, word, behind, htext, hstart, hstop, -, -⟩ := h
  rw [hstart, hstop]
  exact ⟨isBoundary_of_append (htext.trans (List.append_assoc ..)), isBoundary_of_append htext⟩

lemma Reported.isBoundary (h : Reported text.utf8ByteSize tokens n) (htiling : Tiling text.toList tokens) :
    IsBoundary text n := by
  rcases h with rfl | rfl | ⟨t, ht, rfl | rfl⟩
  · have hfront : text.toList = [] ++ text.toList := rfl
    have hstart := isBoundary_of_append hfront
    exact hstart
  · rw [← byteCount_toList]
    exact isBoundary_of_append (List.append_nil _).symm
  · exact (htiling.stands t ht).isBoundary.1
  · exact (htiling.stands t ht).isBoundary.2

lemma lex_tiling (h : lex text.toList = .ok tokens) : Tiling text.toList tokens := by
  have hreads := lex_reads text.toList
  rw [h] at hreads
  exact hreads.tiling

lemma lex_error (h : lex text.toList = .error e) : ∃ done rest tokens, text.toList = done ++ rest ∧
    e.offset = byteCount done ∧ Tiling done tokens ∧ Refused rest e.problem := by
  have hreads := lex_reads text.toList
  rw [h] at hreads
  obtain ⟨done, rest, tokens, htext, htiled, hoffset, hrefused⟩ := hreads
  exact ⟨done, rest, tokens, htext, hoffset, htiled.tiling, hrefused⟩

lemma bracketed_unclosed {t : Token} {ts : List Token} (hopen : t.lexeme = .mark .openBracket)
    (hlast : ∀ u ∈ ts.getLast?, u.lexeme ≠ .mark .closeBracket) (stop : Nat) :
    bracketed stop (t :: ts) = .error ⟨stop, .noClosingBracket⟩ := by
  simp only [bracketed]
  split
  case h_1 i j _ hclose => exact absurd rfl (hlast _ hclose)
  case h_2 => rfl
  case h_3 hnone _ => exact absurd hopen (fun h => hnone h)

end

/-- The tokens of a text are side by side in it, each spelled by its bytes, and all between them is blank.
What comes behind them is the end of the text, where a missing bracket is reported. Where a text is
refused, the tokens in front are those of the text in front. No token and no reported offset begins or
ends within a character. -/
theorem tokens_tile_text (c : Constants) (text : String) :
    (∀ tokens, lex text.toList = .ok tokens → Tiling text.toList tokens ∧
      (∀ t ∈ tokens, IsBoundary text t.start ∧ IsBoundary text t.stop) ∧
      (tokens = [] → Triplet.parse c text = .error ⟨text.utf8ByteSize, .noOpeningBracket⟩) ∧
      ∀ t ts, tokens = t :: ts → t.lexeme = .mark .openBracket →
        (∀ u ∈ ts.getLast?, u.lexeme ≠ .mark .closeBracket) →
        Triplet.parse c text = .error ⟨text.utf8ByteSize, .noClosingBracket⟩) ∧
    (∀ e, lex text.toList = .error e → IsBoundary text e.offset ∧
      ∃ done rest tokens, text.toList = done ++ rest ∧ e.offset = byteCount done ∧
        Tiling done tokens ∧ Refused rest e.problem) ∧
    (∀ e, Expr.parse c text = .error e → IsBoundary text e.offset) ∧
    ∀ e, Triplet.parse c text = .error e → IsBoundary text e.offset := by
  have hlexical (e : ExprError) (h : lex text.toList = .error e) : IsBoundary text e.offset := by
    obtain ⟨done, rest, tokens, htext, hoffset, -, -⟩ := lex_error h
    exact hoffset ▸ isBoundary_of_append htext
  refine ⟨fun tokens hlex => ?_, fun e h => ⟨hlexical e h, lex_error h⟩, fun e h => ?_, fun e h => ?_⟩
  · have htiling := lex_tiling hlex
    refine ⟨htiling, fun t ht => (htiling.stands t ht).isBoundary, ?_, ?_⟩
    · rintro rfl
      simp only [Triplet.parse, hlex, byteCount_toList]
      rfl
    · rintro t ts rfl hopen hlast
      simp only [Triplet.parse, hlex, byteCount_toList, bracketed_unclosed hopen hlast, bind, Except.bind]
  · cases hlex : lex text.toList with
    | error e' =>
      simp only [Expr.parse, hlex, bind, Except.bind] at h
      exact Except.error.inj h ▸ hlexical e' hlex
    | ok tokens => exact (parse_reported h hlex).isBoundary (lex_tiling hlex)
  · cases hlex : lex text.toList with
    | error e' =>
      simp only [Triplet.parse, hlex, bind, Except.bind] at h
      exact Except.error.inj h ▸ hlexical e' hlex
    | ok tokens => exact (triplet_parse_reported h hlex).isBoundary (lex_tiling hlex)

theorem tokens_tile_text_of_unfinished :
    let c : Constants := ⟨4, 3, 9⟩
    let tokens : List Token := [⟨.mark .openBracket, 0, 1⟩, ⟨.number (.int 12), 1, 3⟩,
      ⟨.mark .minus, 4, 5⟩, ⟨.letter 'x', 5, 6⟩]
    (lex "[12 -x\t".toList = .ok tokens ∧ Tiling "[12 -x\t".toList tokens ∧
      Triplet.parse c "[12 -x\t" = .error ⟨7, .noClosingBracket⟩) ∧
    (Expr.parse c "x-é" = .error ⟨2, .unexpectedCharacter 'é'⟩ ∧ IsBoundary "x-é" 2 ∧ ¬ IsBoundary "x-é" 3) ∧
    Triplet.parse c "[x;;y]" = .error ⟨3, .endOfExpression⟩ ∧ IsBoundary "[x;;y]" 3 := by
  intro c tokens
  have hlex : lex "[12 -x\t".toList = .ok tokens := by with_unfolding_all rfl
  have hexpr : Expr.parse c "x-é" = .error ⟨2, .unexpectedCharacter 'é'⟩ := by with_unfolding_all rfl
  have htriplet : Triplet.parse c "[x;;y]" = .error ⟨3, .endOfExpression⟩ := by with_unfolding_all rfl
  obtain ⟨htiling, -, -, hend⟩ := (tokens_tile_text c "[12 -x\t").1 tokens hlex
  refine ⟨⟨hlex, htiling, ?_⟩, ⟨hexpr, (tokens_tile_text c "x-é").2.2.1 _ hexpr, ?_⟩, htriplet,
    (tokens_tile_text c "[x;;y]").2.2.2 _ htriplet⟩
  · exact hend _ _ rfl rfl (by simp)
  · exact fun h => absurd h.2 (by decide)

end VideoRemap

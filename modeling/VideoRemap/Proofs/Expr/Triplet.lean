import VideoRemap.Proofs.Expr.Spelling

namespace VideoRemap

open VideoRemap.Parser

section

variable {tokens inner : List Token} {close : Token} {ls : List Lexeme}

lemma lexemes_of_bracketed {stop : Nat} (h : bracketed stop tokens = .ok (inner, close)) :
    tokens.map Token.lexeme =
      .mark .openBracket :: (inner.map Token.lexeme ++ [.mark .closeBracket]) := by
  cases tokens with
  | nil => cases h
  | cons t ts =>
    simp only [bracketed] at h
    split at h
    case h_1 i j hopen hlast =>
      cases h
      obtain ⟨ts, rfl⟩ := List.getLast?_eq_some_iff.mp hlast
      simp [hopen]
    all_goals cases h

lemma exists_bracketed (stop : Nat)
    (h : tokens.map Token.lexeme = .mark .openBracket :: (ls ++ [.mark .closeBracket])) :
    ∃ inner close, bracketed stop tokens = .ok (inner, close) ∧ inner.map Token.lexeme = ls := by
  obtain ⟨t, ts, rfl, hopen, hts⟩ := List.map_eq_cons_iff.mp h
  obtain ⟨inner, last, rfl, hinner, hlast⟩ := List.map_eq_append_iff.mp hts
  obtain ⟨⟨_, i, j⟩, rfl, rfl⟩ := List.map_eq_singleton_iff.mp hlast
  refine ⟨inner, ⟨.mark .closeBracket, i, j⟩, ?_, hinner⟩
  simp only [bracketed, hopen, List.getLast?_concat, List.dropLast_concat]

end

section

variable {close depth : Nat} {part ts : List Token} {ps : List (List Token × Nat)}

lemma parts_cons {t : Token} (h : parts close depth part (t :: ts) = .ok ps) :
    (∃ depth', parts close depth' (t :: part) ts = .ok ps) ∨
      t.lexeme = .mark .semicolon ∧ ∃ ps', parts close 0 [] ts = .ok ps' ∧
        ps = (part.reverse, t.start) :: ps' := by
  simp only [parts] at h
  split at h
  · exact Or.inl ⟨_, h⟩
  · split at h
    · cases h
    · exact Or.inl ⟨_, h⟩
  case h_3 hsemicolon =>
    split at h
    · obtain ⟨ps', hps', rfl⟩ := Traversal.map_eq_ok_iff.mp h
      exact Or.inr ⟨hsemicolon, ps', hps', rfl⟩
    · exact Or.inl ⟨_, h⟩
  · exact Or.inl ⟨_, h⟩

lemma parts_ne_nil (h : parts close depth part ts = .ok ps) : ps ≠ [] := by
  induction ts generalizing depth part ps with
  | nil =>
    cases h
    exact List.cons_ne_nil _ _
  | cons t ts ih =>
    rcases parts_cons h with ⟨depth', htail⟩ | ⟨-, ps', -, rfl⟩
    · exact ih htail
    · exact List.cons_ne_nil _ _

lemma intercalate_parts (h : parts close depth part ts = .ok ps) :
    [.mark .semicolon].intercalate (ps.map fun p => p.1.map Token.lexeme) =
      (part.reverse ++ ts).map Token.lexeme := by
  induction ts generalizing depth part ps with
  | nil =>
    cases h
    simp
  | cons t ts ih =>
    rcases parts_cons h with ⟨depth', htail⟩ | ⟨hsemicolon, ps', htail, rfl⟩
    · simpa using ih htail
    · have hne : ps'.map (fun p => p.1.map Token.lexeme) ≠ [] := by simpa using parts_ne_nil htail
      rw [List.map_cons, List.intercalate_cons_of_ne_nil hne, ih htail]
      simp [hsemicolon]

end

namespace Grammar

def Unsplit (ls : List Lexeme) : Prop :=
  ∀ (close depth : Nat) (part ts rest : List Token), ts.map Token.lexeme = ls →
    parts close depth part (ts ++ rest) = parts close depth (ts.reverse ++ part) rest

section

variable {c : Constants} {ls ms : List Lexeme} {e : Expr}

lemma unsplit_nil : Unsplit [] := by
  intro close depth part ts rest hts
  obtain rfl := List.map_eq_nil_iff.mp hts
  rfl

lemma Unsplit.append (h : Unsplit ls) (h' : Unsplit ms) : Unsplit (ls ++ ms) := by
  intro close depth part ts rest hts
  obtain ⟨ts₁, ts₂, rfl, h₁, h₂⟩ := List.map_eq_append_iff.mp hts
  rw [List.append_assoc, h close depth part ts₁ _ h₁, h' close depth _ ts₂ rest h₂, List.reverse_append,
    List.append_assoc]

def IsInner (m : Mark) : Prop := m ≠ .openParen ∧ m ≠ .closeParen ∧ m ≠ .semicolon

lemma isInner_of_quotient {m : Mark} {op : Quotient} (h : m.quotient? = some op) : IsInner m := by
  refine ⟨?_, ?_, ?_⟩ <;> rintro rfl <;> cases h

lemma unsplit_singleton {l : Lexeme} (hl : ∀ m, l = .mark m → IsInner m) : Unsplit [l] := by
  intro close depth part ts rest hts
  obtain ⟨t, rfl, rfl⟩ := List.map_eq_singleton_iff.mp hts
  rw [List.singleton_append, List.reverse_singleton, List.singleton_append, parts]
  split
  case h_1 hopen => exact absurd rfl (hl _ hopen).1
  case h_2 hclose => exact absurd rfl (hl _ hclose).2.1
  case h_3 hsemicolon => exact absurd rfl (hl _ hsemicolon).2.2
  case h_4 => rfl

lemma Unsplit.around {m : Mark} (h : Unsplit ls) (hm : IsInner m) (h' : Unsplit ms) :
    Unsplit (ls ++ .mark m :: ms) :=
  h.append ((unsplit_singleton fun _ heq => Lexeme.mark.inj heq ▸ hm).append h')

lemma Unsplit.paren (h : Unsplit ls) :
    Unsplit (.mark .openParen :: ls ++ [.mark .closeParen]) := by
  intro close depth part ts rest hts
  obtain ⟨t, ts', rfl, hopen, hts'⟩ := List.map_eq_cons_iff.mp hts
  obtain ⟨ts', t', ts'', rfl, hinner, hclose, hnil⟩ := exists_mark_of_map hts'
  obtain rfl := List.map_eq_nil_iff.mp hnil
  simp only [List.cons_append, List.append_assoc, parts, hopen]
  rw [h close (depth + 1) _ ts' _ hinner]
  simp [parts, hclose]

lemma IsSum.unsplit (h : IsSum c ls e) : Unsplit ls :=
  @IsSum.rec c (fun ls _ _ => Unsplit ls) (fun ls _ _ => Unsplit ls) (fun ls _ _ => Unsplit ls)
    (fun ls _ _ => Unsplit ls) (fun ls _ _ => Unsplit ls)
    (fun _ ih => ih)
    (fun _ ih => ih) (fun _ _ ih ih' => ih.around (by simp [IsInner]) ih')
    (fun _ _ ih ih' => ih.append ih')
    (fun _ ih => ih)
    (fun _ ih => ih) (fun _ _ ih ih' => ih.around (by simp [IsInner]) ih')
    (fun _ hop _ ih ih' => ih.around (isInner_of_quotient hop) ih')
    (fun _ => unsplit_singleton fun _ h => nomatch h) (fun _ => unsplit_singleton fun _ h => nomatch h)
    (fun _ ih => ih.paren) (fun _ ih => unsplit_nil.around (by simp [IsInner]) ih)
    (fun _ ih => unsplit_nil.around (by simp [IsInner]) ih) ls e h

lemma IsSum.parts_semicolon {close : Nat} {ts rest : List Token} {t : Token}
    (h : IsSum c (ts.map Token.lexeme) e) (ht : t.lexeme = .mark .semicolon) :
    parts close 0 [] (ts ++ t :: rest) = ((ts, t.start) :: ·) <$> parts close 0 [] rest := by
  rw [h.unsplit close 0 [] ts _ rfl, List.append_nil]
  simp only [parts, ht, if_true, List.reverse_reverse]

lemma IsSum.parts_end {close : Nat} {ts : List Token} (h : IsSum c (ts.map Token.lexeme) e) :
    parts close 0 [] ts = .ok [(ts, close)] := by
  have hall := h.unsplit close 0 [] ts [] rfl
  rw [List.append_nil, List.append_nil] at hall
  rw [hall, parts, List.reverse_reverse]

end

end Grammar

open Grammar

def tripletLexemes (xs ys ts : List Lexeme) : List Lexeme :=
  .mark .openBracket ::
    (xs ++ .mark .semicolon :: (ys ++ .mark .semicolon :: ts) ++ [.mark .closeBracket])

namespace Triplet

variable {c : Constants} {text : String} {e : Triplet}

lemma exists_lexemes_of_parse (h : Triplet.parse c text = .ok e) :
    ∃ xs ys ts, Spells text.toList (tripletLexemes xs ys ts) ∧
      IsSum c xs e.x ∧ IsSum c ys e.y ∧ IsSum c ts e.t := by
  simp only [Triplet.parse, Traversal.bind_eq_ok_iff] at h
  obtain ⟨tokens, hlex, ⟨inner, close⟩, hinner, ps, hparts, htrees⟩ := h
  split at htrees
  case h_1 a b d =>
    simp only [Traversal.bind_eq_ok_iff, tree_eq_ok_iff] at htrees
    obtain ⟨x, hx, y, hy, t, ht, he⟩ := htrees
    cases he
    refine ⟨_, _, _, ?_, hx, hy, ht⟩
    have hspells := lex_eq_ok_iff.mp ⟨tokens, hlex, rfl⟩
    rw [lexemes_of_bracketed hinner, ← List.nil_append inner, ← List.reverse_nil,
      ← intercalate_parts hparts] at hspells
    simpa [tripletLexemes, List.intercalate_cons_cons, List.intercalate_singleton] using hspells
  case h_2 => exact nomatch htrees

lemma parse_of_lexemes {xs ys ts : List Lexeme} (h : Spells text.toList (tripletLexemes xs ys ts))
    (hx : IsSum c xs e.x) (hy : IsSum c ys e.y) (ht : IsSum c ts e.t) :
    Triplet.parse c text = .ok e := by
  obtain ⟨tokens, hlex, htokens⟩ := lex_eq_ok_iff.mpr h
  obtain ⟨inner, close, hinner, hlexemes⟩ := exists_bracketed (byteCount text.toList) htokens
  obtain ⟨as, a, rest, rfl, rfl, ha, hrest⟩ := exists_mark_of_map hlexemes
  obtain ⟨bs, b, ds, rfl, rfl, hb, rfl⟩ := exists_mark_of_map hrest
  simp only [Triplet.parse, hlex, hinner, bind, Except.bind, hx.parts_semicolon ha,
    hy.parts_semicolon hb, ht.parts_end, Functor.map, Except.map, hx.tree_eq, hy.tree_eq, ht.tree_eq]
  rfl

theorem parse_eq_ok_iff_parts (c : Constants) (text : String) (e : Triplet) :
    Triplet.parse c text = .ok e ↔ ∃ before x y t after : String,
      (∀ b ∈ before.toList, isBlank b = true) ∧ (∀ b ∈ after.toList, isBlank b = true) ∧
      text = before ++ "[" ++ x ++ ";" ++ y ++ ";" ++ t ++ "]" ++ after ∧
      Expr.parse c x = .ok e.x ∧ Expr.parse c y = .ok e.y ∧ Expr.parse c t = .ok e.t := by
  constructor
  · intro h
    obtain ⟨xs, ys, ts, hspells, hx, hy, ht⟩ := exists_lexemes_of_parse h
    rw [← List.nil_append (tripletLexemes xs ys ts)] at hspells
    obtain ⟨before, cs, htext, hbefore, hcs⟩ := hspells.exists_cut
    obtain ⟨cs, after, rfl, hcs, hafter⟩ := hcs.exists_cut
    obtain ⟨x, cs, rfl, hxs, hcs⟩ := hcs.exists_cut
    obtain ⟨y, t, rfl, hys, hts⟩ := hcs.exists_cut
    refine ⟨.ofList before, .ofList x, .ofList y, .ofList t, .ofList after, ?_, ?_, ?_, ?_, ?_, ?_⟩
    · simpa using Spells.nil_iff.mp hbefore
    · simpa using Spells.nil_iff.mp hafter
    · apply String.toList_injective
      simp [htext, Mark.char]
    · exact Expr.parse_eq_ok_iff.mpr ⟨xs, by simpa using hxs, hx⟩
    · exact Expr.parse_eq_ok_iff.mpr ⟨ys, by simpa using hys, hy⟩
    · exact Expr.parse_eq_ok_iff.mpr ⟨ts, by simpa using hts, ht⟩
  · rintro ⟨before, x, y, t, after, hbefore, hafter, rfl, hx, hy, ht⟩
    obtain ⟨xs, hxs, hx⟩ := Expr.parse_eq_ok_iff.mp hx
    obtain ⟨ys, hys, hy⟩ := Expr.parse_eq_ok_iff.mp hy
    obtain ⟨ts, hts, ht⟩ := Expr.parse_eq_ok_iff.mp ht
    have hinner := hxs.join .semicolon (hys.join .semicolon hts)
    have hclosed := hinner.join .closeBracket (Spells.nil_iff.mpr hafter)
    have hopened := Spells.blanks hbefore (hclosed.cons_mark .openBracket)
    refine parse_of_lexemes ?_ hx hy ht
    simpa [Mark.char, tripletLexemes] using hopened

end Triplet

end VideoRemap

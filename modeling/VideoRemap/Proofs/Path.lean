import Mathlib.Data.List.TakeWhile
import VideoRemap.Path

namespace VideoRemap

def Move.steps (ms : List Move) : List Move := ms.filter (· ≠ .stay)

lemma Move.steps_append (ms ms' : List Move) : Move.steps (ms ++ ms') = Move.steps ms ++ Move.steps ms' :=
  List.filter_append ..

lemma Move.steps_isPrefix {ms ms' : List Move} (h : ms <+: ms') : Move.steps ms <+: Move.steps ms' :=
  h.filter _

namespace Path

lemma pieces_ne_nil (cs : List Char) : pieces cs ≠ [] := by
  cases cs with
  | nil => exact List.cons_ne_nil _ _
  | cons c cs =>
    rw [pieces]
    split
    · exact List.cons_ne_nil _ _
    · split <;> exact List.cons_ne_nil _ _

lemma moves_ne_nil (p : Path) : p.moves ≠ [] := List.map_eq_nil_iff.not.mpr (pieces_ne_nil _)

lemma pieces_of_not_mem {p : List Char} (h : '/' ∉ p) : pieces p = [p] := by
  induction p with
  | nil => rfl
  | cons c p ih =>
    obtain ⟨hc, hp⟩ := not_or.mp (List.mem_cons.not.mp h)
    rw [pieces, if_neg fun heq => hc heq.symm, ih hp]

lemma pieces_append {p : List Char} (h : '/' ∉ p) (cs : List Char) :
    pieces (p ++ '/' :: cs) = p :: pieces cs := by
  induction p with
  | nil => simp only [List.nil_append, pieces, if_true]
  | cons c p ih =>
    obtain ⟨hc, hp⟩ := not_or.mp (List.mem_cons.not.mp h)
    rw [List.cons_append, pieces, if_neg fun heq => hc heq.symm, ih hp]

lemma not_mem_of_mem_pieces {p cs : List Char} (h : p ∈ pieces cs) : '/' ∉ p := by
  induction cs generalizing p with
  | nil =>
    obtain rfl := List.mem_singleton.mp h
    exact List.not_mem_nil
  | cons c cs ih =>
    rw [pieces] at h
    split at h
    case isTrue =>
      rcases List.mem_cons.mp h with rfl | h
      · exact List.not_mem_nil
      · exact ih h
    case isFalse hc =>
      split at h
      · obtain rfl := List.mem_singleton.mp h
        exact fun hmem => hc (List.mem_singleton.mp hmem).symm
      · rename_i first rest hpieces
        rcases List.mem_cons.mp h with rfl | h
        · exact List.mem_cons.not.mpr (not_or.mpr
            ⟨fun heq => hc heq.symm, ih (hpieces ▸ List.mem_cons_self)⟩)
        · exact ih (hpieces ▸ List.mem_cons_of_mem _ h)

lemma pieces_join {ps : List (List Char)} (hne : ps ≠ []) (h : ∀ p ∈ ps, '/' ∉ p) :
    pieces (join ps) = ps := by
  induction ps with
  | nil => exact absurd rfl hne
  | cons p ps ih =>
    obtain ⟨hp, hps⟩ := List.forall_mem_cons.mp h
    cases ps with
    | nil => exact pieces_of_not_mem hp
    | cons q ps =>
      change pieces (p ++ '/' :: join (q :: ps)) = _
      rw [pieces_append hp, ih (List.cons_ne_nil _ _) hps]

lemma exists_trimPieces (ps : List (List Char)) :
    ∃ idle, ps = trimPieces ps ++ idle ∧ ∀ p ∈ idle, Idle p := by
  refine ⟨(ps.reverse.takeWhile fun p => decide (Idle p)).reverse, ?_, fun p hp => ?_⟩
  · rw [trimPieces, ← List.reverse_append, List.takeWhile_append_dropWhile, List.reverse_reverse]
  · have hidle := List.mem_takeWhile_imp (List.mem_reverse.mp hp)
    exact of_decide_eq_true hidle

lemma not_idle_of_getLast?_trimPieces {ps : List (List Char)} {p : List Char}
    (h : (trimPieces ps).getLast? = some p) : ¬ Idle p := by
  rw [trimPieces, List.getLast?_reverse] at h
  have hhead := List.head?_dropWhile_not (fun p => decide (Idle p)) ps.reverse
  rw [h] at hhead
  simpa using hhead

def stepsOf (ps : List (List Char)) : List Move := Move.steps (ps.map move)

lemma stepsOf_append (ps qs : List (List Char)) : stepsOf (ps ++ qs) = stepsOf ps ++ stepsOf qs := by
  rw [stepsOf, List.map_append, Move.steps_append]
  rfl

lemma stepsOf_cons_idle {p : List Char} (h : Idle p) (ps : List (List Char)) :
    stepsOf (p :: ps) = stepsOf ps := by
  simp [stepsOf, Move.steps, move, h]

lemma stepsOf_singleton {p : List Char} (h : ¬ Idle p) : stepsOf [p] = [move p] := by
  have hmove : move p ≠ .stay := by
    rw [move, if_neg h]
    split <;> exact fun heq => nomatch heq
  simp [stepsOf, Move.steps, hmove]

lemma stepsOf_idle {ps : List (List Char)} (h : ∀ p ∈ ps, Idle p) : stepsOf ps = [] := by
  induction ps with
  | nil => rfl
  | cons p ps ih =>
    obtain ⟨hp, hps⟩ := List.forall_mem_cons.mp h
    rw [stepsOf_cons_idle hp, ih hps]

lemma stepsOf_trimPieces (ps : List (List Char)) : stepsOf (trimPieces ps) = stepsOf ps := by
  obtain ⟨idle, hps, hidle⟩ := exists_trimPieces ps
  have hsteps := congrArg stepsOf hps
  rw [stepsOf_append, stepsOf_idle hidle, List.append_nil] at hsteps
  exact hsteps.symm

lemma lead_cases (p : Path) :
    (∃ cs, p.text.toList = '/' :: cs ∧ p.lead = ['/']) ∨ (p.text.toList = ['.'] ∧ p.lead = ['.']) ∨
    (∃ cs, p.text.toList = '.' :: '/' :: cs ∧ p.lead = ['.']) ∨ p.lead = [] ∧ ¬ p.IsAbsolute := by
  unfold IsAbsolute lead
  split
  case h_1 cs heq => exact .inl ⟨cs, heq, rfl⟩
  case h_2 heq => exact .inr (.inl ⟨heq, rfl⟩)
  case h_3 cs heq => exact .inr (.inr (.inl ⟨cs, heq, rfl⟩))
  case h_4 hroot _ _ =>
    refine .inr (.inr (.inr ⟨rfl, fun hhead => ?_⟩))
    obtain ⟨cs, hcs⟩ := List.head?_eq_some_iff.mp hhead
    exact hroot cs hcs

lemma steps_moves (p : Path) : Move.steps p.moves = stepsOf p.body := by
  rw [body, stepsOf_trimPieces]
  change stepsOf (pieces p.text.toList) = _
  rcases p.lead_cases with ⟨cs, htext, hlead⟩ | ⟨htext, hlead⟩ | ⟨cs, htext, hlead⟩ | ⟨hlead, -⟩
  all_goals rw [hlead]
  · rw [htext]
    exact stepsOf_cons_idle (.inl rfl) _
  · rw [htext]
    exact (stepsOf_cons_idle (.inr rfl) []).trans (stepsOf_cons_idle (.inl rfl) []).symm
  · rw [htext]
    change stepsOf (pieces (['.'] ++ '/' :: cs)) = stepsOf ([] :: pieces cs)
    rw [pieces_append (by decide), stepsOf_cons_idle (.inr rfl), stepsOf_cons_idle (.inl rfl)]
  · rfl

lemma trimPieces_isPrefix (ps : List (List Char)) : trimPieces ps <+: ps := by
  obtain ⟨idle, hps, -⟩ := exists_trimPieces ps
  exact ⟨idle, hps.symm⟩

lemma stepsOf_lead_join (p : Path) {ps : List (List Char)}
    (hps : ps <+: pieces (p.text.toList.drop p.lead.length))
    (hlast : ∀ q ∈ ps.getLast?, ¬ Idle q) (hne : p.lead ++ join ps ≠ []) :
    stepsOf (pieces (p.lead ++ join ps)) = stepsOf ps ∧
      ((p.lead ++ join ps).head? = some '/' ↔ p.IsAbsolute) := by
  have hslash : ∀ q ∈ ps, '/' ∉ q := fun q hq => not_mem_of_mem_pieces (hps.subset hq)
  rcases p.lead_cases with ⟨cs, htext, hlead⟩ | ⟨htext, hlead⟩ | ⟨cs, htext, hlead⟩ | ⟨hlead, hrelative⟩
  all_goals
    rw [hlead] at hps hne ⊢
    rcases ps with _ | ⟨first, ps⟩
  · refine ⟨(stepsOf_cons_idle (.inl rfl) [[]]).trans (stepsOf_cons_idle (.inl rfl) []), ?_⟩
    simp [IsAbsolute, htext]
  · change stepsOf (pieces ([] ++ '/' :: join (first :: ps))) = _ ∧ _
    rw [pieces_append List.not_mem_nil, pieces_join (List.cons_ne_nil _ _) hslash,
      stepsOf_cons_idle (.inl rfl)]
    exact ⟨rfl, by simp [IsAbsolute, htext]⟩
  · exact ⟨stepsOf_cons_idle (.inr rfl) [], by simp [IsAbsolute, htext, join]⟩
  · rw [htext] at hps
    change first :: ps <+: [[]] at hps
    obtain ⟨rfl, hnil⟩ := List.cons_prefix_cons.mp hps
    obtain rfl := List.prefix_nil.mp hnil
    exact absurd (.inl rfl) (hlast [] rfl)
  · exact ⟨stepsOf_cons_idle (.inr rfl) [], by simp [IsAbsolute, htext, join]⟩
  · rw [htext] at hps
    change first :: ps <+: [] :: pieces cs at hps
    obtain ⟨rfl, -⟩ := List.cons_prefix_cons.mp hps
    rcases ps with _ | ⟨second, ps⟩
    · exact absurd (.inl rfl) (hlast [] rfl)
    change stepsOf (pieces (['.'] ++ '/' :: join (second :: ps))) = _ ∧ _
    rw [pieces_append (by decide), pieces_join (List.cons_ne_nil _ _)
      fun q hq => hslash q (List.mem_cons_of_mem _ hq), stepsOf_cons_idle (.inr rfl),
      stepsOf_cons_idle (.inl rfl)]
    exact ⟨rfl, by simp [IsAbsolute, htext]⟩
  · exact absurd rfl hne
  · rw [List.nil_append, pieces_join (List.cons_ne_nil _ _) hslash]
    refine ⟨rfl, iff_of_false (fun hhead => ?_) hrelative⟩
    change first :: ps <+: pieces p.text.toList at hps
    cases first with
    | nil =>
      -- an empty piece in front is the root, or there is no other
      rcases htext : p.text.toList with _ | ⟨c, cs⟩
      · rw [htext] at hps
        obtain ⟨-, hnil⟩ := List.cons_prefix_cons.mp hps
        obtain rfl := List.prefix_nil.mp hnil
        exact hlast [] rfl (.inl rfl)
      · by_cases hc : c = '/'
        · exact hrelative (by rw [IsAbsolute, htext, hc]; rfl)
        · rw [htext, pieces, if_neg hc] at hps
          split at hps <;> exact nomatch (List.cons_prefix_cons.mp hps).1
    | cons c first =>
      have hc : (join ((c :: first) :: ps)).head? = some c := by cases ps <;> rfl
      obtain rfl := Option.some.inj (hc.symm.trans hhead)
      exact hslash _ List.mem_cons_self List.mem_cons_self

lemma steps_parent {p q : Path} (h : p.parent? = some q) : q.text = "" ∨
    (q.IsAbsolute ↔ p.IsAbsolute) ∧ ∃ m, Move.steps p.moves = Move.steps q.moves ++ [m] := by
  unfold parent? at h
  rcases hbody : p.body.reverse with _ | ⟨last, before⟩
  · rw [hbody] at h
    simp only at h
    split at h
    · obtain rfl := Option.some.inj h
      exact .inl rfl
    · exact nomatch h
  rw [hbody] at h
  obtain rfl := Option.some.inj h
  have hbody : p.body = before.reverse ++ [last] := by
    rw [← List.reverse_reverse p.body, hbody, List.reverse_cons]
  have hend : p.body.getLast? = some last := by rw [hbody, List.getLast?_concat]
  have hlast : ¬ Idle last := not_idle_of_getLast?_trimPieces hend
  have hfront : trimPieces before.reverse <+: pieces (p.text.toList.drop p.lead.length) := by
    apply (trimPieces_isPrefix _).trans
    apply List.IsPrefix.trans _ (trimPieces_isPrefix _)
    exact ⟨[last], hbody.symm⟩
  by_cases hne : p.lead ++ join (trimPieces before.reverse) = []
  · exact .inl (by rw [hne])
  obtain ⟨hsteps, hstart⟩ := p.stepsOf_lead_join hfront (fun _ => not_idle_of_getLast?_trimPieces) hne
  refine .inr ⟨by rwa [IsAbsolute, String.toList_ofList], move last, ?_⟩
  have hmoves : Move.steps (moves ⟨String.ofList (p.lead ++ join (trimPieces before.reverse))⟩) =
      stepsOf (trimPieces before.reverse) := by
    rw [← hsteps, moves, String.toList_ofList]
    rfl
  rw [steps_moves, hmoves, hbody, stepsOf_append, stepsOf_singleton hlast, stepsOf_trimPieces]

end Path

end VideoRemap

import Mathlib.Tactic.Lemma

namespace VideoRemap

variable {α β : Type} [BEq α] [LawfulBEq α] [DecidableEq α]

lemma lookup_cons_ite (k j : α) (b : β) (l : List (α × β)) :
    ((j, b) :: l).lookup k = if k = j then some b else l.lookup k := by
  by_cases h : k = j
  · simp [h]
  · simp [List.lookup_cons, h, beq_eq_false_iff_ne.mpr h]

lemma lookup_filter (p : α → Bool) (k : α) (l : List (α × β)) :
    (l.filter fun q => p q.1).lookup k = if p k then l.lookup k else none := by
  induction l with
  | nil => simp
  | cons q rest ih =>
    obtain ⟨j, b⟩ := q
    by_cases hk : k = j
    · subst hk
      by_cases hp : p k <;> simp [hp, ih]
    · by_cases hp : p j <;> simp [hp, lookup_cons_ite, hk, ih]

end VideoRemap

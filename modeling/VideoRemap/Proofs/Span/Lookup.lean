import VideoRemap.Proofs.Span.Length

namespace VideoRemap

lemma Run.find?_eq_getElem? {β γ : Type} (value : β → Nat → γ) (rs : List (Run β)) (i : Nat) :
    (find? rs i).map (fun p => value p.1 p.2) = (expand value rs)[i]? := by
  induction rs generalizing i with
  | nil => simp [find?, expand]
  | cons r rs ih =>
    rw [expand_cons, find?]
    by_cases h : i < r.length
    · simp [h, List.getElem?_append]
    · rw [if_neg h, ih, List.getElem?_append_right (by simpa using h)]
      simp

namespace Span

variable {α : Type} [Scalar α]

lemma get?_eq_getElem? (s : Span α) (i : Nat) : s.get? i = s.toList[i]? := by
  cases s with
  | dense vs => rfl
  | sparse rs => exact Run.find?_eq_getElem? (fun v _ => v) rs i
  | linear rs => exact Run.find?_eq_getElem? Ramp.value rs i

lemma exists_get?_of_lt {s : Span α} {i : Nat} (h : i < s.length) : ∃ v, s.get? i = some v := by
  rw [← length_toList] at h
  exact ⟨s.toList[i], by rw [get?_eq_getElem?, List.getElem?_eq_getElem h]⟩

lemma lt_length_of_get? {s : Span α} {i : Nat} {v : α} (h : s.get? i = some v) : i < s.length := by
  rw [get?_eq_getElem?] at h
  rw [← length_toList]
  exact (List.getElem?_eq_some_iff.mp h).1

end Span

end VideoRemap

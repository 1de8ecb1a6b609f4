import VideoRemap.Proofs.Span.Pointer
import VideoRemap.Span.Cursor

namespace VideoRemap

namespace Run

variable {β γ : Type}

lemma drop_expand_advance (value : β → Nat → γ) {r : Run β} {rs : List (Run β)} {used : Nat}
    (h : used < r.length) : (expand value (r :: rs)).drop used = value r.payload used ::
      (expand value (Cursor.advance r rs used).1).drop (Cursor.advance r rs used).2 := by
  obtain ⟨n, hn⟩ : ∃ n, r.length - used = n + 1 := ⟨r.length - used - 1, by omega⟩
  rw [drop_expand value (Nat.le_of_lt h), hn, List.range'_succ, List.map_cons, List.cons_append,
    Cursor.advance]
  split
  case isTrue hmore =>
    simp only
    rw [drop_expand value (Nat.le_of_lt hmore), show r.length - (used + 1) = n by omega]
  case isFalse hlast =>
    obtain rfl : n = 0 := by omega
    rfl

end Run

namespace Span

variable {α : Type}

def headLength : Span α → Nat
  | dense _ => 0
  | sparse rs => Run.headLength rs
  | linear rs => Run.headLength rs

end Span

namespace Cursor

variable {α : Type}

structure Valid (c : Cursor α) : Prop where
  wellFormed : c.rest.WellFormed
  used_lt : c.used = 0 ∨ c.used < c.rest.headLength

lemma start_valid {s : Span α} (hs : s.WellFormed) : (start s).Valid := ⟨hs, Or.inl rfl⟩

lemma advance_inside {β : Type} {r : Run β} {rs : List (Run β)} (h : Run.WellFormed (r :: rs)) (used : Nat) :
    Run.WellFormed (advance r rs used).1 ∧
      ((advance r rs used).2 = 0 ∨ (advance r rs used).2 < Run.headLength (advance r rs used).1) := by
  unfold advance
  split
  case isTrue hmore => exact ⟨h, Or.inr hmore⟩
  case isFalse => exact ⟨(Run.wellFormed_cons.mp h).2, Or.inl rfl⟩

lemma used_lt_length {β : Type} {r : Run β} {rs : List (Run β)} (h : Run.WellFormed (r :: rs)) {used : Nat}
    (hused : used = 0 ∨ used < Run.headLength (r :: rs)) : used < r.length := by
  rcases hused with rfl | hused
  · exact (Run.wellFormed_cons.mp h).1
  · exact hused

variable [Scalar α]

def values (c : Cursor α) : List α := c.rest.toList.drop c.used

lemma values_start (s : Span α) : (start s).values = s.toList := rfl

def after (c : Cursor α) : Nat → Cursor α
  | 0 => c
  | n + 1 =>
    match c.next? with
    | none => c
    | some (_, c) => c.after n

variable {c : Cursor α}

lemma remaining_eq (c : Cursor α) : c.remaining = c.values.length := by
  rw [remaining, values, List.length_drop, Span.length_toList]

namespace Valid

lemma next?_cases (h : c.Valid) : (c.next? = none ∧ c.values = []) ∨
    ∃ v c', c.next? = some (v, c') ∧ c'.Valid ∧ c.values = v :: c'.values := by
  obtain ⟨rest, used⟩ := c
  obtain ⟨hrest, hused⟩ := h
  cases rest with
  | dense vs =>
    obtain rfl : used = 0 := hused.resolve_right (Nat.not_lt_zero used)
    cases vs with
    | nil => exact Or.inl ⟨rfl, rfl⟩
    | cons v vs => exact Or.inr ⟨v, _, rfl, ⟨trivial, Or.inl rfl⟩, rfl⟩
  | sparse rs =>
    cases rs with
    | nil => exact Or.inl ⟨rfl, List.drop_nil⟩
    | cons r rs =>
      obtain ⟨hrs, hinside⟩ := advance_inside hrest used
      exact Or.inr ⟨r.payload, _, rfl, ⟨hrs, hinside⟩,
        Run.drop_expand_advance (fun v _ => v) (used_lt_length hrest hused)⟩
  | linear rs =>
    cases rs with
    | nil => exact Or.inl ⟨rfl, List.drop_nil⟩
    | cons r rs =>
      obtain ⟨hrs, hinside⟩ := advance_inside hrest used
      exact Or.inr ⟨r.payload.value used, _, rfl, ⟨hrs, hinside⟩,
        Run.drop_expand_advance Ramp.value (used_lt_length hrest hused)⟩

lemma next? (h : c.Valid) : c.next?.map Prod.fst = c.values.head? := by
  rcases h.next?_cases with ⟨hnext, hvalues⟩ | ⟨v, c', hnext, -, hvalues⟩
  · rw [hnext, hvalues]
    rfl
  · rw [hnext, hvalues]
    rfl

lemma after (h : c.Valid) (n : Nat) : (c.after n).Valid ∧ (c.after n).values = c.values.drop n := by
  induction n generalizing c with
  | zero => exact ⟨h, rfl⟩
  | succ n ih =>
    rw [Cursor.after]
    rcases h.next?_cases with ⟨hnext, hvalues⟩ | ⟨v, c', hnext, hc, hvalues⟩
    · simp only [hnext, hvalues, List.drop_nil]
      exact ⟨h, trivial⟩
    · rw [hnext, hvalues, List.drop_succ_cons]
      exact ih hc

lemma take (h : c.Valid) (n : Nat) : c.take n = c.values.take n := by
  induction n generalizing c with
  | zero => rfl
  | succ n ih =>
    rw [Cursor.take]
    rcases h.next?_cases with ⟨hnext, hvalues⟩ | ⟨v, c', hnext, hc, hvalues⟩
    · rw [hnext, hvalues]
      rfl
    · rw [hnext, hvalues, List.take_succ_cons, ← ih hc]

lemma length_take (h : c.Valid) (n : Nat) : (c.take n).length = min n c.remaining := by
  rw [h.take, List.length_take, remaining_eq]

end Valid

end Cursor

namespace Span

variable {α : Type} [Scalar α]

lemma take_start {s : Span α} (hs : s.WellFormed) {n : Nat} (hn : s.length ≤ n) :
    (Cursor.start s).take n = s.toList := by
  rw [(Cursor.start_valid hs).take, Cursor.values_start, List.take_of_length_le]
  rwa [length_toList]

theorem reads_agree {s : Span α} (hs : s.WellFormed) :
    (∀ i, s.get? i = none ↔ s.length ≤ i) ∧
    (∀ i < s.length, s.get? i = s.at? (s.runOf i) i) ∧
    (∀ i, ((Cursor.start s).after i).next?.map Prod.fst = s.get? i ∧
      ((Pointer.start.after s i).next? s).map Prod.fst = s.get? i) ∧
    (∀ k, ((Cursor.start s).after k).remaining = s.length - k ∧
      s.length - (Pointer.start.after s k).pixel = s.length - k ∧
      ∀ n, (((Cursor.start s).after k).take n).length = min n (s.length - k)) ∧
    (∀ n, s.length ≤ n → (Cursor.start s).take n = s.toList ∧
      (Cursor.start s.toDense).take n = s.toList ∧ s.toDense = dense ((Cursor.start s).take n)) ∧
    s.toList.length = s.length ∧ s.toDense.toDense = s.toDense := by
  have hstart := Cursor.start_valid hs
  have hpointer (i : Nat) := Pointer.next?_after hs (Pointer.start_valid hs) i
  simp only [Pointer.start, Nat.zero_add] at hpointer
  have hremaining (k : Nat) : ((Cursor.start s).after k).remaining = s.length - k := by
    rw [Cursor.remaining_eq, (hstart.after k).2, Cursor.values_start, List.length_drop, length_toList]
  refine ⟨fun i => get?_eq_none_iff, fun i hi => get?_eq_at? hi, fun i => ⟨?_, (hpointer i).1⟩,
    fun k => ⟨hremaining k, (hpointer k).2, fun n => ?_⟩, fun n hn => ⟨take_start hs hn, ?_, ?_⟩,
    length_toList s, rfl⟩
  · rw [(hstart.after i).1.next?, (hstart.after i).2, Cursor.values_start, List.head?_drop, get?_eq_getElem?]
  · rw [(hstart.after k).1.length_take, hremaining]
  · have hlength : s.toDense.length = s.length := length_toList s
    have hdense : s.toDense.WellFormed := trivial
    exact take_start hdense (hlength ▸ hn)
  · rw [take_start hs hn]
    rfl

theorem reads_agree_on_wrapping_ramp :
    let s : Span Int32 := linear [⟨1, ⟨7, 5⟩⟩, ⟨3, ⟨2147483646, 1⟩⟩]
    s.WellFormed ∧ s.get? 3 = some (-2147483648) ∧ s.at? (s.runOf 3) 3 = some (-2147483648) ∧
    ((Cursor.start s).after 3).next?.map Prod.fst = some (-2147483648) ∧
    ((Pointer.start.after s 3).next? s).map Prod.fst = some (-2147483648) ∧
    ((Cursor.start s).after 4).next?.map Prod.fst = none ∧
    ((Cursor.start s).after 1).remaining = 3 ∧ ((Cursor.start s).after 9).remaining = 0 ∧
    (Cursor.start s).take 9 = [7, 2147483646, 2147483647, -2147483648] ∧
    s.toDense = dense [7, 2147483646, 2147483647, -2147483648] := by
  intro s
  have hs : s.WellFormed := by simp [s, WellFormed, Run.WellFormed]
  obtain ⟨-, hrun, hnext, hremaining, htake, -, -⟩ := reads_agree hs
  obtain ⟨hcollect, -, hdense⟩ := htake 9 (by decide)
  exact ⟨hs, rfl, (hrun 3 (by decide)).symm, (hnext 3).1, (hnext 3).2, (hnext 4).1, (hremaining 1).1,
    (hremaining 9).1, hcollect, hdense.trans (congrArg dense hcollect)⟩

end Span

end VideoRemap

import Mathlib.Tactic.Lemma

namespace VideoRemap

lemma toOption_eq_some {ε α : Type} {r : Except ε α} {a : α} : r.toOption = some a ↔ r = .ok a := by
  cases r <;> simp [Except.toOption]

namespace Traversal

section

variable {m : Type → Type} [Monad m] [LawfulMonad m] {α β : Type}

lemma mapM_congr {f g : α → m β} {l : List α} (h : ∀ x ∈ l, f x = g x) : l.mapM f = l.mapM g := by
  induction l with
  | nil => rfl
  | cons x l ih =>
    rw [List.mapM_cons, List.mapM_cons, h x List.mem_cons_self,
      ih fun y hy => h y (List.mem_cons_of_mem _ hy)]

end

variable {α β ε : Type}

section

variable {x : Except ε α} {b : β}

lemma map_eq_ok_iff {f : α → β} : f <$> x = .ok b ↔ ∃ a, x = .ok a ∧ f a = b := by
  cases x with
  | error e => exact ⟨(nomatch ·), fun ⟨_, h, _⟩ => nomatch h⟩
  | ok a =>
    constructor
    · exact fun h => ⟨a, rfl, Except.ok.inj h⟩
    · rintro ⟨_, ⟨⟩, rfl⟩
      rfl

lemma bind_eq_ok_iff {f : α → Except ε β} : x >>= f = .ok b ↔ ∃ a, x = .ok a ∧ f a = .ok b := by
  cases x with
  | error e => exact ⟨(nomatch ·), fun ⟨_, h, _⟩ => nomatch h⟩
  | ok a =>
    constructor
    · exact fun h => ⟨a, rfl, h⟩
    · rintro ⟨_, ⟨⟩, hf⟩
      exact hf

lemma map_eq_error_iff {f : α → β} {e : ε} : f <$> x = .error e ↔ x = .error e := by
  cases x with
  | error e' => exact ⟨fun h => congrArg _ (Except.error.inj h), fun h => congrArg _ (Except.error.inj h)⟩
  | ok a => exact ⟨(nomatch ·), (nomatch ·)⟩

lemma bind_eq_error_iff {f : α → Except ε β} {e : ε} :
    x >>= f = .error e ↔ x = .error e ∨ ∃ a, x = .ok a ∧ f a = .error e := by
  cases x with
  | error e' =>
    constructor
    · exact fun h => Or.inl (congrArg _ (Except.error.inj h))
    · rintro (h | ⟨_, h, _⟩)
      · exact congrArg _ (Except.error.inj h)
      · exact nomatch h
  | ok a =>
    constructor
    · exact fun h => Or.inr ⟨a, rfl, h⟩
    · rintro (h | ⟨_, ⟨⟩, hf⟩)
      · exact nomatch h
      · exact hf

end

lemma mapM_eq_error {f : α → Except ε β} {e : ε} {l : List α}
    (h : ∀ x ∈ l, f x = .error e ∨ ∃ y, f x = .ok y) (hx : ∃ x ∈ l, f x = .error e) :
    l.mapM f = .error e := by
  induction l with
  | nil => simp at hx
  | cons x l ih =>
    rw [List.mapM_cons]
    rcases h x List.mem_cons_self with hfail | ⟨y, hy⟩
    · rw [hfail]
      rfl
    · have htail : l.mapM f = .error e := by
        refine ih (fun z hz => h z (List.mem_cons_of_mem _ hz)) ?_
        obtain ⟨z, hz, hfail⟩ := hx
        rcases List.mem_cons.mp hz with rfl | hz
        · simp [hy] at hfail
        · exact ⟨z, hz, hfail⟩
      rw [hy, htail]
      rfl

lemma exists_error_of_mapM {f : α → Except ε β} {e : ε} {l : List α} (h : l.mapM f = .error e) :
    ∃ x ∈ l, f x = .error e := by
  induction l with
  | nil => simp [pure, Except.pure] at h
  | cons x l ih =>
    rw [List.mapM_cons] at h
    cases hx : f x with
    | error e' =>
      obtain rfl : e' = e := by simpa [hx, bind, Except.bind] using h
      exact ⟨x, List.mem_cons_self, hx⟩
    | ok y =>
      cases htail : l.mapM f with
      | error e' =>
        obtain rfl : e' = e := by simpa [hx, htail, bind, Except.bind] using h
        obtain ⟨z, hz, hfail⟩ := ih htail
        exact ⟨z, List.mem_cons_of_mem _ hz, hfail⟩
      | ok ys => simp [hx, htail, bind, Except.bind, pure, Except.pure] at h

lemma exists_mapM {f : α → Except ε β} {l : List α} (h : ∀ x ∈ l, ∃ y, f x = .ok y) :
    ∃ ys, l.mapM f = .ok ys := by
  cases hl : l.mapM f with
  | error e =>
    obtain ⟨x, hx, hfail⟩ := exists_error_of_mapM hl
    obtain ⟨y, hy⟩ := h x hx
    exact nomatch hfail.symm.trans hy
  | ok ys => exact ⟨ys, rfl⟩

lemma length_of_mapM {f : α → Except ε β} {l : List α} {l' : List β} (h : l.mapM f = .ok l') :
    l'.length = l.length := by
  induction l generalizing l' with
  | nil =>
    cases h
    rfl
  | cons x l ih =>
    rw [List.mapM_cons] at h
    obtain ⟨y, -, h⟩ := bind_eq_ok_iff.mp h
    obtain ⟨ys, hys, h⟩ := bind_eq_ok_iff.mp h
    cases h
    rw [List.length_cons, ih hys, List.length_cons]

lemma mapM_eq_some_iff {f : α → Option β} {l : List α} {l' : List β} :
    l.mapM f = some l' ↔ l.map f = l'.map some := by
  induction l generalizing l' with
  | nil =>
    rw [List.mapM_nil]
    cases l' <;> simp
  | cons x l ih =>
    rw [List.mapM_cons]
    cases hx : f x with
    | none => cases l' <;> simp [hx]
    | some y =>
      cases hl : l.mapM f with
      | none =>
        have hnot (ys : List β) : l.map f ≠ ys.map some := fun h => by
          rw [← ih, hl] at h
          exact nomatch h
        cases l' <;> simp [hx, hnot]
      | some ys => cases l' <;> simp [hx, ← ih, hl]

lemma mapM_eq_none_iff {f : α → Option β} {l : List α} :
    l.mapM f = none ↔ ∃ x ∈ l, f x = none := by
  induction l with
  | nil => simp
  | cons x l ih =>
    rw [List.mapM_cons]
    cases hx : f x with
    | none => simp [hx]
    | some y => cases hl : l.mapM f <;> simp [hx, ← ih, hl]

lemma exists_prefix (f : Nat → Except ε α) (n : Nat) : ∃ l : List α,
    (∀ i (hi : i < l.length), f i = .ok l[i]) ∧
    (l.length = n ∨ l.length < n ∧ ∃ e, f l.length = .error e) := by
  induction n with
  | zero => exact ⟨[], (fun i hi => nomatch hi), Or.inl rfl⟩
  | succ n ih =>
    obtain ⟨l, hl, hlength | ⟨hlt, hfail⟩⟩ := ih
    · cases hn : f n with
      | error e => exact ⟨l, hl, Or.inr ⟨by omega, e, hlength ▸ hn⟩⟩
      | ok a =>
        refine ⟨l ++ [a], fun i hi => ?_, Or.inl (by simp [hlength])⟩
        rw [List.getElem_append]
        split
        case isTrue hi => exact hl i hi
        case isFalse hge =>
          rw [List.length_append, List.length_singleton] at hi
          obtain rfl : i = n := by omega
          rw [hn, List.getElem_singleton]
    · exact ⟨l, hl, Or.inr ⟨by omega, hfail⟩⟩

section

variable {ι γ : Type} {l : List ι} {u : ι → Option α} {v : ι → Option β} {as : List α} {bs : List β}

lemma zipWith_eq_map (op : α → β → Option γ) (ha : as.map some = l.map u) (hb : bs.map some = l.map v) :
    List.zipWith op as bs = l.map (fun x => do op (← u x) (← v x)) := by
  have hop : List.zipWith op as bs = List.zipWith (fun (a : Option α) (b : Option β) => do op (← a) (← b))
      (as.map some) (bs.map some) := by
    rw [List.zipWith_map]
    rfl
  rw [hop, ha, hb, List.zipWith_map, List.zipWith_self]

lemma map_some_zip (ha : as.map some = l.map u) (hb : bs.map some = l.map v) :
    (as.zip bs).map some = l.map (fun x => do return (← u x, ← v x)) := by
  rw [List.zip, List.map_zipWith]
  exact zipWith_eq_map (fun a b => some (a, b)) ha hb

lemma exists_mapM_of_values {f : α → Except ε β} (ha : as.map some = l.map u)
    (h : ∀ x ∈ l, ∀ a, u x = some a → ∃ b, f a = .ok b ∧ v x = some b) :
    ∃ bs, as.mapM f = .ok bs ∧ l.mapM v = some bs := by
  induction l generalizing as with
  | nil =>
    obtain rfl := List.map_eq_nil_iff.mp ha
    exact ⟨[], rfl, rfl⟩
  | cons x l ih =>
    obtain ⟨a, as, rfl, hx, htail⟩ := List.map_eq_cons_iff.mp ha
    obtain ⟨b, hfa, hvx⟩ := h x List.mem_cons_self a hx.symm
    obtain ⟨bs, hfas, hvl⟩ := ih htail fun y hy => h y (List.mem_cons_of_mem _ hy)
    exact ⟨b :: bs, by rw [List.mapM_cons, hfa, hfas]; rfl, by rw [List.mapM_cons, hvx, hvl]; rfl⟩

end

end Traversal

end VideoRemap

import VideoRemap.Proofs.Span.Layout
import VideoRemap.Proofs.Span.Lookup

/-!
Reading a span by its boundaries. The run of a pixel is found among all boundaries, or by a pointer to
the run before it that moves on; both find the run that counting off the runs finds.
-/

namespace VideoRemap

namespace Run

variable {β : Type}

def lastBefore (bs : List Nat) (i : Nat) : Nat := (bs.takeWhile (· ≤ i)).length - 1

def moveOn (bs : List Nat) (i k : Nat) : Nat :=
  if h : k + 1 < bs.length then
    if bs[k + 1] ≤ i then moveOn bs i (k + 1) else k
  else k
termination_by bs.length - k

def at? (bs : List Nat) (payloads : List β) (k i : Nat) : Option (β × Nat) := do
  return (← payloads[k]?, i - (← bs[k]?))

lemma length_takeWhile_le {bs : List Nat} (h : bs.Pairwise (· < ·)) {k i b : Nat} (hb : bs[k]? = some b)
    (hle : b ≤ i) (hnext : ∀ b', bs[k + 1]? = some b' → i < b') :
    (bs.takeWhile (· ≤ i)).length = k + 1 := by
  induction bs generalizing k with
  | nil => exact nomatch hb
  | cons c bs ih =>
    obtain ⟨hfirst, hrest⟩ := List.pairwise_cons.mp h
    cases k with
    | zero =>
      obtain rfl := Option.some.inj hb
      rw [List.takeWhile_cons_of_pos (by simpa using hle)]
      cases bs with
      | nil => rfl
      | cons c' bs =>
        have hlt := hnext c' rfl
        rw [List.takeWhile_cons_of_neg (by simpa using hlt)]
        rfl
    | succ k =>
      have hlt := hfirst b (List.mem_of_getElem? hb)
      rw [List.takeWhile_cons_of_pos (by simp; omega), List.length_cons, ih hrest hb hnext]

lemma moveOn_eq {bs : List Nat} (h : bs.Pairwise (· < ·)) {k i b : Nat} (hb : bs[k]? = some b) (hle : b ≤ i) :
    moveOn bs i k = lastBefore bs i ∧ ∃ b', bs[moveOn bs i k]? = some b' ∧ b' ≤ i := by
  have hsettled {k b : Nat} (hb : bs[k]? = some b) (hle : b ≤ i)
      (hnext : ∀ b', bs[k + 1]? = some b' → i < b') :
      k = lastBefore bs i ∧ ∃ b', bs[k]? = some b' ∧ b' ≤ i := by
    rw [lastBefore, length_takeWhile_le h hb hle hnext, Nat.add_sub_cancel]
    exact ⟨rfl, b, hb, hle⟩
  fun_induction moveOn bs i k generalizing b with
  | case1 k hk hle' ih => exact ih (List.getElem?_eq_getElem hk) hle'
  | case2 k hk hlt =>
    apply hsettled hb hle
    intro b' hb'
    obtain rfl := Option.some.inj ((List.getElem?_eq_getElem hk).symm.trans hb')
    omega
  | case3 k hend =>
    apply hsettled hb hle
    intro b' hb'
    exact absurd (List.getElem?_eq_some_iff.mp hb').1 hend

lemma find?_eq_at?_from {rs : List (Run β)} (pos : Nat) {i : Nat} (hi : i < total rs) :
    find? rs i = at? (boundaries pos rs) (rs.map Run.payload) (lastBefore (boundaries pos rs) (pos + i))
      (pos + i) := by
  induction rs generalizing pos i with
  | nil => exact absurd hi (Nat.not_lt_zero i)
  | cons r rs ih =>
    obtain ⟨bs, hbs⟩ := exists_boundaries_eq (pos + r.length) rs
    rw [find?, boundaries, lastBefore, List.takeWhile_cons_of_pos (by simp)]
    by_cases hr : i < r.length
    · -- The next boundary is not reached.
      rw [if_pos hr, hbs, List.takeWhile_cons_of_neg (by simp; omega)]
      simp [at?]
    · have hrest : i - r.length < total rs := by
        rw [total] at hi
        omega
      rw [if_neg hr, ih (pos + r.length) hrest, Nat.add_assoc, Nat.add_sub_cancel' (by omega), lastBefore, hbs,
        List.takeWhile_cons_of_pos (by simp; omega)]
      simp [at?]

lemma find?_eq_at? {rs : List (Run β)} {i : Nat} (hi : i < total rs) :
    find? rs i = at? (boundaries 0 rs) (rs.map Run.payload) (lastBefore (boundaries 0 rs) i) i := by
  rw [find?_eq_at?_from 0 hi, Nat.zero_add]

end Run

namespace Span

variable {α : Type} [Scalar α]

def at? (s : Span α) (k i : Nat) : Option α :=
  match s with
  | dense vs => vs[i]?
  | sparse rs => (Run.at? (Run.boundaries 0 rs) (rs.map Run.payload) k i).map fun (v, _) => v
  | linear rs => (Run.at? (Run.boundaries 0 rs) (rs.map Run.payload) k i).map fun (r, j) => r.value j

def runOf (s : Span α) (i : Nat) : Nat := s.boundaries.elim 0 (Run.lastBefore · i)

lemma get?_eq_none_iff {s : Span α} {i : Nat} : s.get? i = none ↔ s.length ≤ i := by
  rw [get?_eq_getElem?, List.getElem?_eq_none_iff, length_toList]

lemma get?_eq_at? {s : Span α} {i : Nat} (hi : i < s.length) : s.get? i = s.at? (s.runOf i) i := by
  cases s with
  | dense vs => rfl
  | sparse rs => exact congrArg (Option.map _) (Run.find?_eq_at? hi)
  | linear rs => exact congrArg (Option.map _) (Run.find?_eq_at? hi)

end Span

structure Pointer where
  run : Nat
  pixel : Nat

namespace Pointer

variable {α : Type} {s : Span α} {p : Pointer}

def start : Pointer := ⟨0, 0⟩

def turn (s : Span α) (p : Pointer) : Nat := s.boundaries.elim p.run (Run.moveOn · p.pixel p.run)

def Valid (s : Span α) (p : Pointer) : Prop :=
  ∀ bs, s.boundaries = some bs → ∃ b, bs[p.run]? = some b ∧ b ≤ p.pixel

lemma start_valid (hs : s.WellFormed) : start.Valid s := by
  intro bs hbs
  obtain ⟨hhead, -⟩ := hs.laidOut.boundaries bs hbs
  exact ⟨0, List.head?_eq_getElem?.symm.trans hhead, Nat.le_refl 0⟩

variable [Scalar α]

def next? (s : Span α) (p : Pointer) : Option (α × Pointer) :=
  if s.length ≤ p.pixel then none
  else (s.at? (p.turn s) p.pixel).map fun v => (v, ⟨p.turn s, p.pixel + 1⟩)

def after (s : Span α) (p : Pointer) : Nat → Pointer
  | 0 => p
  | n + 1 =>
    match p.next? s with
    | none => p
    | some (_, p) => p.after s n

lemma at?_turn (hs : s.WellFormed) (hp : p.Valid s) :
    s.at? (p.turn s) p.pixel = s.at? (s.runOf p.pixel) p.pixel ∧
      Valid s ⟨p.turn s, p.pixel + 1⟩ := by
  unfold turn Span.runOf
  cases hbs : s.boundaries with
  | none =>
    refine ⟨?_, fun bs h => nomatch hbs.symm.trans h⟩
    cases s with
    | dense vs => rfl
    | sparse rs => exact nomatch hbs
    | linear rs => exact nomatch hbs
  | some bs =>
    obtain ⟨-, hincreasing, -⟩ := hs.laidOut.boundaries bs hbs
    obtain ⟨b, hb, hle⟩ := hp bs hbs
    obtain ⟨hrun, b', hb', hle'⟩ := Run.moveOn_eq hincreasing hb hle
    refine ⟨congrArg (s.at? · p.pixel) hrun, fun bs' h => ?_⟩
    obtain rfl := Option.some.inj (hbs.symm.trans h)
    exact ⟨b', hb', Nat.le_succ_of_le hle'⟩

lemma next?_cases (hs : s.WellFormed) (hp : p.Valid s) :
    (s.length ≤ p.pixel ∧ p.next? s = none) ∨
    ∃ v p', s.get? p.pixel = some v ∧ p.next? s = some (v, p') ∧ p'.Valid s ∧ p'.pixel = p.pixel + 1 := by
  unfold next?
  split
  case isTrue hend => exact Or.inl ⟨hend, rfl⟩
  case isFalse hmore =>
    obtain ⟨v, hv⟩ := Span.exists_get?_of_lt (Nat.lt_of_not_le hmore)
    obtain ⟨hat, hvalid⟩ := at?_turn hs hp
    refine Or.inr ⟨v, _, hv, ?_, hvalid, rfl⟩
    rw [hat, ← Span.get?_eq_at? (Nat.lt_of_not_le hmore), hv, Option.map_some]

lemma next?_after (hs : s.WellFormed) (hp : p.Valid s) (n : Nat) :
    ((p.after s n).next? s).map Prod.fst = s.get? (p.pixel + n) ∧
      s.length - (p.after s n).pixel = s.length - (p.pixel + n) := by
  induction n generalizing p with
  | zero =>
    rcases next?_cases hs hp with ⟨hend, hnext⟩ | ⟨v, p', hv, hnext, -, -⟩
    · rw [after, hnext, Nat.add_zero, Span.get?_eq_none_iff.mpr hend]
      exact ⟨rfl, rfl⟩
    · rw [after, hnext, Nat.add_zero, hv]
      exact ⟨rfl, rfl⟩
  | succ n ih =>
    rcases next?_cases hs hp with ⟨hend, hnext⟩ | ⟨v, p', hv, hnext, hp', hpixel⟩
    · have hbehind : s.get? (p.pixel + (n + 1)) = none := Span.get?_eq_none_iff.mpr (by omega)
      simp only [after, hnext, hbehind]
      exact ⟨rfl, by omega⟩
    · obtain ⟨hvalue, hleft⟩ := ih hp'
      simp only [after, hnext]
      rw [hvalue, hleft, hpixel, Nat.add_assoc, Nat.add_comm 1]
      exact ⟨rfl, rfl⟩

end Pointer

end VideoRemap

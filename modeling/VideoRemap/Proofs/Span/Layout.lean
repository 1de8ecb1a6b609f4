import VideoRemap.Proofs.Span.WellFormed
import VideoRemap.Proofs.Span.Length

namespace VideoRemap

namespace Run

variable {β : Type}

lemma exists_boundaries_eq (pos : Nat) (rs : List (Run β)) : ∃ bs, boundaries pos rs = pos :: bs := by
  cases rs with
  | nil => exact ⟨[], rfl⟩
  | cons r rs => exact ⟨_, rfl⟩

lemma head?_boundaries (pos : Nat) (rs : List (Run β)) : (boundaries pos rs).head? = some pos := by
  cases rs <;> rfl

lemma length_boundaries (pos : Nat) (rs : List (Run β)) :
    (boundaries pos rs).length = rs.length + 1 := by
  induction rs generalizing pos with
  | nil => rfl
  | cons r rs ih => simp [boundaries, ih]

lemma getLast?_boundaries (pos : Nat) (rs : List (Run β)) :
    (boundaries pos rs).getLast? = some (pos + total rs) := by
  induction rs generalizing pos with
  | nil => rfl
  | cons r rs ih =>
    rw [boundaries, List.getLast?_cons, ih, total, Option.getD_some, Nat.add_assoc]

lemma le_of_mem_boundaries {pos : Nat} {rs : List (Run β)} {b : Nat} (h : b ∈ boundaries pos rs) :
    pos ≤ b := by
  induction rs generalizing pos with
  | nil => simp_all [boundaries]
  | cons r rs ih =>
    rcases List.mem_cons.mp h with rfl | h
    · exact Nat.le_refl b
    · have := ih h
      omega

lemma pairwise_boundaries {rs : List (Run β)} (h : WellFormed rs) (pos : Nat) :
    (boundaries pos rs).Pairwise (· < ·) := by
  induction rs generalizing pos with
  | nil => simp [boundaries]
  | cons r rs ih =>
    obtain ⟨hr, hrs⟩ := wellFormed_cons.mp h
    refine List.pairwise_cons.mpr ⟨fun b hb => ?_, ih hrs _⟩
    have := le_of_mem_boundaries hb
    omega

end Run

/-- What two operands give where two linear ones give `ramps` and a linear and a sparse one give
`mixed`. A dense operand makes the result dense, and two sparse ones make it sparse. -/
def Encoding.promote (ramps mixed : Encoding) : Encoding → Encoding → Encoding
  | .dense, _ | _, .dense => .dense
  | .linear, .linear => ramps
  | .sparse, .sparse => .sparse
  | .linear, .sparse | .sparse, .linear => mixed

namespace Span

variable {α : Type}

structure LaidOut (s : Span α) (n : Nat) (e : Encoding) : Prop where
  length_eq : s.length = n
  encoding_eq : s.encoding = e
  boundaries : ∀ bs, s.boundaries = some bs →
    bs.head? = some 0 ∧ bs.Pairwise (· < ·) ∧ bs.getLast? = some n ∧ bs.length = s.runCount + 1

lemma WellFormed.laidOut {s : Span α} (h : s.WellFormed) : s.LaidOut s.length s.encoding where
  length_eq := rfl
  encoding_eq := rfl
  boundaries bs hbs := by
    have hruns {β : Type} (rs : List (Run β)) (hrs : Run.WellFormed rs) :
        (Run.boundaries 0 rs).head? = some 0 ∧ (Run.boundaries 0 rs).Pairwise (· < ·) ∧
          (Run.boundaries 0 rs).getLast? = some (Run.total rs) ∧
          (Run.boundaries 0 rs).length = rs.length + 1 :=
      ⟨Run.head?_boundaries 0 rs, Run.pairwise_boundaries hrs 0,
        (Run.getLast?_boundaries 0 rs).trans (by rw [Nat.zero_add]), Run.length_boundaries 0 rs⟩
    cases s with
    | dense vs => exact nomatch hbs
    | sparse rs =>
      obtain rfl := Option.some.inj hbs
      exact hruns rs h
    | linear rs =>
      obtain rfl := Option.some.inj hbs
      exact hruns rs h

lemma encoding_constant (n : Nat) (v : α) : (constant n v).encoding = .sparse := rfl

variable [Scalar α]

lemma encoding_add (a b : Span α) :
    (a + b).encoding = .promote .linear .linear a.encoding b.encoding := by
  change (add a b).encoding = _
  cases a <;> cases b <;> rfl

lemma encoding_mul (a b : Span α) :
    (a * b).encoding = .promote .dense .linear a.encoding b.encoding := by
  change (mul a b).encoding = _
  cases a <;> cases b <;> rfl

lemma encoding_scale (k : α) (a : Span α) : (scale k a).encoding = a.encoding := by
  rw [scale, encoding_mul, encoding_constant]
  cases a <;> rfl

lemma encoding_zipWith? {f : α → α → Option α} {a b s : Span α} (h : zipWith? f a b = some s) :
    s.encoding = .promote .dense .dense a.encoding b.encoding := by
  cases a <;> cases b <;> obtain ⟨_, -, rfl⟩ := Option.map_eq_some_iff.mp h <;> rfl

end Span

end VideoRemap

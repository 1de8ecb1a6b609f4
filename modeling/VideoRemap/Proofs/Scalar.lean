import Mathlib.Tactic.Lemma
import VideoRemap.Scalar

namespace VideoRemap

/-- A coordinate stands for one whole number, and an index for it is that number cut off at the last
index. -/
class LawfulScalar (α : Type) [Scalar α] : Prop where
  index_eq_min (v : α) : ∃ w, ∀ last < UInt32.size, Scalar.index last v = min w last

instance : LawfulScalar Int32 := ⟨fun v => ⟨v.toInt.toNat, fun _ _ => rfl⟩⟩

namespace Scalar

variable {α : Type} [Scalar α] [LawfulScalar α]

lemma index_le (v : α) {last : Nat} (h : last < UInt32.size) : index last v ≤ last := by
  obtain ⟨w, hw⟩ := LawfulScalar.index_eq_min v
  rw [hw last h]
  exact Nat.min_le_right w last

lemma index_of_le (v : α) {last last' : Nat} (h : last' ≤ last) (hlast : last < UInt32.size) :
    index last' v = min (index last v) last' := by
  obtain ⟨w, hw⟩ := LawfulScalar.index_eq_min v
  rw [hw last hlast, hw last' (Nat.lt_of_le_of_lt h hlast), Nat.min_assoc, Nat.min_eq_right h]

end Scalar

end VideoRemap

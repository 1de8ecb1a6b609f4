import Mathlib.Tactic.Lemma
import VideoRemap.Sample.Tap

namespace VideoRemap

lemma mem_insertIndex {i j : Nat} {is : List Nat} : j ∈ insertIndex i is ↔ j = i ∨ j ∈ is := by
  induction is with
  | nil => simp [insertIndex]
  | cons k is ih =>
    simp only [insertIndex]
    split
    · exact List.mem_cons
    split
    · subst i
      simp
    · rw [List.mem_cons, ih, List.mem_cons]
      grind

variable {α : Type} [Scalar α]

def Tap.Touches (tap : Tap) (i : Nat) : Prop := i = tap.near ∨ i = tap.far

lemma mem_referencedFrames {ts : Span α} {n i : Nat} :
    i ∈ referencedFrames ts n ↔ i < n ∧ ∃ v ∈ ts.toList, (Tap.of n v).Touches i := by
  have hfold (vs : List α) (is : List Nat) :
      i ∈ vs.foldl (fun is v =>
        let tap := Tap.of n v
        insertIndex tap.near (insertIndex tap.far is)) is ↔
      i ∈ is ∨ ∃ v ∈ vs, (Tap.of n v).Touches i := by
    induction vs generalizing is with
    | nil => simp
    | cons v vs ih =>
      rw [List.foldl_cons, ih, mem_insertIndex, mem_insertIndex]
      simp only [List.mem_cons, Tap.Touches]
      grind
  rw [referencedFrames, List.mem_filter, hfold]
  simp [and_comm]

end VideoRemap

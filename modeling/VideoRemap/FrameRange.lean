namespace VideoRemap

structure FrameRange where
  start : Nat
  stop : Nat
  deriving DecidableEq

namespace FrameRange

def size (r : FrameRange) : Nat := r.stop - r.start

def IsEmpty (r : FrameRange) : Prop := r.stop ≤ r.start

instance (r : FrameRange) : Decidable r.IsEmpty := inferInstanceAs (Decidable (_ ≤ _))

instance : Membership Nat FrameRange := ⟨fun r i => r.start ≤ i ∧ i < r.stop⟩

instance (i : Nat) (r : FrameRange) : Decidable (i ∈ r) := inferInstanceAs (Decidable (_ ∧ _))

def below (r : FrameRange) (n : Nat) : FrameRange :=
  ⟨min r.start (min r.stop n), min r.stop n⟩

end FrameRange

end VideoRemap

import VideoRemap.Source.Basic

/-!
Sources that deliver a fixed list of frames and never fail, whatever they are made of.
-/

namespace VideoRemap

/-- The states at position `i` of a source that says `info` of itself and delivers `frames`. -/
structure IsReel {σ : Type} [Source σ] (info : SourceInfo) (frames : List Frame)
    (position : Nat → σ → Prop) : Prop where
  info_eq {i s} : position i s → Source.info s = info
  next_frame {i s} (h : i < frames.length) : position i s →
    ∃ s', Source.next s = (.ok (some frames[i]), s') ∧ position (i + 1) s'
  next_end {s} : position frames.length s →
    ∃ s', Source.next s = (.ok none, s') ∧ position frames.length s'
  rewind {i s} : position i s → ∃ s', Source.rewind s = (.ok (), s') ∧ position 0 s'

end VideoRemap

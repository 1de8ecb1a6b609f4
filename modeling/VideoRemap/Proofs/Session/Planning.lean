import VideoRemap.Proofs.Session.Basic
import VideoRemap.Proofs.Session.Deliver
import VideoRemap.Proofs.Source.Reel
import VideoRemap.Sink.Memory

namespace VideoRemap.Session

variable {source : SourceInfo} {coords : Triplet} {size : OutputSize} {o o' : Options}
  {s s' : Session}

lemma ofCoords_options (h : ofCoords source coords size o = .ok s)
    (h' : ofCoords source coords size o' = .ok s') : s' = { s with options := o' } := by
  obtain ⟨c, hs⟩ := admits_of_ofCoords h
  obtain ⟨c', hs'⟩ := admits_of_ofCoords h'
  obtain rfl : c' = c := Except.ok.inj (hs'.constants.symm.trans hs.constants)
  rw [hs'.eq, hs.eq]

variable {σ τ : Type} [Source σ] [Sink τ] {info : SourceInfo} {frames : List Frame}
  {position : Nat → σ → Prop}

theorem options_preserve_output (reel : IsReel info frames position)
    (even : ∀ f ∈ frames, f.extent = info.extent) (hcount : info.frameCount ≤ frames.length)
    {input : σ} (hinput : position 0 input) (h : ofCoords source coords size o = .ok s)
    (h' : ofCoords source coords size o' = .ok s') (sink : τ) :
    (s.run input sink).2.sink = (s'.run input sink).2.sink ∧
    (s.run input sink).2.written = (s'.run input sink).2.written ∧
    (s.run input sink).1.map Stats.framesOut = (s'.run input sink).1.map Stats.framesOut := by
  obtain rfl := ofCoords_options h h'
  by_cases hextent : info.extent = s.source.extent
  · obtain ⟨hstats, hdelivery⟩ :=
      s.runWith_complete reel even hcount hinput rfl hextent s.plan sink
    obtain ⟨hstats', hdelivery'⟩ := runWith_complete { s with options := o' } reel even hcount
      hinput rfl hextent (plan { s with options := o' }) sink
    have hsame := hdelivery.trans hdelivery'.symm
    exact ⟨congrArg Delivery.sink hsame, congrArg Delivery.written hsame, hstats.trans hstats'.symm⟩
  · simp only [run, runWith, reel.info_eq hinput, ne_eq, hextent, not_false_eq_true, if_true,
      Except.map, and_self]

theorem options_preserve_reversal :
    let coords : Triplet := ⟨.var .x, .var .y, .sum [.literal (.int 2), .negate (.var .t)]⟩
    let input := MemorySource.shades 3 3
    ∃ s s', ofCoords input.info coords ⟨1, 1, 3⟩ .standard = .ok s ∧
      ofCoords input.info coords ⟨1, 1, 3⟩ ⟨1, some 1⟩ = .ok s' ∧
      (s.run input MemorySink.empty).2.sink.frames.size = 3 ∧
      (s.run input MemorySink.empty).2.sink = (s'.run input MemorySink.empty).2.sink ∧
      (s.run input MemorySink.empty).2.cache.counters.rewinds ≠
        (s'.run input MemorySink.empty).2.cache.counters.rewinds := by
  intro coords input
  have h : ofCoords input.info coords ⟨1, 1, 3⟩ .standard = .ok _ := rfl
  have h' : ofCoords input.info coords ⟨1, 1, 3⟩ ⟨1, some 1⟩ = .ok _ := rfl
  have hoptions := options_preserve_output (MemorySource.isReel input.info input.frames)
    (fun f hf => (MemorySource.shades_even hf).1) (Nat.le_refl 3) ⟨rfl, rfl, rfl⟩ h h' MemorySink.empty
  exact ⟨_, _, h, h', by decide +kernel, hoptions.1, by decide +kernel⟩

end VideoRemap.Session

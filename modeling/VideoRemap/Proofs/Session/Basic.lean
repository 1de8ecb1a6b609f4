import Mathlib.Tactic.Lemma
import VideoRemap.Session.Basic

namespace VideoRemap

lemma Constants.ofInfo_eq {i : SourceInfo} {c : Constants} (h : ofInfo i = .ok c) :
    c = ⟨Int32.ofNat i.width, Int32.ofNat i.height, Int32.ofNat i.frameCount⟩ ∧
      i.width < 0x80000000 ∧ i.height < 0x80000000 ∧ i.frameCount < 0x80000000 := by
  unfold ofInfo at h
  by_cases hw : i.width < 0x80000000
  · by_cases hh : i.height < 0x80000000
    · by_cases hf : i.frameCount < 0x80000000
      · simp only [hw, hh, hf, if_true] at h
        exact ⟨(Except.ok.inj h).symm, hw, hh, hf⟩
      · simp only [hw, hh, hf, if_true, if_false] at h
        exact nomatch h
    · simp only [hw, hh, if_true, if_false] at h
      exact nomatch h
  · simp only [hw, if_false] at h
    exact nomatch h

namespace Session

structure Admits (source : SourceInfo) (coords : Triplet) (size : OutputSize) (o : Options)
    (c : Constants) (s : Session) : Prop where
  constants : Constants.ofInfo source = .ok c
  input : c.width ≠ 0 ∧ c.height ≠ 0 ∧ c.length ≠ 0
  output : size.width ≠ 0 ∧ size.height ≠ 0 ∧ size.frames ≠ 0
  eq : s = ⟨⟨clampTo c.width coords.x, clampTo c.height coords.y, clampTo c.length coords.t⟩,
    source, size, o, .of (coords.x.isExact && coords.y.isExact), .of coords.t.isExact⟩

lemma admits_of_ofCoords {source : SourceInfo} {coords : Triplet} {size : OutputSize} {o : Options}
    {s : Session} (h : ofCoords source coords size o = .ok s) :
    ∃ c, Admits source coords size o c s := by
  unfold ofCoords at h
  cases hvalid : o.validate with
  | error e =>
    rw [hvalid] at h
    exact nomatch h
  | ok _ =>
    cases hc : Constants.ofInfo source with
    | error e =>
      rw [hvalid, hc] at h
      exact nomatch h
    | ok c =>
      rw [hvalid, hc] at h
      change (if _ then _ else _) = _ at h
      split at h
      · exact nomatch h
      split at h
      · exact nomatch h
      case isFalse.isFalse hinput houtput =>
        simp only [not_or] at hinput houtput
        exact ⟨c, hc, hinput, houtput, (Except.ok.inj h).symm⟩

lemma Admits.bounds {info : SourceInfo} {coords : Triplet} {size : OutputSize} {o : Options}
    {c : Constants} {s : Session} (h : Admits info coords size o c s) :
    (0 < info.width ∧ info.width < 0x80000000) ∧ (0 < info.height ∧ info.height < 0x80000000) ∧
      0 < info.frameCount ∧ info.frameCount < 0x80000000 := by
  obtain ⟨hc, hwidth, hheight, hframes⟩ := Constants.ofInfo_eq h.constants
  obtain ⟨hw, hh, hf⟩ := h.input
  subst hc
  exact ⟨⟨Nat.pos_of_ne_zero fun hz => hw (congrArg Int32.ofNat hz), hwidth⟩,
    ⟨Nat.pos_of_ne_zero fun hz => hh (congrArg Int32.ofNat hz), hheight⟩,
    Nat.pos_of_ne_zero fun hz => hf (congrArg Int32.ofNat hz), hframes⟩

lemma budget_pos {source : SourceInfo} {coords : Triplet} {size : OutputSize} {o : Options} {s : Session}
    (h : ofCoords source coords size o = .ok s) : 0 < o.maxFrames.getD source.frameCount := by
  obtain ⟨c, hadmits⟩ := admits_of_ofCoords h
  cases hmax : o.maxFrames with
  | none => exact hadmits.bounds.2.2.1
  | some m =>
    apply Nat.pos_of_ne_zero
    rintro rfl
    have hvalid : ∃ e, o.validate = .error e := by
      simp only [Options.validate, hmax, if_true]
      split <;> exact ⟨_, rfl⟩
    obtain ⟨e, he⟩ := hvalid
    simp only [ofCoords, he] at h
    exact nomatch h

end Session

end VideoRemap

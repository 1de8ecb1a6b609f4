import VideoRemap.Proofs.Expr.Undefined
import VideoRemap.Proofs.Session.Deliver
import VideoRemap.Proofs.Session.Pointwise
import VideoRemap.Proofs.Source.Reel
import VideoRemap.Sink.Memory

namespace VideoRemap

namespace Delivery

variable {τ : Type} [Sink τ]

def pushAll (f : Nat) : List Frame → Delivery τ → Step (Delivery τ) Unit
  | [], d => (.ok (), d)
  | frame :: rest, d => (d.push f frame).andThen (pushAll (f + 1) rest)

def present (config : SinkConfig) (shown : List Frame) (d : Delivery τ) : Step (Delivery τ) Unit :=
  ((Sink.begin config d.sink).within d.put).andThen (pushAll 0 shown)

def finish (d : Delivery τ) : Step (Delivery τ) Unit := (Sink.finish d.sink).within d.put

def giveUp (e : Fault) (d : Delivery τ) : Step (Delivery τ) Unit := (.error e, d)

variable {g : Nat → Except Fault Frame} {shown : List Frame}

lemma deliver_eq_pushAll {f : Nat} (h : ∀ i (hi : i < shown.length), g (f + i) = .ok shown[i])
    (d : Delivery τ) : deliver g f shown.length d = pushAll f shown d := by
  induction shown generalizing f d with
  | nil => rfl
  | cons frame shown ih =>
    have hhead : g f = .ok frame := h 0 (Nat.succ_pos _)
    have htail (i : Nat) (hi : i < shown.length) : g (f + 1 + i) = .ok shown[i] := by
      rw [Nat.add_assoc, Nat.add_comm 1 i]
      exact h (i + 1) (Nat.succ_lt_succ hi)
    simp only [List.length_cons, deliver, hhead, pushAll]
    exact congrArg _ (funext fun d => ih htail d)

variable (h : ∀ i (hi : i < shown.length), g i = .ok shown[i]) (config : SinkConfig) (d : Delivery τ)

include h

lemma complete_of_all :
    complete config g shown.length d = (present config shown d).andThen finish := by
  rw [present, Step.andThen_assoc, complete]
  refine congrArg _ (funext fun d => ?_)
  rw [deliver_eq_pushAll fun i hi => by rw [Nat.zero_add, h i hi]]
  rfl

lemma complete_of_error {n : Nat} (hn : shown.length < n) {e : Fault}
    (he : g shown.length = .error e) :
    complete config g n d = (present config shown d).andThen (giveUp e) := by
  obtain ⟨k, rfl⟩ : ∃ k, n = shown.length + (k + 1) := ⟨n - shown.length - 1, by omega⟩
  rw [present, Step.andThen_assoc, complete]
  refine congrArg _ (funext fun d => ?_)
  have hrest : deliver (τ := τ) g (0 + shown.length) (k + 1) = giveUp e := by
    funext d
    rw [Nat.zero_add, deliver, he]
    rfl
  rw [deliver_add, deliver_eq_pushAll fun i hi => by rw [Nat.zero_add, h i hi], hrest,
    Step.andThen_assoc]
  rfl

end Delivery

def Triplet.UndefinedIn (coords : Triplet) (size : OutputSize) (f : Nat) : Prop :=
  ∃ i < size.pixelCount, ∃ e ∈ [coords.x, coords.y, coords.t], e.Undefined (.ofPixel size.width f i)

namespace Session

variable {info : SourceInfo} {frames : List Frame} {coords : Triplet} {size : OutputSize}
  {o : Options} {c : Constants} {s : Session}

lemma Admits.isExact (h : Admits info coords size o c s) (hxy : s.xy = .int) (ht : s.t = .int) :
    ∀ e ∈ [coords.x, coords.y, coords.t], e.isExact = true := by
  have hof {b : Bool} (hb : Precision.of b = .int) : b = true := by
    cases b with
    | false => exact nomatch hb
    | true => rfl
  rw [h.eq] at hxy ht
  have hxy := hof hxy
  rw [Bool.and_eq_true] at hxy
  simpa using ⟨hxy.1, hxy.2, hof ht⟩

lemma Admits.direct_cases (h : Admits info coords size o c s)
    (good : ∀ f ∈ frames, f.extent = info.extent ∧ f.WellFormed)
    (hcount : info.frameCount ≤ frames.length) (hxy : s.xy = .int) (ht : s.t = .int) (f : Nat) :
    (∃ e, s.direct f frames info.frameCount = .error e ∧ e.kind = .evaluation ∧
      coords.UndefinedIn size f) ∨
    ∃ frame, s.direct f frames info.frameCount = .ok frame ∧ coords.Shows info frames size f frame := by
  rcases h.direct_pixels good hcount hxy ht f with
    ⟨e, hdirect, he, i, hi, a, ha, hnone⟩ | ⟨frame, hdirect, hframe⟩
  · have hundefined := (Expr.value?_eq_none_iff (h.isExact hxy ht a ha)).mp hnone
    exact Or.inl ⟨e, hdirect, he.kind_eq, i, hi, a, ha, hundefined⟩
  · exact Or.inr ⟨frame, hdirect, h.shows_of_frame? hframe⟩

variable {σ τ : Type} [Source σ] [Sink τ] {position : Nat → σ → Prop}

theorem run_shows_pixels (reel : IsReel info frames position)
    (good : ∀ f ∈ frames, f.extent = info.extent ∧ f.WellFormed)
    (hcount : info.frameCount ≤ frames.length) (input : σ) (hinput : position 0 input)
    (h : ofCoords info coords size o = .ok s) (hxy : s.xy = .int) (ht : s.t = .int) (sink : τ) :
    ∃ shown : List Frame,
      (∀ f (hf : f < shown.length), coords.Shows info frames size f shown[f]) ∧
      ∃ last : Delivery τ → Step (Delivery τ) Unit,
        (shown.length = size.frames ∧ last = Delivery.finish ∨
          shown.length < size.frames ∧ coords.UndefinedIn size shown.length ∧
            ∃ e, e.kind = .evaluation ∧ last = Delivery.giveUp e) ∧
        let d := (Delivery.present (s.config info.rate) shown ⟨sink, #[]⟩).andThen last
        (s.run input sink).1.map Stats.framesOut = d.1.map (fun _ => size.frames) ∧
        (s.run input sink).2.delivery = d.2 := by
  obtain ⟨c, hadmits⟩ := admits_of_ofCoords h
  have hsize : s.size = size := by rw [hadmits.eq]
  have hsource : s.source = info := by rw [hadmits.eq]
  have hcases := hadmits.direct_cases good hcount hxy ht
  obtain ⟨shown, hshown, hend⟩ :=
    Traversal.exists_prefix (s.direct · frames info.frameCount) size.frames
  have hrun := s.runWith_complete reel (fun f hf => (good f hf).1) hcount hinput rfl
    (congrArg SourceInfo.extent hsource.symm) s.plan sink
  rw [hsize] at hrun
  refine ⟨shown, fun f hf => ?_, ?_⟩
  · rcases hcases f with ⟨e, hfail, -⟩ | ⟨frame, hframe, hshows⟩
    · exact nomatch (hshown f hf).symm.trans hfail
    · obtain rfl := Except.ok.inj ((hshown f hf).symm.trans hframe)
      exact hshows
  · rcases hend with hall | ⟨hlt, e, hfail⟩
    · rw [← hall, Delivery.complete_of_all hshown, hall] at hrun
      exact ⟨Delivery.finish, Or.inl ⟨hall, rfl⟩, hrun⟩
    · rcases hcases shown.length with ⟨e', hfail', hkind, hundefined⟩ | ⟨frame, hframe, -⟩
      · obtain rfl := Except.error.inj (hfail.symm.trans hfail')
        rw [Delivery.complete_of_error hshown _ _ hlt hfail] at hrun
        exact ⟨Delivery.giveUp e, Or.inr ⟨hlt, hundefined, e, hkind, rfl⟩, hrun⟩
      · exact nomatch hfail.symm.trans hframe

theorem run_shows_remainders :
    let divisor : Expr := .sum [.literal (.int 2), .negate (.var .t)]
    let coords : Triplet := ⟨.var .x, .var .y, .quotient .remainder (.literal (.int 5)) divisor⟩
    let input := MemorySource.shades 3 3
    ∃ s, ofCoords input.info coords ⟨2, 1, 4⟩ .standard = .ok s ∧
      (s.run input MemorySink.empty).2.written = #[0, 1] ∧
      ∃ shown : List Frame, shown.length < 4 ∧ coords.UndefinedIn ⟨2, 1, 4⟩ shown.length ∧
        ∀ f (hf : f < shown.length), coords.Shows input.info input.frames ⟨2, 1, 4⟩ f shown[f] := by
  intro divisor coords input
  have h : ofCoords input.info coords ⟨2, 1, 4⟩ .standard = .ok _ := rfl
  obtain ⟨shown, hshows, last, hlast, -⟩ := run_shows_pixels
    (MemorySource.isReel input.info input.frames) (fun f hf => MemorySource.shades_even hf)
    (Nat.le_refl 3) input ⟨rfl, rfl, rfl⟩ h rfl rfl MemorySink.empty
  refine ⟨_, h, by decide +kernel, shown, ?_⟩
  rcases hlast with ⟨hall, -⟩ | ⟨hlt, hundefined, -⟩
  · have hlt : 2 < shown.length := hall ▸ by decide
    obtain ⟨p, hread, -⟩ := (hshows 2 hlt).pixel 0 (by decide)
    have hnone : coords.read? input.info input.frames 2 2 0 = none := by decide +kernel
    exact nomatch hnone.symm.trans hread
  · exact ⟨hlt, hundefined, hshows⟩

end Session

end VideoRemap

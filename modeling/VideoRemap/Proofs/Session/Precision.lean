import VideoRemap.Proofs.Expr.Stops
import VideoRemap.Proofs.Session.Basic
import VideoRemap.Proofs.Session.Render
import VideoRemap.Proofs.Session.Stage
import VideoRemap.Proofs.Source.Reel
import VideoRemap.Sink.Memory

namespace VideoRemap

open Traversal

def Grid.Settles {α : Type} [Scalar α] (g : Grid α) (n : Nat) (e : Expr) : Prop :=
  (∃ s, e.evaluate g = .ok s ∧ s.WellFormed ∧ s.length = n) ∨
  ∃ fault a, e.evaluate g = .error fault ∧ a.Occurs e ∧ g.Stops a fault ∧
    ∀ a', fault ≠ .notExact a'

namespace Precision

def Settles (s : Session) (f : Nat) (e : Expr) : Precision → Prop
  | .int => (.ofSize s.size.width s.size.height f : Grid Int32).Settles s.size.pixelCount e
  | .float => (.ofSize s.size.width s.size.height f : Grid Float32).Settles s.size.pixelCount e

lemma of_eq_int {exact : Bool} (h : Precision.of exact = .int) : exact = true := by
  cases exact with
  | false => exact nomatch h
  | true => rfl

end Precision

section

variable {α : Type} [Scalar α] {g : Grid α} {e : Expr}

lemma Grid.ofSize_settles (width height t : Nat) (h : Scalar.integral α = true → e.isExact = true) :
    (Grid.ofSize width height t : Grid α).Settles (width * height) e := by
  cases hresult : e.evaluate (Grid.ofSize width height t : Grid α) with
  | ok s =>
    have hformed := e.evaluate_yields (Expr.kept_wellFormed
      (g := (Grid.ofSize width height t : Grid α)) (Span.wellFormed_columns _ _) (Span.wellFormed_rows _ _))
    have hlength := e.evaluate_ofSize_length (α := α) width height t
    rw [hresult] at hformed hlength
    exact Or.inl ⟨s, hresult, hformed, hlength⟩
  | error fault =>
    obtain ⟨a, ha, hstops⟩ := Expr.exists_stops hresult
    refine Or.inr ⟨fault, a, hresult, ha, hstops, ?_⟩
    rintro a' rfl
    obtain ⟨hintegral, hexact⟩ := Expr.refused_of_notExact hresult
    exact nomatch hexact.symm.trans (h hintegral)

end

def Unrefused {β : Type} (r : Except Fault β) : Prop := ∀ e, r ≠ .error (.notExact e)

namespace Unrefused

variable {β γ : Type} {r : Except Fault β}

lemma ok (b : β) : Unrefused (.ok b) := nofun

lemma raised {fault : Fault} (h : Unrefused (.error fault : Except Fault β)) :
    Unrefused (.error fault : Except Fault γ) := by
  rintro e ⟨⟩
  exact h e rfl

lemma bind {k : β → Except Fault γ} (h : Unrefused r) (hk : ∀ b, Unrefused (k b)) : Unrefused (r >>= k) := by
  cases r with
  | error fault => exact h.raised
  | ok b => exact hk b

lemma map {f : β → γ} (h : Unrefused r) : Unrefused (f <$> r) :=
  fun e he => h e (map_eq_error_iff.mp he)

lemma mapM {f : β → Except Fault γ} (h : ∀ b, Unrefused (f b)) (l : List β) : Unrefused (l.mapM f) := by
  intro e he
  obtain ⟨b, -, hb⟩ := exists_error_of_mapM he
  exact h b e hb

end Unrefused

structure Source.NeverRefuses (σ : Type) [Source σ] : Prop where
  next (t : σ) : Unrefused (Source.next t).1
  rewind (t : σ) : Unrefused (Source.rewind t).1

lemma MemorySource.neverRefuses : Source.NeverRefuses MemorySource := by
  refine ⟨fun t => ?_, nofun⟩
  simp only [Source.next]
  split <;> exact nofun

structure Sink.NeverRefuses (τ : Type) [Sink τ] : Prop where
  begin (c : SinkConfig) (t : τ) : Unrefused (Sink.begin c t).1
  push (i : Nat) (f : Frame) (t : τ) : Unrefused (Sink.push i f t).1
  finish (t : τ) : Unrefused (Sink.finish t).1

lemma MemorySink.neverRefuses : Sink.NeverRefuses MemorySink := ⟨nofun, nofun, nofun⟩

lemma Tap.blend_unrefused {tap : Tap} {read : Nat → Except Fault Texel}
    (h : ∀ i, Unrefused (read i)) : Unrefused (tap.blend read) := by
  refine (h tap.near).bind fun near => ?_
  split
  · exact (h tap.far).bind fun far => .ok _
  · exact .ok _

namespace Cache

variable {σ α β : Type} [Scalar α] [Scalar β]

lemma sampleFrame_unrefused (c : Cache σ) (xs ys : Span α) (ts : Span β) (width height : Nat) :
    Unrefused (c.sampleFrame xs ys ts width height) := by
  have hresident (i : Nat) : Unrefused (c.resident i) := by
    unfold resident
    split <;> exact nofun
  have htexel (f : Frame) (i j : Nat) : Unrefused (f.texel i j) := by
    unfold Frame.texel
    split <;> exact nofun
  have hcolour (f : Frame) (x y : Tap) : Unrefused (f.colour x y) :=
    Tap.blend_unrefused fun j => Tap.blend_unrefused fun i => htexel f i j
  have hsample (x y : α) (t : β) : Unrefused (c.sample x y t) := by
    unfold sample
    refine (hresident _).bind fun near => (Tap.blend_unrefused fun i => ?_).bind fun texel => .ok _
    exact (hresident i).bind fun f => hcolour f _ _
  unfold sampleFrame
  dsimp only
  split
  · exact nofun
  split
  · exact nofun
  · exact .map (.mapM (fun ⟨x, y, t⟩ => hsample x y t) _)

variable [Source σ] (hsource : Source.NeverRefuses σ)

include hsource

lemma readUpTo_unrefused (stop first : Nat) (c : Cache σ) : Unrefused (c.readUpTo stop first).1 := by
  fun_induction readUpTo stop first c with
  | case1 c _ e s hnext =>
    have h := hsource.next c.source
    rw [hnext] at h
    exact h.raised
  | case2 => exact nofun
  | case3 c _ f s _ _ ih => exact ih
  | case4 => exact nofun
  | case5 c _ f s _ _ _ ih => exact ih
  | case6 => exact nofun

lemma rewindFor_unrefused (i : Nat) (c : Cache σ) : Unrefused (c.rewindFor i).1 := by
  have h := hsource.rewind c.source
  unfold rewindFor
  split
  · rcases hrewind : Source.rewind c.source with ⟨_ | ⟨⟩, s⟩
    · rw [hrewind] at h
      exact h
    · exact nofun
  · exact nofun

lemma load_unrefused (r : FrameRange) (c : Cache σ) : Unrefused (c.load r).1 := by
  unfold load
  dsimp only
  split
  · exact nofun
  generalize c.firstMissing _ _ = first
  have h := c.rewindFor_unrefused hsource first
  rcases hrewind : c.rewindFor first with ⟨_ | ⟨⟩, c'⟩
  · rwa [hrewind] at h
  have h' := c'.readUpTo_unrefused hsource (r.below c.frameCount).stop first
  dsimp only
  rcases hread : c'.readUpTo (r.below c.frameCount).stop first with ⟨_ | ⟨⟩, c''⟩
  · rwa [hread] at h'
  · exact nofun

lemma loadMissing_unrefused (is : List Nat) (c : Cache σ) : Unrefused (c.loadMissing is).1 := by
  induction is generalizing c with
  | nil => exact nofun
  | cons i is ih =>
    rw [loadMissing]
    split
    · exact ih c
    have h := c.load_unrefused hsource ⟨i, i + 1⟩
    unfold loadFrame
    rcases hload : c.load ⟨i, i + 1⟩ with ⟨_ | ⟨⟩, c'⟩
    · rwa [hload] at h
    · exact ih c'

end Cache

namespace Session

def Dispatched (s : Session) : Prop :=
  ∀ f, s.xy.Settles s f s.coords.x ∧ s.xy.Settles s f s.coords.y ∧ s.t.Settles s f s.coords.t

lemma settles_clampTo (s : Session) (f : Nat) {p : Precision} {e : Expr} (n : Int32)
    (h : p = .int → e.isExact = true) : p.Settles s f (clampTo n e) := by
  cases p with
  | int => exact Grid.ofSize_settles _ _ _ fun _ => h rfl
  | float => exact Grid.ofSize_settles _ _ _ nofun

lemma dispatched_of_ofCoords {source : SourceInfo} {coords : Triplet} {size : OutputSize} {o : Options}
    {s : Session} (h : ofCoords source coords size o = .ok s) : s.Dispatched := by
  obtain ⟨c, hadmits⟩ := admits_of_ofCoords h
  have hxy (hint : Precision.of (coords.x.isExact && coords.y.isExact) = .int) :
      coords.x.isExact = true ∧ coords.y.isExact = true :=
    Bool.and_eq_true_iff.mp (Precision.of_eq_int hint)
  obtain rfl := hadmits.eq
  exact fun f => ⟨settles_clampTo _ f _ fun hint => (hxy hint).1,
    settles_clampTo _ f _ fun hint => (hxy hint).2, settles_clampTo _ f _ Precision.of_eq_int⟩

variable {σ τ : Type} [Source σ] [Sink τ] {s : Session}

lemma renderIn_unrefused (hsource : Source.NeverRefuses σ) (α β : Type) [Scalar α] [Scalar β] (f : Nat)
    (c : Cache σ) (h : Unrefused (s.coordsIn α β f)) : Unrefused (s.renderIn α β f c).1 := by
  cases hcoords : s.coordsIn α β f with
  | error fault =>
    rw [renderIn_of_error hcoords]
    rw [hcoords] at h
    exact h.raised
  | ok spans =>
    obtain ⟨xs, ys, ts⟩ := spans
    unfold coordsIn at hcoords
    simp only [renderIn, hcoords]
    have hload := c.loadMissing_unrefused hsource (referencedFrames ts c.frameCount)
    rcases hmissing : c.loadMissing (referencedFrames ts c.frameCount) with ⟨_ | ⟨⟩, c'⟩
    · rw [hmissing] at hload
      exact hload.raised
    · exact c'.sampleFrame_unrefused _ _ _ _ _

lemma unrefused_of_settles {α : Type} [Scalar α] {g : Grid α} {n : Nat} {e : Expr} (h : g.Settles n e) :
    Unrefused (e.evaluate g) := by
  rcases h with ⟨s, hs, -⟩ | ⟨fault, a, hfault, -, -, hne⟩
  · rw [hs]
    exact .ok s
  · rw [hfault]
    rintro a' ⟨⟩
    exact hne a' rfl

lemma render_unrefused (hsource : Source.NeverRefuses σ) (h : s.Dispatched) (f : Nat) (c : Cache σ) :
    Unrefused (s.render f c).1 := by
  obtain ⟨hx, hy, ht⟩ := h f
  unfold render
  cases hxy : s.xy <;> cases hst : s.t <;> rw [hxy] at hx hy <;> rw [hst] at ht
  all_goals
    refine renderIn_unrefused hsource _ _ f c ?_
    refine (unrefused_of_settles hx).bind fun xs => (unrefused_of_settles hy).bind fun ys => ?_
    exact (unrefused_of_settles ht).bind fun ts => .ok _

lemma write_unrefused (hsource : Source.NeverRefuses σ) (hsink : Sink.NeverRefuses τ) (h : s.Dispatched)
    (f : Nat) (w : Work σ τ) : Unrefused (s.write f w).1 := by
  have hrender := render_unrefused hsource h f w.cache
  unfold write
  rcases hdone : s.render f w.cache with ⟨_ | frame, c⟩
  · rw [hdone] at hrender
    exact hrender.raised
  · have hpush := hsink.push f frame w.sink
    dsimp only
    rcases htaken : Sink.push f frame w.sink with ⟨_ | ⟨⟩, sink⟩
    · rwa [htaken] at hpush
    · exact .ok ()

lemma run_unrefused (hsource : Source.NeverRefuses σ) (hsink : Sink.NeverRefuses τ) (h : s.Dispatched)
    (source : σ) (sink : τ) : Unrefused (s.run source sink).1 := by
  intro e he
  by_cases hextent : (Source.info source).extent = s.source.extent
  · rcases (runWith_error_iff hextent sink).mp he with hbegin | ⟨begun, -, hrest | ⟨w, -, hfinish⟩⟩
    · exact hsink.begin _ _ e hbegin
    · obtain ⟨b, -, hfails⟩ := rest_error_iff.mp hrest
      cases b with
      | batch f w => exact w.cache.load_unrefused hsource _ e hfails.2
      | frame stop f w => exact write_unrefused hsource hsink h f w e hfails.2
    · exact hsink.finish _ e hfinish
  · simp [run, runWith, hextent] at he

end Session

theorem precision_never_refuses :
    (∀ (e : Expr) (g : Grid Int32) s, e.evaluate g = .ok s → e.isExact = true) ∧
    (∀ (e : Expr) (g : Grid Int32) a, e.isExact = true → e.evaluate g ≠ .error (.notExact a)) ∧
    (∀ (e : Expr) (g : Grid Float32), g.x.WellFormed → g.y.WellFormed → g.y.length = g.x.length →
      ((∃ fault, e.evaluate g = .error fault) ↔ ∃ a : Expr, a.Occurs e ∧ a.Malformed) ∧
      ∀ s, e.evaluate g = .ok s → s.WellFormed ∧ s.length = g.x.length) ∧
    ∀ source coords size o s, Session.ofCoords source coords size o = .ok s → s.Dispatched ∧
      ∀ {σ τ : Type} [Source σ] [Sink τ], Source.NeverRefuses σ → Sink.NeverRefuses τ →
        ∀ (input : σ) (sink : τ) a, (s.run input sink).1 ≠ .error (.notExact a) := by
  refine ⟨fun e g s => Expr.isExact_of_evaluate rfl, fun e g a hexact hrefused => ?_,
    fun e g hx hy hlength => ⟨Expr.evaluate_single_error_iff, fun s hs => ?_⟩,
    fun source coords size o s hs => ?_⟩
  · exact nomatch hexact.symm.trans (Expr.refused_of_notExact hrefused).2
  · have hformed := e.evaluate_yields (Expr.kept_wellFormed hx hy)
    have hcount := e.evaluate_yields (Expr.kept_length hlength)
    rw [hs] at hformed hcount
    exact ⟨hformed, hcount⟩
  · have hdispatched := Session.dispatched_of_ofCoords hs
    exact ⟨hdispatched, fun hsource hsink => Session.run_unrefused hsource hsink hdispatched⟩

theorem precision_of_halves :
    let whole : Expr := .quotient .remainder (.var .x) (.literal (.int 2))
    let half : Expr := .quotient .divide (.var .x) (.literal (.int 2))
    let input := MemorySource.shades 2 2
    ((∃ s, whole.evaluate (.ofSize 3 2 0 : Grid Int32) = .ok s) ∧ whole.isExact = true ∧
      whole.evaluate (.ofSize 3 2 0 : Grid Int32) ≠ .error (.notExact whole)) ∧
    (¬ (∃ s, half.evaluate (.ofSize 3 2 0 : Grid Int32) = .ok s) ∧
      (∃ s, half.evaluate (.ofSize 3 2 0 : Grid Float32) = .ok s ∧ s.WellFormed ∧ s.length = 6) ∧
      ∃ fault, (Expr.clamp 3 1 half).evaluate (.ofSize 3 2 0 : Grid Float32) = .error fault) ∧
    ∀ x ∈ [whole, half], ∀ t ∈ [whole, half],
      ∃ s, Session.ofCoords input.info ⟨x, .var .y, t⟩ ⟨3, 2, 2⟩ .standard = .ok s ∧
        s.xy = .of x.isExact ∧ s.t = .of t.isExact ∧ s.Dispatched ∧
        ∀ a, (s.run input MemorySink.empty).1 ≠ .error (.notExact a) := by
  intro whole half input
  obtain ⟨hexact, haccepted, hsingle, hsession⟩ := precision_never_refuses
  have hwhole : whole.evaluate (.ofSize 3 2 0 : Grid Int32) = .ok _ := rfl
  have hhalf : half.evaluate (.ofSize 3 2 0 : Grid Float32) = .ok _ := rfl
  have hgrid (e : Expr) := hsingle e (.ofSize 3 2 0) (Span.wellFormed_columns 3 2)
    (Span.wellFormed_rows 3 2) rfl
  refine ⟨⟨⟨_, hwhole⟩, hexact _ _ _ hwhole, haccepted whole _ whole (hexact _ _ _ hwhole)⟩,
    ⟨(fun ⟨s, hs⟩ => nomatch hexact _ _ s hs), ⟨_, hhalf, (hgrid half).2 _ hhalf⟩,
      (hgrid (.clamp 3 1 half)).1.mpr ⟨_, .root, .invertedClamp (by decide)⟩⟩, fun x hx t ht => ?_⟩
  have hs : ∃ s, Session.ofCoords input.info ⟨x, .var .y, t⟩ ⟨3, 2, 2⟩ .standard = .ok s ∧
      s.xy = .of (x.isExact && true) ∧ s.t = .of t.isExact := ⟨_, rfl, rfl, rfl⟩
  obtain ⟨s, hs, hxy, ht⟩ := hs
  obtain ⟨hdispatched, hrun⟩ := hsession _ _ _ _ s hs
  exact ⟨s, hs, by rw [hxy, Bool.and_true], ht, hdispatched,
    hrun MemorySource.neverRefuses MemorySink.neverRefuses input MemorySink.empty⟩

end VideoRemap

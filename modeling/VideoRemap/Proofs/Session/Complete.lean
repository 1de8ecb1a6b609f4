import VideoRemap.Proofs.Expr.Contained
import VideoRemap.Proofs.Plan.Inclusion
import VideoRemap.Proofs.Session.Planned
import VideoRemap.Proofs.Session.Pointwise
import VideoRemap.Proofs.Source.Reel
import VideoRemap.Sink.Memory

/-!
When the plan of a batch has all that the batch reads. Where coordinates are not negative, the only
thing that can put a frame outside is alignment: it goes below its dividend, and the bound does not.
-/

namespace VideoRemap

instance (r : FrameRange) {P : Nat → Prop} [DecidablePred P] : Decidable (∀ f ∈ r, P f) :=
  decidable_of_iff (∀ f < r.stop, r.start ≤ f → P f)
    ⟨fun h f hf => h f hf.2 hf.1, fun h f hstop hstart => h f ⟨hstart, hstop⟩⟩

lemma Tap.of_ofNat {n k : Nat} (hk : k < n) (hn : n < 0x80000000) :
    of n (Int32.ofNat k) = ⟨k, k, 0⟩ := by
  have htoNat := toNat_ofNat (Nat.lt_trans hk hn)
  rw [of_inside (htoNat.symm ▸ hk) (by simp only [UInt32.size]; omega), htoNat]

lemma mem_iff_of_map_some {α : Type} {vs : List α} {n : Nat} {value : Nat → Option α}
    (h : vs.map some = (List.range n).map value) (v : α) : v ∈ vs ↔ ∃ i < n, value i = some v := by
  have hsome : v ∈ vs ↔ some v ∈ vs.map some := by simp
  rw [hsome, h]
  simp only [List.mem_map, List.mem_range]

namespace Session

section

variable (s : Session)

def place (f i : Nat) : Variable → Int
  | .x => (i % s.size.width : Nat)
  | .y => (i / s.size.width : Nat)
  | .t => f

/-- In the output frames `r` every node of the frame coordinate has a value at every pixel, and none is
negative or too large for 32 bits. -/
def NonNegativeOn (r : FrameRange) : Prop :=
  ∀ f ∈ r, ∀ i < s.size.pixelCount, ∀ a : Expr, a.Occurs s.coords.t →
    ∃ u ∈ a.ideal? (s.place f i), 0 ≤ u ∧ u < 0x80000000

instance (r : FrameRange) : Decidable (s.NonNegativeOn r) :=
  inferInstanceAs (Decidable (∀ f ∈ r, ∀ i < s.size.pixelCount, ∀ a : Expr, a.Occurs s.coords.t → _))

/-- The frame coordinate has a value at every pixel of the output frames `r`, and all source frames that
these values refer to are planned for `r`. -/
def Complete (p : Plan) (r : FrameRange) : Prop :=
  ∀ f ∈ r, ∃ ts, s.coords.t.evaluate (.ofSize s.size.width s.size.height f : Grid Int32) = .ok ts ∧
    ∀ k ∈ referencedFrames ts s.source.frameCount, k ∈ p.cover r

def box (r : FrameRange) : Box Int := Plan.box s.size.width s.size.height r

end

variable {s : Session} {p : Plan} {r : FrameRange} {f i : Nat}

lemma NonNegativeOn.bounds (h : s.NonNegativeOn r) (hf : f ∈ r) (hi : i < s.size.pixelCount) {a : Expr}
    (ha : a.Occurs s.coords.t) {u : Int} (hu : a.ideal? (s.place f i) = some u) :
    0 ≤ u ∧ u < 0x80000000 := by
  obtain ⟨u', hu', hbounds⟩ := h f hf i hi a ha
  obtain rfl : u' = u := Option.some.inj (hu'.symm.trans hu)
  exact hbounds

lemma coordinate_ofPixel (s : Session) (f i : Nat) (v : Variable) :
    (Point.ofPixel s.size.width f i).coordinate v = Int32.ofInt (s.place f i v) := by
  cases v <;> exact (Int32.ofInt_eq_ofNat).symm

lemma place_mem_box (hf : f ∈ r) (hi : i < s.size.pixelCount) (v : Variable) :
    s.place f i v ∈ (s.box r).coordinate v := by
  have hwidth : 0 < s.size.width := Nat.pos_of_ne_zero fun hzero => by
    rw [OutputSize.pixelCount, hzero, Nat.zero_mul] at hi
    exact Nat.not_lt_zero i hi
  cases v with
  | x =>
    have hcolumn : i % s.size.width < s.size.width := Nat.mod_lt i hwidth
    change ((i % s.size.width : Nat) : Int) ∈ Interval.between (0 : Int) (s.size.width - 1 : Nat)
    rw [Interval.between_eq (by omega)]
    generalize i % s.size.width = column at hcolumn
    constructor <;> simp only <;> omega
  | y =>
    have hrow : i / s.size.width < s.size.height := Nat.div_lt_of_lt_mul hi
    change ((i / s.size.width : Nat) : Int) ∈ Interval.between (0 : Int) (s.size.height - 1 : Nat)
    rw [Interval.between_eq (by omega)]
    generalize i / s.size.width = row at hrow
    constructor <;> simp only <;> omega
  | t =>
    obtain ⟨hstart, hstop⟩ := hf
    change (f : Int) ∈ Interval.between (r.start : Int) (max (r.stop - 1) r.start : Nat)
    rw [Interval.between_eq (by omega)]
    constructor <;> simp only <;> omega

section

variable {source : SourceInfo} {coords : Triplet} {size : OutputSize} {o : Options} {c : Constants}
  (h : Admits source coords size o c s) (hvalues : s.NonNegativeOn r) (hf : f ∈ r)

include h hvalues hf

lemma NonNegativeOn.value? (hi : i < s.size.pixelCount) :
    ∃ k < s.source.frameCount, s.coords.t.ideal? (s.place f i) = some (k : Int) ∧
      s.coords.t.value? (.ofPixel s.size.width f i) = some (Int32.ofNat k) := by
  have hfits : s.coords.t.Fits (s.place f i) := by
    intro a ha u hu
    obtain ⟨hnonneg, hlt⟩ := hvalues.bounds hf hi ha hu
    exact ⟨by omega, hlt⟩
  have hvalue := Expr.value?_eq_ideal? (s.coordinate_ofPixel f i) hfits
  obtain ⟨u, hu, hnonneg, hlt⟩ := hvalues f hf i hi _ .root
  have hu : s.coords.t.ideal? (s.place f i) = some u := hu
  rw [hu, Option.map_some] at hvalue
  have hclamped := (h.value?_coords (.ofPixel s.size.width f i)).2.2
  rw [hvalue] at hclamped
  obtain ⟨v, -, hindex⟩ := Option.map_eq_some_iff.mp hclamped.symm
  obtain ⟨-, -, hpos, hcount⟩ := h.bounds
  have hindexlt := clampIndex_lt hpos v
  have hueq : u = clampIndex source.frameCount v := by
    have htoInt := congrArg Int32.toInt hindex
    rw [Int32.toInt_ofNat_of_lt (by omega), hfits.toInt_ofInt hu] at htoInt
    exact htoInt.symm
  have hsource : s.source = source := by rw [h.eq]
  subst hueq
  exact ⟨_, hsource ▸ hindexlt, hu, hvalue.trans (congrArg some hindex.symm)⟩

lemma NonNegativeOn.exists_evaluate :
    ∃ ts, s.coords.t.evaluate (.ofSize s.size.width s.size.height f : Grid Int32) = .ok ts ∧
      ∀ k, k ∈ referencedFrames ts s.source.frameCount ↔
        ∃ i < s.size.pixelCount, s.coords.t.ideal? (s.place f i) = some (k : Int) := by
  have hsize : s.size = size := by rw [h.eq]
  have hwidth : 0 < s.size.width := hsize ▸ Nat.pos_of_ne_zero h.output.1
  have hheight : 0 < s.size.height := hsize ▸ Nat.pos_of_ne_zero h.output.2.1
  have hsource : s.source = source := by rw [h.eq]
  have hcount : s.source.frameCount < 0x80000000 := hsource ▸ h.bounds.2.2.2
  rcases s.coords.t.evaluate_cases hwidth hheight f with ⟨_, -, -, i, hi, hnone⟩ | ⟨ts, hts, hlist⟩
  · obtain ⟨k, -, -, hvalue⟩ := hvalues.value? h hf hi
    cases hnone.symm.trans hvalue
  · refine ⟨ts, hts, fun k => ?_⟩
    rw [mem_referencedFrames]
    constructor
    · rintro ⟨-, v, hv, htouches⟩
      obtain ⟨i, hi, hvalue⟩ := (mem_iff_of_map_some hlist v).mp hv
      obtain ⟨k', hk', hideal, hvalue'⟩ := hvalues.value? h hf hi
      obtain rfl : v = Int32.ofNat k' := Option.some.inj (hvalue.symm.trans hvalue')
      rw [Tap.of_ofNat hk' hcount] at htouches
      obtain rfl : k = k' := htouches.elim id id
      exact ⟨i, hi, hideal⟩
    · rintro ⟨i, hi, hideal⟩
      obtain ⟨k', hk', hideal', hvalue⟩ := hvalues.value? h hf hi
      obtain rfl : k' = k := Int.ofNat_inj.mp (Option.some.inj (hideal'.symm.trans hideal))
      refine ⟨hk', _, (mem_iff_of_map_some hlist _).mpr ⟨i, hi, hvalue⟩, ?_⟩
      rw [Tap.of_ofNat hk' hcount]
      exact Or.inl rfl

end

lemma NonNegativeOn.complete_iff {source : SourceInfo} {coords : Triplet} {size : OutputSize} {o : Options}
    {c : Constants} (h : Admits source coords size o c s) (hplan : p.cover r = (s.planIn Int).cover r)
    (ht : s.coords.t.isExact = true) (hlt : r.start < r.stop) (hvalues : s.NonNegativeOn r) :
    s.Complete p r ↔ ∀ f ∈ r, ∀ i < s.size.pixelCount, ∀ u ∈ s.coords.t.ideal? (s.place f i),
      u ∈ s.coords.t.bound (s.box r) := by
  have hordered : (s.coords.t.bound (s.box r)).a ≤ (s.coords.t.bound (s.box r)).b := by
    have hinside : r.Inside r := ⟨hlt, Nat.le_refl _, Nat.le_refl _⟩
    exact (Expr.bound_nested (Plan.box_nested _ _ hinside) ht).ordered
  have hcover (k : Nat) (hk : k < s.source.frameCount) :
      k ∈ p.cover r ↔ (k : Int) ∈ s.coords.t.bound (s.box r) := by
    rw [hplan]
    change k ∈ Interval.cover _ (s.coords.t.bound (s.box r)) ↔ _ ∧ _
    rw [Interval.mem_cover hordered]
    omega
  constructor
  · intro hcomplete f hf i hi u hu
    obtain ⟨k, hk, hideal, -⟩ := hvalues.value? h hf hi
    obtain rfl : (k : Int) = u := Option.some.inj (hideal.symm.trans hu)
    obtain ⟨ts, hts, hread⟩ := hvalues.exists_evaluate h hf
    obtain ⟨ts', hts', hplanned⟩ := hcomplete f hf
    obtain rfl : ts = ts' := Except.ok.inj (hts.symm.trans hts')
    exact (hcover k hk).mp (hplanned k ((hread k).mpr ⟨i, hi, hideal⟩))
  · intro hbound f hf
    obtain ⟨ts, hts, hread⟩ := hvalues.exists_evaluate h hf
    refine ⟨ts, hts, fun k hk => ?_⟩
    obtain ⟨i, hi, hideal⟩ := (hread k).mp hk
    exact (hcover k (mem_referencedFrames.mp hk).1).mpr (hbound f hf i hi k hideal)

lemma cover_plan {source : SourceInfo} {coords : Triplet} {size : OutputSize} {o : Options}
    (hs : ofCoords source coords size o = .ok s) (ht : coords.t.isExact = true)
    (hfits : s.coords.t.boundFits (s.box r) = true) : s.plan.cover r = (s.planIn Int).cover r := by
  obtain ⟨c, h⟩ := admits_of_ofCoords hs
  apply Plan.cover_float (isExact_of_ofCoords hs ht) _ _ _ hfits
  rw [source_of_ofCoords hs]
  exact Nat.lt_trans h.bounds.2.2.2 (by decide)

/-- What is planned is complete exactly if every value lies in the bound of the frame coordinate, and it
is complete where nothing is aligned to below the bound of the dividend. -/
theorem complete_iff_in_bound {source : SourceInfo} {coords : Triplet} {size : OutputSize} {o : Options}
    (hs : ofCoords source coords size o = .ok s) (ht : coords.t.isExact = true)
    (hlt : r.start < r.stop) (hvalues : s.NonNegativeOn r) :
    (∀ p : Plan, p.cover r = (s.planIn Int).cover r →
      (s.Complete p r ↔ ∀ f ∈ r, ∀ i < s.size.pixelCount, ∀ u ∈ s.coords.t.ideal? (s.place f i),
        u ∈ s.coords.t.bound (s.box r)) ∧
      ((∀ l k, (Expr.quotient .align l k).Occurs s.coords.t → ∀ f ∈ r, ∀ i < s.size.pixelCount,
        ∀ u ∈ (Expr.quotient .align l k).ideal? (s.place f i), (l.bound (s.box r)).a ≤ u) →
        s.Complete p r)) ∧
    (s.coords.t.boundFits (s.box r) = true → s.plan.cover r = (s.planIn Int).cover r) := by
  obtain ⟨c, h⟩ := admits_of_ofCoords hs
  refine ⟨fun p hplan => ?_, cover_plan hs ht⟩
  have hiff := hvalues.complete_iff h hplan (isExact_of_ofCoords hs ht) hlt
  refine ⟨hiff, fun haligned => hiff.mpr fun f hf i hi u hu => ?_⟩
  apply Expr.ideal?_mem_bound_of_aligned (place_mem_box hf hi) ?_ ?_ hu
  · exact fun a ha u hu => (hvalues.bounds hf hi ha hu).1
  · exact fun l k hoccurs => haligned l k hoccurs f hf i hi

def firstOfFour : Triplet := ⟨.var .x, .var .y, .quotient .align (.var .t) (.literal (.int 4))⟩

theorem incomplete_of_firstOfFour :
    let input := MemorySource.shades 8 8
    ∃ s, ofCoords input.info firstOfFour ⟨1, 1, 8⟩ ⟨5, none⟩ = .ok s ∧
      s.NonNegativeOn ⟨5, 8⟩ ∧
      (∃ ts, s.coords.t.evaluate (.ofSize 1 1 5 : Grid Int32) = .ok ts ∧
        4 ∈ referencedFrames ts s.source.frameCount) ∧
      4 ∉ s.plan.cover ⟨5, 8⟩ ∧
      ∃ stats, (s.run input MemorySink.empty).1 = .ok stats ∧ stats.rewinds = 1 := by
  intro input
  have hs : ofCoords input.info firstOfFour ⟨1, 1, 8⟩ ⟨5, none⟩ = .ok _ := rfl
  have hread {s : Session} (h : ∃ ts ∈ (s.coords.t.evaluate (.ofSize 1 1 5 : Grid Int32)).toOption,
      4 ∈ referencedFrames ts s.source.frameCount) :
      ∃ ts, s.coords.t.evaluate (.ofSize 1 1 5 : Grid Int32) = .ok ts ∧
        4 ∈ referencedFrames ts s.source.frameCount := by
    simpa only [Option.mem_def, toOption_eq_some] using h
  exact ⟨_, hs, by decide +kernel, hread (by decide +kernel), by decide +kernel,
    ⟨8, 9, 4, 1, 9, 5⟩, toOption_eq_some.mp (by decide +kernel), rfl⟩

theorem complete_of_firstOfFour :
    let input := MemorySource.shades 8 8
    ∃ s, ofCoords input.info firstOfFour ⟨1, 1, 8⟩ ⟨4, none⟩ = .ok s ∧
      s.plan.cover ⟨4, 8⟩ = ⟨4, 8⟩ ∧ s.Complete s.plan ⟨4, 8⟩ := by
  intro input
  have hs : ofCoords input.info firstOfFour ⟨1, 1, 8⟩ ⟨4, none⟩ = .ok _ := rfl
  obtain ⟨hplans, hfloat⟩ := complete_iff_in_bound (r := ⟨4, 8⟩) hs rfl (by decide) (by decide +kernel)
  refine ⟨_, hs, by decide +kernel, (hplans _ (hfloat (by decide +kernel))).2 ?_⟩
  intro l k hoccurs
  have hmem := Expr.mem_nodes.mpr hoccurs
  simp only [clampTo, firstOfFour, Expr.nodes] at hmem
  obtain ⟨rfl, rfl⟩ : l = .var .t ∧ k = .literal (.int 4) := by simpa using hmem
  decide +kernel

/-- Where bounds on the way are too large for doubles, what runs plan is not what is planned with exact
endpoints: all corners of the last product are zero times infinity, and no frame is covered. -/
example :
    let wide : Expr := .quotient .remainder
      (.scale (.int (-1)) (.quotient .remainder (.var .x) (.literal (.int 1))))
      (.sum [.literal (.int 1), .scale (.int 0x40000000) (.var .t)])
    let t : Expr := .product (List.replicate 35 wide ++ [.literal (.int 0)])
    ((ofCoords (MemorySource.shades 2 8).info ⟨.var .x, .var .y, t⟩ ⟨2, 1, 2⟩ ⟨2, none⟩).toOption.map
      fun s => (decide (s.NonNegativeOn ⟨0, 2⟩), s.plan.cover ⟨0, 2⟩, (s.planIn Int).cover ⟨0, 2⟩)) =
      some (true, ⟨1, 1⟩, ⟨0, 1⟩) := by
  decide +kernel

end Session

end VideoRemap

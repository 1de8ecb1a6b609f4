import Mathlib.Data.List.Chain
import VideoRemap.Proofs.Span.Layout

/-!
Merging two lists of runs merges their boundaries: the pieces begin and end at the boundaries of either
side, and each lies in one run of the left side and in one of the right.
-/

namespace VideoRemap.Run

variable {β γ δ : Type}

structure AreBoundaries (bs : List Nat) (n : Nat) : Prop where
  head? : bs.head? = some 0
  increasing : bs.Pairwise (· < ·)
  length : bs.length = n + 1

def Contains (bs : List Nat) (k start stop : Nat) : Prop :=
  ∃ b b', bs[k]? = some b ∧ bs[k + 1]? = some b' ∧ b ≤ start ∧ stop ≤ b'

/-- One run alone has all pixels from `start` up to `stop` in it; its payload is `x`, and it has `skip`
pixels in front of them. -/
def LiesIn (bs : List Nat) (xs : List β) (start stop : Nat) (x : β) (skip : Nat) : Prop :=
  ∃ k b, (∀ k', Contains bs k' start stop ↔ k' = k) ∧ bs[k]? = some b ∧ b + skip = start ∧ xs[k]? = some x

section

variable {bs : List Nat} {k k' start stop : Nat}

lemma Contains.le (h : bs.Pairwise (· < ·)) (hlt : start < stop) (hk : Contains bs k start stop)
    (hk' : Contains bs k' start stop) : k ≤ k' := by
  obtain ⟨b, -, hb, -, hstart, -⟩ := hk
  obtain ⟨-, b', -, hb', -, hstop⟩ := hk'
  obtain ⟨hi, rfl⟩ := List.getElem?_eq_some_iff.mp hb
  obtain ⟨hj, rfl⟩ := List.getElem?_eq_some_iff.mp hb'
  refine Nat.le_of_not_lt fun hlater => ?_
  have hle : bs[k' + 1] ≤ bs[k] := by
    rcases Nat.lt_or_eq_of_le (show k' + 1 ≤ k by omega) with hbefore | rfl
    · exact Nat.le_of_lt (List.pairwise_iff_getElem.mp h _ _ hj hi hbefore)
    · exact Nat.le_refl _
  omega

lemma Contains.unique (h : bs.Pairwise (· < ·)) (hlt : start < stop) (hk : Contains bs k start stop)
    (hk' : Contains bs k' start stop) : k' = k :=
  Nat.le_antisymm (hk'.le h hlt hk) (hk.le h hlt hk')

end

lemma increasing_iff {bs : List Nat} : increasing bs = true ↔ bs.Pairwise (· < ·) := by
  rw [← List.isChain_iff_pairwise]
  fun_induction increasing bs with
  | case1 a b rest ih => simp [ih]
  | case2 bs h =>
    cases bs with
    | nil => simp
    | cons a bs =>
      cases bs with
      | nil => simp
      | cons b rest => exact (h a b rest rfl).elim

lemma boundaries_of_zip {start : Nat} {bs : List Nat} {xs : List β} (h : (start :: bs).Pairwise (· < ·))
    (hlength : bs.length = xs.length) {rs : List (Run β)}
    (hrs : rs = (bs.zip (start :: bs)).zipWith (fun b x => ⟨b.1 - b.2, x⟩) xs) :
    WellFormed rs ∧ boundaries start rs = start :: bs ∧ rs.map Run.payload = xs := by
  induction xs generalizing start bs rs with
  | nil =>
    obtain rfl := List.eq_nil_of_length_eq_zero hlength
    subst hrs
    exact ⟨List.forall_mem_nil _, rfl, rfl⟩
  | cons x xs ih =>
    cases bs with
    | nil => exact nomatch hlength
    | cons b bs =>
      have hlt : start < b := (List.pairwise_cons.mp h).1 b List.mem_cons_self
      obtain ⟨hwell, hbounds, hpayloads⟩ :=
        ih (List.pairwise_cons.mp h).2 (Nat.succ.inj hlength) rfl
      subst hrs
      rw [List.zip_cons_cons, List.zipWith_cons_cons]
      refine ⟨wellFormed_cons.mpr ⟨Nat.sub_pos_of_lt hlt, hwell⟩, ?_, ?_⟩
      · rw [boundaries, Nat.add_sub_cancel' (Nat.le_of_lt hlt), hbounds]
      · rw [List.map_cons, hpayloads]

lemma AreBoundaries.exists_runs {bs : List Nat} {xs : List β} (h : AreBoundaries bs xs.length) :
    ∃ rs, ofBoundaries bs xs = .ok rs ∧ WellFormed rs ∧ boundaries 0 rs = bs ∧
      rs.map Run.payload = xs := by
  obtain ⟨hhead, hincreasing, hlength⟩ := h
  cases bs with
  | nil => exact nomatch hhead
  | cons b bs =>
    obtain rfl : b = 0 := Option.some.inj hhead
    refine ⟨_, ?_, boundaries_of_zip hincreasing (Nat.succ.inj hlength) rfl⟩
    simp [ofBoundaries, increasing_iff.mpr hincreasing, Nat.succ.inj hlength]

def cuts (pos : Nat) (ps : List (Piece β γ)) : List Nat :=
  boundaries pos (ps.map fun p => (⟨p.length, ()⟩ : Run Unit))

lemma cuts_cons (pos : Nat) (p : Piece β γ) (ps : List (Piece β γ)) :
    cuts pos (p :: ps) = pos :: cuts (pos + p.length) ps := rfl

lemma boundaries_zipWith (f : Piece β γ → δ) (a : List (Run β)) (b : List (Run γ)) :
    boundaries 0 (zipWith f a b) = cuts 0 (merge a b) := by
  rw [zipWith, cuts]
  generalize merge a b = ps
  generalize 0 = pos
  induction ps generalizing pos with
  | nil => rfl
  | cons p ps ih =>
    rw [List.map_cons, List.map_cons, boundaries, boundaries, ih]

def Holds (rs : List (Run β)) (base start stop : Nat) (x : β) (skip : Nat) : Prop :=
  ∃ (k b : Nat) (r : Run β), (boundaries base rs)[k]? = some b ∧ rs[k]? = some r ∧ b + skip = start ∧
    stop ≤ b + r.length ∧ r.payload = x

section

variable {base start stop skip : Nat} {x : β} {r : Run β} {rs : List (Run β)}

lemma Holds.first (hstart : base + skip = start) (hstop : stop ≤ base + r.length) :
    Holds (r :: rs) base start stop r.payload skip :=
  ⟨0, base, r, rfl, rfl, hstart, hstop, rfl⟩

lemma Holds.later (h : Holds rs (base + r.length) start stop x skip) :
    Holds (r :: rs) base start stop x skip := by
  obtain ⟨k, b, r', hb, hr, hstart, hstop, hx⟩ := h
  exact ⟨k + 1, b, r', hb, hr, hstart, hstop, hx⟩

lemma getElem?_boundaries_succ {k b : Nat} (hb : (boundaries base rs)[k]? = some b)
    (hr : rs[k]? = some r) : (boundaries base rs)[k + 1]? = some (b + r.length) := by
  induction rs generalizing base k with
  | nil => exact nomatch hr
  | cons r' rs ih =>
    rw [boundaries] at hb ⊢
    cases k with
    | zero =>
      obtain rfl := Option.some.inj hb
      obtain rfl := Option.some.inj hr
      rw [List.getElem?_cons_succ, ← List.head?_eq_getElem?, head?_boundaries]
    | succ k => exact ih hb hr

lemma Holds.liesIn (h : Holds rs 0 start stop x skip) (hrs : WellFormed rs) (hlt : start < stop) :
    LiesIn (boundaries 0 rs) (rs.map Run.payload) start stop x skip := by
  obtain ⟨k, b, r, hb, hr, hstart, hstop, hx⟩ := h
  have hcontains : Contains (boundaries 0 rs) k start stop :=
    ⟨b, _, hb, getElem?_boundaries_succ hb hr, by omega, hstop⟩
  refine ⟨k, b, fun k' => ⟨?_, ?_⟩, hb, hstart, ?_⟩
  · exact hcontains.unique (pairwise_boundaries hrs 0) hlt
  · rintro rfl
    exact hcontains
  · rw [List.getElem?_map, hr, Option.map_some, hx]

end

lemma mergeFrom_holds {a : List (Run β)} {i : Nat} {b : List (Run γ)} {j : Nat} {baseLeft baseRight pos : Nat}
    (hleft : baseLeft + i = pos) (hright : baseRight + j = pos) (hi : i ≤ headLength a)
    (hj : j ≤ headLength b) {k start : Nat} {p : Piece β γ} (hp : (mergeFrom a i b j)[k]? = some p)
    (hstart : (cuts pos (mergeFrom a i b j))[k]? = some start) :
    Holds a baseLeft start (start + p.length) p.left p.leftSkip ∧
      Holds b baseRight start (start + p.length) p.right p.rightSkip := by
  fun_induction mergeFrom a i b j generalizing baseLeft baseRight pos k with
  | case1 i j r rs s ss hlt ih =>
    simp only [headLength] at hi hj ih
    cases k with
    | zero =>
      obtain rfl := Option.some.inj hp
      obtain rfl := Option.some.inj hstart
      exact ⟨.first hleft (by simp only; omega), .first hright (by simp only; omega)⟩
    | succ k =>
      have hleft' : baseLeft + r.length + 0 = pos + (r.length - i) := by omega
      have hright' : baseRight + (j + (r.length - i)) = pos + (r.length - i) := by omega
      obtain ⟨hl, hr⟩ := ih hleft' hright' (Nat.zero_le _) (by omega) hp hstart
      exact ⟨hl.later, hr⟩
  | case2 i j r rs s ss hnlt hlt ih =>
    simp only [headLength] at hi hj ih
    cases k with
    | zero =>
      obtain rfl := Option.some.inj hp
      obtain rfl := Option.some.inj hstart
      exact ⟨.first hleft (by simp only; omega), .first hright (by simp only; omega)⟩
    | succ k =>
      have hleft' : baseLeft + (i + (s.length - j)) = pos + (s.length - j) := by omega
      have hright' : baseRight + s.length + 0 = pos + (s.length - j) := by omega
      obtain ⟨hl, hr⟩ := ih hleft' hright' (by omega) (Nat.zero_le _) hp hstart
      exact ⟨hl, hr.later⟩
  | case3 i j r rs s ss hnlt hnlt' ih =>
    simp only [headLength] at hi hj ih
    cases k with
    | zero =>
      obtain rfl := Option.some.inj hp
      obtain rfl := Option.some.inj hstart
      exact ⟨.first hleft (by simp only; omega), .first hright (by simp only; omega)⟩
    | succ k =>
      have hleft' : baseLeft + r.length + 0 = pos + (r.length - i) := by omega
      have hright' : baseRight + s.length + 0 = pos + (r.length - i) := by omega
      obtain ⟨hl, hr⟩ := ih hleft' hright' (Nat.zero_le _) (Nat.zero_le _) hp hstart
      exact ⟨hl.later, hr.later⟩
  | case4 a i b j h => simp at hp

section

variable {base pos i v : Nat} {r : Run β} {rs : List (Run β)}

lemma behind_inside (hbase : base + i = pos) (hi : i < r.length) :
    pos < v ∧ v ∈ boundaries base (r :: rs) ↔ v ∈ boundaries (base + r.length) rs := by
  rw [boundaries, List.mem_cons]
  constructor
  · rintro ⟨hlt, rfl | hv⟩
    · omega
    · exact hv
  · intro hv
    have := le_of_mem_boundaries hv
    exact ⟨by omega, Or.inr hv⟩

lemma eq_or_behind : v ∈ boundaries pos rs ↔ v = pos ∨ pos < v ∧ v ∈ boundaries pos rs := by
  obtain ⟨bs, hbs⟩ := exists_boundaries_eq pos rs
  constructor
  · intro hv
    rcases Nat.eq_or_lt_of_le (le_of_mem_boundaries hv) with heq | hlt
    · exact Or.inl heq.symm
    · exact Or.inr ⟨hlt, hv⟩
  · rintro (rfl | ⟨-, hv⟩)
    · exact hbs ▸ List.mem_cons_self
    · exact hv

end

lemma mem_cuts_mergeFrom {a : List (Run β)} {i : Nat} {b : List (Run γ)} {j : Nat}
    {baseLeft baseRight pos : Nat} (hleft : baseLeft + i = pos) (hright : baseRight + j = pos)
    (ha : WellFormed a) (hb : WellFormed b) (hi : i = 0 ∨ i < headLength a) (hj : j = 0 ∨ j < headLength b)
    (hend : baseLeft + total a = baseRight + total b) (v : Nat) :
    v ∈ cuts pos (mergeFrom a i b j) ↔
      v = pos ∨ (pos < v ∧ v ∈ boundaries baseLeft a) ∨ (pos < v ∧ v ∈ boundaries baseRight b) := by
  fun_induction mergeFrom a i b j generalizing baseLeft baseRight pos with
  | case1 i j r rs s ss hlt ih =>
    obtain ⟨hr, hrs⟩ := wellFormed_cons.mp ha
    obtain ⟨hs, hss⟩ := wellFormed_cons.mp hb
    simp only [headLength, total] at hi hj hend
    have hpos : pos + (r.length - i) = baseLeft + r.length := by omega
    have hright' : baseRight + (j + (r.length - i)) = baseLeft + r.length := by omega
    have hrest := ih (Nat.add_zero _) hright' hrs hb (Or.inl rfl) (by simp only [headLength]; omega)
      (by simp only [total]; omega)
    rw [behind_inside hright' (by omega), ← or_assoc, ← eq_or_behind] at hrest
    rw [cuts_cons, List.mem_cons, hpos, hrest, behind_inside hleft (by omega), behind_inside hright (by omega)]
  | case2 i j r rs s ss hnlt hlt ih =>
    obtain ⟨hr, hrs⟩ := wellFormed_cons.mp ha
    obtain ⟨hs, hss⟩ := wellFormed_cons.mp hb
    simp only [headLength, total] at hi hj hend
    have hpos : pos + (s.length - j) = baseRight + s.length := by omega
    have hleft' : baseLeft + (i + (s.length - j)) = baseRight + s.length := by omega
    have hrest := ih hleft' (Nat.add_zero _) ha hss (by simp only [headLength]; omega) (Or.inl rfl)
      (by simp only [total]; omega)
    rw [behind_inside hleft' (by omega), or_left_comm, ← eq_or_behind] at hrest
    rw [cuts_cons, List.mem_cons, hpos, hrest, behind_inside hleft (by omega), behind_inside hright (by omega)]
  | case3 i j r rs s ss hnlt hnlt' ih =>
    obtain ⟨hr, hrs⟩ := wellFormed_cons.mp ha
    obtain ⟨hs, hss⟩ := wellFormed_cons.mp hb
    simp only [headLength, total] at hi hj hend
    have hpos : pos + (r.length - i) = baseLeft + r.length := by omega
    have hsame : baseRight + s.length = baseLeft + r.length := by omega
    have hright' : baseRight + s.length + 0 = baseLeft + r.length := hsame
    have hrest := ih (Nat.add_zero _) hright' hrs hss (Or.inl rfl) (Or.inl rfl) (by omega)
    rw [hsame, or_or_distrib_left, ← eq_or_behind, ← eq_or_behind] at hrest
    rw [cuts_cons, List.mem_cons, hpos, hrest, behind_inside hleft (by omega), behind_inside hright (by omega),
      hsame]
  | case4 a i b j h =>
    -- One side has ended, and so has the other, which is as long.
    obtain ⟨rfl, rfl⟩ : a = [] ∧ b = [] := by
      cases a with
      | nil =>
        cases b with
        | nil => exact ⟨rfl, rfl⟩
        | cons s ss =>
          have := (wellFormed_cons.mp hb).1
          simp only [headLength, total] at hi hj hend
          omega
      | cons r rs =>
        cases b with
        | nil =>
          have := (wellFormed_cons.mp ha).1
          simp only [headLength, total] at hi hj hend
          omega
        | cons s ss => exact (h r rs s ss rfl rfl).elim
    simp only [headLength, total] at hi hj hend
    change v ∈ [pos] ↔ v = pos ∨ (pos < v ∧ v ∈ [baseLeft]) ∨ (pos < v ∧ v ∈ [baseRight])
    simp only [List.mem_singleton]
    omega

section

variable {a : List (Run β)} {b : List (Run γ)} (ha : WellFormed a) (hb : WellFormed b)

include ha hb

lemma pairwise_cuts_merge : (cuts 0 (merge a b)).Pairwise (· < ·) := by
  rw [← boundaries_zipWith id]
  exact pairwise_boundaries (wellFormed_zipWith id ha hb) 0

lemma mem_cuts_merge (htotal : total a = total b) {v : Nat} :
    v ∈ cuts 0 (merge a b) ↔ v ∈ boundaries 0 a ∨ v ∈ boundaries 0 b := by
  rw [merge, mem_cuts_mergeFrom (Nat.zero_add 0) (Nat.zero_add 0) ha hb (Or.inl rfl) (Or.inl rfl) (by omega),
    or_or_distrib_left, ← eq_or_behind, ← eq_or_behind]

end

lemma getElem?_cuts_succ {ps : List (Piece β γ)} {pos k start : Nat} {p : Piece β γ}
    (hp : ps[k]? = some p) (hstart : (cuts pos ps)[k]? = some start) :
    (cuts pos ps)[k + 1]? = some (start + p.length) := by
  refine getElem?_boundaries_succ (r := ⟨p.length, ()⟩) hstart ?_
  rw [List.getElem?_map, hp]
  rfl

/-- The payloads stand for the runs: with the numbers of the runs for payloads, a piece names the run on
either side. -/
theorem merge_sorted_union {a b : List Nat} {xs : List β} {ys : List γ} (ha : AreBoundaries a xs.length)
    (hb : AreBoundaries b ys.length) (hend : a.getLast? = b.getLast?) :
    ∃ rs ss bs, ofBoundaries a xs = .ok rs ∧ ofBoundaries b ys = .ok ss ∧
      (∀ (δ : Type) (f : Piece β γ → δ), boundaries 0 (zipWith f rs ss) = bs) ∧
      bs.Pairwise (· < ·) ∧ (∀ v, v ∈ bs ↔ v ∈ a ∨ v ∈ b) ∧ (merge rs ss).length + 1 = bs.length ∧
      ∀ k start stop, bs[k]? = some start → bs[k + 1]? = some stop →
        ∃ p, (merge rs ss)[k]? = some p ∧ start + p.length = stop ∧
          LiesIn a xs start stop p.left p.leftSkip ∧ LiesIn b ys start stop p.right p.rightSkip := by
  obtain ⟨rs, hrs, hwell, hleft, hpayloads⟩ := ha.exists_runs
  obtain ⟨ss, hss, hwell', hright, hpayloads'⟩ := hb.exists_runs
  have htotal : total rs = total ss := by
    rw [← hleft, ← hright, getLast?_boundaries, getLast?_boundaries] at hend
    simpa using hend
  have hlength : (merge rs ss).length + 1 = (cuts 0 (merge rs ss)).length := by
    rw [cuts, length_boundaries, List.length_map]
  have hincreasing := pairwise_cuts_merge hwell hwell'
  refine ⟨rs, ss, cuts 0 (merge rs ss), hrs, hss, fun δ f => boundaries_zipWith f rs ss, hincreasing,
    fun v => ?_, hlength, fun k start stop hstart hstop => ?_⟩
  · rw [mem_cuts_merge hwell hwell' htotal, hleft, hright]
  · obtain ⟨hk, -⟩ := List.getElem?_eq_some_iff.mp hstop
    obtain ⟨p, hp⟩ : ∃ p, (merge rs ss)[k]? = some p := ⟨_, List.getElem?_eq_getElem (by omega)⟩
    obtain rfl := Option.some.inj ((getElem?_cuts_succ hp hstart).symm.trans hstop)
    have hlt : start < start + p.length := by
      obtain ⟨hi, hstart⟩ := List.getElem?_eq_some_iff.mp hstart
      obtain ⟨hj, hstop⟩ := List.getElem?_eq_some_iff.mp hstop
      rw [← hstop]
      exact hstart ▸ List.pairwise_iff_getElem.mp hincreasing k (k + 1) hi hj (Nat.lt_succ_self k)
    obtain ⟨hl, hr⟩ := mergeFrom_holds (Nat.zero_add 0) (Nat.zero_add 0) (Nat.zero_le _) (Nat.zero_le _)
      hp hstart
    refine ⟨p, hp, rfl, ?_, ?_⟩
    · rw [← hleft, ← hpayloads]
      exact hl.liesIn hwell hlt
    · rw [← hright, ← hpayloads']
      exact hr.liesIn hwell' hlt

theorem merge_sorted_union_with_tie :
    AreBoundaries [0, 2, 5] [0, 1].length ∧ AreBoundaries [0, 2, 3, 5] [0, 1, 2].length ∧
    [0, 2, 5].getLast? = [0, 2, 3, 5].getLast? ∧
    ∃ rs ss, ofBoundaries [0, 2, 5] [0, 1] = .ok rs ∧ ofBoundaries [0, 2, 3, 5] [0, 1, 2] = .ok ss ∧
      boundaries 0 (zipWith id rs ss) = [0, 2, 3, 5] ∧
      ∃ p, (merge rs ss)[2]? = some p ∧ 3 + p.length = 5 ∧ LiesIn [0, 2, 5] [0, 1] 3 5 p.left p.leftSkip ∧
        LiesIn [0, 2, 3, 5] [0, 1, 2] 3 5 p.right p.rightSkip ∧
        (p.left, p.leftSkip, p.right, p.rightSkip) = (1, 1, 2, 0) := by
  have ha : AreBoundaries [0, 2, 5] [0, 1].length := ⟨rfl, by decide, rfl⟩
  have hb : AreBoundaries [0, 2, 3, 5] [0, 1, 2].length := ⟨rfl, by decide, rfl⟩
  obtain ⟨rs, ss, bs, hrs, hss, hunion, -, -, -, hpieces⟩ := merge_sorted_union ha hb rfl
  have hleft : ofBoundaries [0, 2, 5] [0, 1] = .ok [⟨2, 0⟩, ⟨3, 1⟩] := rfl
  have hright : ofBoundaries [0, 2, 3, 5] [0, 1, 2] = .ok [⟨2, 0⟩, ⟨1, 1⟩, ⟨2, 2⟩] := rfl
  obtain rfl := Except.ok.inj (hrs.symm.trans hleft)
  obtain rfl := Except.ok.inj (hss.symm.trans hright)
  have hbounds : bs = [0, 2, 3, 5] := by
    rw [← hunion _ id]
    simp [zipWith, merge, mergeFrom, boundaries]
  subst hbounds
  obtain ⟨p, hp, hlength, hl, hr⟩ := hpieces 2 3 5 rfl rfl
  refine ⟨ha, hb, rfl, _, _, hrs, hss, hunion _ id, p, hp, hlength, hl, hr, ?_⟩
  simp [merge, mergeFrom] at hp
  rw [← hp]

end VideoRemap.Run
